import Bindery.Code.Module
import Bindery.Proofs.Code.Claimed

/-!
# The text of methods

A method is data first, and its text is written from the data. What is written for the
signature and for the values speaks of a parameter by its identifier alone, so the text is
one of the names of an action or a plan and of a spelling for them.

* `signatureText`: the lines of a signature.
* `passedText`, `suppliedText`: what is written for a placeholder.
* `actionText`, `planText`: the text of a method.
* `Method.text_ofCompiled`, `Method.text_ofPlan`: this is the text of the methods that are
  made for actions and plans.
* `Module.text_concat`: the text of a module ends with its last method.
-/

namespace Bindery.Code

variable {args : List Argument}

/-! ## Signatures and values -/

/-- The lines of a signature, one for each parameter in order: the spelling of its name,
    and the type that it borrows. -/
def signatureText (runtime : String) (spell : String → String) (params : List Variable) : String :=
  String.join (params.map fun v =>
    "        " ++ spell v.name ++ ": " ++ v.type.hostType.borrowedText runtime ++ ",\n")

/-- What is passed for a placeholder of an action: the literal of the value that is fixed,
    or else the argument of its name. -/
def passedText (spell : String → String) (c : Compiled) (b : Binding) : String :=
  match c.fixedValue? b.name with
  | some v => valueLiteral v
  | none => spell b.name ++ ".to_sql_value()"

/-- What is passed for a placeholder of a step, by its source. -/
def suppliedText (spell : String → String) : ArgumentSource → String
  | .literal v => "TxArg::Value(" ++ valueLiteral v ++ ")"
  | .var name => "TxArg::var(" ++ stringLiteral name ++ ")"
  | .caller name => "TxArg::value(" ++ spell name ++ ")"

theorem Claimed.signatureText_eq {handle : String} {params : List Variable}
    (h : Claimed handle params args) (runtime : String) :
    String.join (args.map (Argument.line runtime)) =
      signatureText runtime (identifierOf args) params := by
  unfold signatureText
  rw [← h.params, List.map_map]
  congr 1
  apply List.map_congr_left
  intro a member
  show _ = "        " ++ identifierOf args a.source ++ ": " ++ _ ++ ",\n"
  rw [h.identifierOf_eq member]
  rfl

theorem valueText_callArg (c : Compiled) (b : Binding) :
    (callArg c args b.name).valueText = passedText (identifierOf args) c b := by
  unfold callArg passedText
  cases c.fixedValue? b.name with
  | some v => rfl
  | none => rfl

theorem stepText_stepArg (source : ArgumentSource) :
    (stepArg args source).stepText = suppliedText (identifierOf args) source := by
  cases source with
  | literal v => rfl
  | var name => rfl
  | caller name => rfl

/-! ## Steps -/

/-- How the call begins that makes a step of a kind. -/
def stepOpening : StepKind → String
  | .queryRow => "TxStep::query_row("
  | .query => "TxStep::query("
  | .exec _ => "TxStep::exec("
  | .insert => "TxStep::insert("

/-- What follows the call that makes a step of a kind. -/
def stepClosing : StepKind → String
  | .exec true => "\n                    .expect_one()"
  | _ => ""

/-- The text of a planned step: the call that makes it, a call for each argument and one for
    each export. -/
def plannedText (spell : String → String) (s : PlannedStep) : String :=
  "\n            .step(\n                " ++ stepOpening s.kind ++ stringLiteral s.action ++ ", "
    ++ stringLiteral s.sql ++ ")" ++ stepClosing s.kind
    ++ String.join (s.args.map fun a =>
      "\n                    .arg(" ++ suppliedText spell a ++ ")")
    ++ String.join (s.exports.map fun e => "\n                    ." ++ exportText e)
    ++ ",\n            )"

theorem stepHead_eq (action sql : String) (kind : StepKind) :
    stepHead action sql kind =
      stepOpening kind ++ stringLiteral action ++ ", " ++ stringLiteral sql ++ ")"
        ++ stepClosing kind := by
  have closing (start : String) :
      start ++ stepBreak ++ "expect_one()" = start ++ "\n                    .expect_one()" := by
    rw [String.append_assoc]
    exact congrArg (start ++ ·) (by decide)
  cases kind with
  | queryRow => exact String.append_empty.symm
  | query => exact String.append_empty.symm
  | exec one =>
    cases one with
    | false => exact String.append_empty.symm
    | true => exact closing _
  | insert => exact String.append_empty.symm

theorem argText_stepArg (source : ArgumentSource) :
    stepBreak ++ "arg(" ++ (stepArg args source).stepText ++ ")" =
      "\n                    .arg(" ++ suppliedText (identifierOf args) source ++ ")" := by
  have opening : stepBreak ++ "arg(" = "\n                    .arg(" := by decide
  rw [stepText_stepArg]
  exact congrArg (fun start => start ++ suppliedText (identifierOf args) source ++ ")") opening

theorem text_ofPlanned (s : PlannedStep) :
    (StepCall.ofPlanned args s).text = plannedText (identifierOf args) s := by
  have arguments : (s.args.map (stepArg args)).map
        (fun a => stepBreak ++ "arg(" ++ a.stepText ++ ")") =
      s.args.map fun a =>
        "\n                    .arg(" ++ suppliedText (identifierOf args) a ++ ")" := by
    rw [List.map_map]
    exact List.map_congr_left fun source _ => argText_stepArg source
  unfold StepCall.ofPlanned StepCall.text plannedText
  rw [arguments, stepHead_eq, stepBreak]
  simp only [String.append_assoc]

/-! ## Methods -/

/-- The text of the method of a compiled action. -/
def actionText (runtime ident returned helper : String) (spell : String → String)
    (c : Compiled) : String :=
  "    /// `" ++ c.name ++ "`\n    pub async fn " ++ ident
    ++ "<Q: Queryable + ?Sized>(\n        &self,\n        queryable: &mut Q,\n"
    ++ signatureText runtime spell (c.arguments.map fun b => ⟨b.name, b.type⟩)
    ++ "    ) -> Result<" ++ returned ++ ", DalError> \x7b\n        " ++ runtime ++ "::" ++ helper
    ++ "(queryable, " ++ stringLiteral c.sql ++ ", &["
    ++ String.intercalate ", " (c.params.map (passedText spell c)) ++ "]).await\n    \x7d\n"

/-- The text of the method of a plan. -/
def planText (runtime ident : String) (spell : String → String) (p : Plan) : String :=
  "    /// Transaction `" ++ escape p.name ++ "`.\n    pub async fn " ++ ident
    ++ "<D: Database>(\n        &self,\n        db: &D,\n"
    ++ signatureText runtime spell p.args ++ "    ) -> Result<" ++ variablesType runtime p.returns
    ++ ", DalError> \x7b\n        let plan = TxPlan::new(" ++ stringLiteral p.name ++ ")"
    ++ String.join (p.steps.map (plannedText spell)) ++ ";\n" ++ runText runtime p.returns
    ++ "    \x7d\n"

theorem Method.text_ofCompiled {table ident : String} {c : Compiled} {m : Method}
    {record : Option RecordType} (h : Method.ofCompiled table ident c = .ok (m, record)) :
    ∃ helper : Helper, ∀ runtime, m.text runtime =
      actionText runtime m.ident (m.returned.text runtime) helper.label
        (identifierOf m.arguments) c := by
  obtain ⟨args, claimed, h₁⟩ := bind_eq_ok_iff.1 h
  obtain ⟨name, -, h₂⟩ := bind_eq_ok_iff.1 h₁
  obtain ⟨⟨helper, returned, _⟩, -, h₃⟩ := bind_eq_ok_iff.1 h₂
  cases h₃
  have values : (c.params.map fun b => callArg c args b.name).map CallArg.valueText =
      c.params.map (passedText (identifierOf args) c) := by
    rw [List.map_map]
    exact List.map_congr_left fun b _ => valueText_callArg c b
  refine ⟨helper, fun runtime => ?_⟩
  show callText runtime _ helper c.sql _ = _
  unfold callText actionText
  rw [values, (claimed_of_claimArguments claimed).signatureText_eq]

theorem Method.text_ofPlan {ident : String} {p : Plan} {m : Method}
    (h : Method.ofPlan ident p = .ok m) (runtime : String) :
    m.text runtime = planText runtime m.ident (identifierOf m.arguments) p := by
  obtain ⟨args, claimed, h₁⟩ := bind_eq_ok_iff.1 h
  cases h₁
  have steps : (p.steps.map (StepCall.ofPlanned args)).map StepCall.text =
      p.steps.map (plannedText (identifierOf args)) := by
    rw [List.map_map]
    exact List.map_congr_left fun s _ => text_ofPlanned s
  show transactionText runtime _ (p.steps.map (StepCall.ofPlanned args)) = _
  unfold transactionText planText
  rw [steps, (claimed_of_claimArguments claimed).signatureText_eq]
  rfl

/-! ## Modules -/

/-- Texts with separators between them end with the last one. -/
theorem exists_intercalate_concat (separator last : String) (texts : List String) :
    ∃ before, String.intercalate separator (texts ++ [last]) = before ++ last := by
  cases texts with
  | nil =>
    refine ⟨"", ?_⟩
    rw [List.nil_append, String.intercalate_singleton, String.empty_append]
  | cons first rest =>
    refine ⟨String.intercalate separator (first :: rest) ++ separator, ?_⟩
    rw [String.intercalate_append_of_ne_nil (List.cons_ne_nil first rest) (List.cons_ne_nil _ _),
      String.intercalate_singleton]

/-- The text of a module ends with that of its last method. -/
theorem Module.text_concat {m : Module} {earlier : List Method} {last : Method}
    (h : m.methods = earlier ++ [last]) (o : Options) :
    ∃ before, m.text o = before ++ last.text o.runtimePath ++ "\x7d\n" := by
  obtain ⟨before, methods⟩ := exists_intercalate_concat "\n" (last.text o.runtimePath)
    (earlier.map (Method.text o.runtimePath))
  have shown : m.methodsText o =
      "\nimpl " ++ m.typeName ++ " \x7b\n" ++ (before ++ last.text o.runtimePath) ++ "\x7d\n" := by
    rw [← methods, ← List.map_singleton, ← List.map_append]
    unfold methodsText
    rw [h]
    cases earlier with
    | nil => rfl
    | cons first rest => rfl
  refine ⟨m.headText o ++ m.recordsText o ++ ("\nimpl " ++ m.typeName ++ " \x7b\n" ++ before), ?_⟩
  unfold text
  rw [shown]
  simp only [String.append_assoc]

end Bindery.Code
