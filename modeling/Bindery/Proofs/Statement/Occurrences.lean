import Bindery.Proofs.Statement.Yields

/-!
# Occurrences of parameters

The parameters a definition mentions, read off the definition in the order in
which a reader of the text meets them: the select list from left to right, the
values that columns are set to, the `WHERE` tree depth first, the branches of a
union one after the other, and the bounds of a page last. Names of tables and
columns, orders and defaults mention none.

* `Action.occurrences`: the parameters of an action.
* `Action.bindings_prepare`: the placeholders of its statement stand for exactly
  these, in this order.
-/

namespace Bindery

/-! ## Reading them off a definition -/

/-- The parameters of a fragment. -/
def Fragment.occurrences (f : Fragment) : List Binding := f.params.map (·.bind .condition)

/-- The parameter of a side of a comparison. -/
def Operand.occurrences : Operand → List Binding
  | .param p => [p.bind .condition]
  | .column _ | .literal _ | .raw _ => []

mutual

/-- The parameters of a condition, depth first. -/
def Condition.occurrences : Condition → List Binding
  | .compare left _ right => left.occurrences ++ right.toList.flatMap Operand.occurrences
  | .fragment f => f.occurrences
  | .group _ conditions => treeOccurrences conditions

/-- The parameters of conditions, one after the other. -/
def treeOccurrences : List Condition → List Binding
  | [] => []
  | c :: rest => c.occurrences ++ treeOccurrences rest

end

/-- The parameters of a `WHERE` clause. -/
def Filter.occurrences (f : Filter) : List Binding := treeOccurrences f.conditions

/-- The parameters of an entry of a select list. -/
def SelectColumn.occurrences : SelectColumn → List Binding
  | .column _ _ => []
  | .expression f _ _ => f.occurrences

/-- The bounds of a page, if one is asked for. -/
def pageOccurrences (paginated : Bool) : List Binding :=
  if paginated then [limitParam.bind .pagination, offsetParam.bind .pagination] else []

/-- The parameters of a select. -/
def Select.occurrences (s : Select) : List Binding :=
  s.columns.flatMap SelectColumn.occurrences ++ s.filter.occurrences ++
    pageOccurrences s.paginated

/-- The parameters of a union. -/
def Union.occurrences (u : Union) : List Binding :=
  u.branches.flatMap (·.select.occurrences) ++ pageOccurrences u.paginated

/-- The parameters of the value of a column. -/
def SetValue.occurrences : SetValue → List Binding
  | .param p => [p.bind .assignment]
  | .fragment f => f.occurrences
  | .default => []

/-- The parameters of assignments. -/
def assignmentOccurrences (as : List Assignment) : List Binding :=
  as.flatMap (·.value.occurrences)

/-- The parameters of a task. -/
def Task.occurrences : Task → List Binding
  | .select s => s.occurrences
  | .insert i => assignmentOccurrences i.assignments
  | .update u => assignmentOccurrences u.assignments ++ u.filter.occurrences
  | .delete d => d.filter.occurrences
  | .union u => u.occurrences

/-- The parameters of an action; a wrapper mentions none of its own. -/
def Action.occurrences : Action → List Binding
  | .perform _ _ task => task.occurrences
  | .wrap _ _ inner _ => inner.occurrences

/-! ## Fragments and filters -/

/-- The parameters behind the placeholders among pieces. -/
def slots (ps : List Piece) : List Binding := ps.filterMap Piece.binding?

@[simp] theorem slots_nil : slots [] = [] := rfl

@[simp] theorem slots_append (ps qs : List Piece) : slots (ps ++ qs) = slots ps ++ slots qs := by
  simp [slots]

@[simp] theorem slots_text_cons (s : String) (ps : List Piece) :
    slots (.text s :: ps) = slots ps := rfl

@[simp] theorem slots_name_cons (s : String) (ps : List Piece) :
    slots (.name s :: ps) = slots ps := rfl

@[simp] theorem slots_slot_cons (b : Binding) (ps : List Piece) :
    slots (.slot b :: ps) = b :: slots ps := rfl

/-- A separator has no placeholder. -/
theorem slots_intercalate (separator : String) (pss : List (List Piece)) :
    slots (List.intercalate [.text separator] pss) = pss.flatMap slots := by
  induction pss with
  | nil => rfl
  | cons ps pss ih =>
    cases pss with
    | nil => simp [List.intercalate]
    | cons qs pss =>
      rw [List.flatMap_cons, ← ih]
      simp [List.intercalate]

/-- Drafts written for the members of a list have the occurrences of these. -/
theorem flatMap_slots_of_forall₂ {γ : Type} {R : γ → List Piece → Prop} {f : γ → List Binding}
    (each : ∀ x ps, R x ps → slots ps = f x) {xs : List γ} {pss : List (List Piece)}
    (h : List.Forall₂ R xs pss) : pss.flatMap slots = xs.flatMap f := by
  induction h with
  | nil => rfl
  | cons hx _ ih => rw [List.flatMap_cons, List.flatMap_cons, each _ _ hx, ih]

theorem slots_columnPieces {s : Scope} {c : ColumnRef} {ps : List Piece}
    (h : s.columnPieces c = .ok ps) : slots ps = [] := by
  obtain ⟨seat, column, -, -, rfl⟩ := Scope.columnPieces_eq_ok_iff.1 h
  split <;> rfl

theorem FragmentPart.slots_write {s : Scope} {part : FragmentPart} {ps : List Piece}
    (h : (part.write s).Yields () ps) : slots ps = Fragment.occurrences ⟨[part]⟩ := by
  cases part with
  | raw sql => rw [Draft.yields_write.1 h]; rfl
  | column c => rw [slots_columnPieces (Scope.yields_writeColumn.1 h)]; rfl
  | param p => rw [Param.yields_write.1 h]; rfl

theorem Fragment.occurrences_cons (part : FragmentPart) (rest : List FragmentPart) :
    Fragment.occurrences ⟨part :: rest⟩ =
      Fragment.occurrences ⟨[part]⟩ ++ Fragment.occurrences ⟨rest⟩ := by
  cases part <;> simp [Fragment.occurrences, Fragment.params]

theorem slots_writeParts {s : Scope} {parts : List FragmentPart} {ps : List Piece}
    (h : (writeParts s parts).Yields () ps) : slots ps = Fragment.occurrences ⟨parts⟩ := by
  induction parts generalizing ps with
  | nil =>
    obtain ⟨-, rfl⟩ := Draft.yields_pure.1 h
    rfl
  | cons part rest ih =>
    obtain ⟨before, hpart, behind, hrest, rfl⟩ := Draft.yields_bind_unit.1 h
    rw [slots_append, part.slots_write hpart, ih hrest, Fragment.occurrences_cons part rest]

theorem Fragment.slots_write {s : Scope} {f : Fragment} {ps : List Piece}
    (h : (f.write s).Yields () ps) : slots ps = f.occurrences :=
  slots_writeParts h

theorem Operand.slots_write {s : Scope} {x : Operand} {ps : List Piece}
    (h : (x.write s).Yields () ps) : slots ps = x.occurrences := by
  cases x with
  | column c => rw [slots_columnPieces (Scope.yields_writeColumn.1 h)]; rfl
  | param p => rw [Param.yields_write.1 h]; rfl
  | literal v => rw [Draft.yields_write.1 h]; rfl
  | raw sql => rw [Draft.yields_write.1 h]; rfl

theorem slots_writeRight {s : Scope} {right : Option Operand} {ps : List Piece}
    (h : (writeRight s right).Yields () ps) :
    slots ps = right.toList.flatMap Operand.occurrences := by
  cases right with
  | none =>
    obtain ⟨-, rfl⟩ := Draft.yields_pure.1 h
    rfl
  | some x =>
    obtain ⟨behind, hx, rfl⟩ := Draft.yields_write_bind.1 h
    simp [Operand.slots_write hx]

mutual

theorem Condition.slots_write {s : Scope} (c : Condition) {ps : List Piece}
    (h : (c.write s).Yields () ps) : slots ps = c.occurrences := by
  match c with
  | .compare left op right =>
    rw [Condition.write] at h
    obtain ⟨before, hleft, _, h₁, rfl⟩ := Draft.yields_bind_unit.1 h
    obtain ⟨behind, hright, rfl⟩ := Draft.yields_write_bind.1 h₁
    simp [Operand.slots_write hleft, slots_writeRight hright, Condition.occurrences]
  | .fragment f =>
    rw [Condition.write] at h
    rw [Fragment.slots_write h, Condition.occurrences]
  | .group connective conditions =>
    rw [Condition.write] at h
    obtain ⟨_, h₁, rfl⟩ := Draft.yields_write_bind.1 h
    obtain ⟨inner, hinner, _, hclose, rfl⟩ := Draft.yields_bind_unit.1 h₁
    rw [Draft.yields_write.1 hclose, Condition.occurrences]
    simp [slots_writeConditions conditions hinner]

theorem slots_writeConditions {s : Scope} {connective : Connective} (cs : List Condition)
    {ps : List Piece} (h : (writeConditions s connective cs).Yields () ps) :
    slots ps = treeOccurrences cs := by
  match cs with
  | [] =>
    rw [writeConditions] at h
    obtain ⟨-, rfl⟩ := Draft.yields_pure.1 h
    rw [treeOccurrences, slots_nil]
  | [c] =>
    rw [writeConditions] at h
    rw [c.slots_write h, treeOccurrences, treeOccurrences, List.append_nil]
  | c :: d :: rest =>
    rw [writeConditions] at h
    obtain ⟨before, hc, _, h₁, rfl⟩ := Draft.yields_bind_unit.1 h
    obtain ⟨behind, hrest, rfl⟩ := Draft.yields_write_bind.1 h₁
    rw [treeOccurrences, slots_append, c.slots_write hc]
    simp [slots_writeConditions (d :: rest) hrest]

end

theorem Filter.slots_write {s : Scope} {f : Filter} {ps : List Piece}
    (h : (f.write s).Yields () ps) : slots ps = f.occurrences := by
  rcases Filter.yields_write.1 h with ⟨hempty, rfl⟩ | ⟨-, tree, htree, rfl⟩
  · rw [Filter.occurrences, hempty, treeOccurrences, slots_nil]
  · rw [slots_text_cons, slots_writeConditions _ htree, Filter.occurrences]

/-! ## Selects and unions -/

/-- An output without a name of its own is a column, so that an order may repeat
    it without repeating a parameter. -/
def Output.RepeatsNothing (o : Output) : Prop := o.named = false → slots o.expression = []

theorem SelectColumn.slots_item {s : Scope} {naming : Naming} {names names' : Name.Allocator}
    {c : SelectColumn} {o : Output} (h : c.output s naming names = .ok (o, names')) :
    slots o.item = c.occurrences ∧ o.RepeatsNothing := by
  cases c with
  | column c outputName =>
    obtain ⟨_, _, _, hpieces, _⟩ := columnOutput_eq_ok h
    have none : slots o.expression = [] := slots_columnPieces hpieces
    refine ⟨?_, fun _ => none⟩
    rw [Output.item]
    split <;> simp [none, SelectColumn.occurrences]
  | expression f outputName type =>
    obtain ⟨-, hwrite, hnamed, -⟩ := expressionOutput_eq_ok h
    refine ⟨?_, fun unnamed => by rw [hnamed] at unnamed; cases unnamed⟩
    simp [Output.item, hnamed, Fragment.slots_write hwrite, SelectColumn.occurrences]

theorem slots_writeSelectList {s : Scope} {naming : Naming} {names : Name.Allocator}
    {cs : List SelectColumn} {outputs : List Output} {ps : List Piece}
    (h : (writeSelectList s naming names cs).Yields outputs ps) :
    slots ps = cs.flatMap SelectColumn.occurrences ∧ ∀ o ∈ outputs, o.RepeatsNothing := by
  induction cs generalizing names outputs ps with
  | nil =>
    obtain ⟨rfl, rfl⟩ := Draft.yields_pure.1 h
    simp
  | cons c rest ih =>
    obtain ⟨o, names', later, tail, houtput, hrest, rfl, rfl⟩ := yields_writeSelectList_cons h
    obtain ⟨hitem, ho⟩ := c.slots_item houtput
    obtain ⟨htail, hlater⟩ := ih hrest
    have comma : slots (if rest = [] then [] else [Piece.text ", "]) = [] := by split <;> rfl
    refine ⟨by simp [hitem, htail, comma], ?_⟩
    intro o' ho'
    rcases List.mem_cons.1 ho' with rfl | ho'
    · exact ho
    · exact hlater o' ho'

theorem slots_writeJoins {s : Scope} {index : Nat} {js : List Join} {ps : List Piece}
    (h : (writeJoins s index js).Yields () ps) : slots ps = [] := by
  induction js generalizing index ps with
  | nil =>
    obtain ⟨-, rfl⟩ := Draft.yields_pure.1 h
    rfl
  | cons j rest ih =>
    obtain ⟨before, hjoin, behind, hrest, rfl⟩ := Draft.yields_bind_unit.1 h
    obtain ⟨seat, key, base, -, hkey, hbase, rfl⟩ := Join.yields_write hjoin
    simp [slots_columnPieces hkey, slots_columnPieces hbase, ih hrest]

theorem Select.slots_writeTables {s : Select} {scope : Scope} {main : Table} {ps : List Piece}
    (h : (s.writeTables scope main).Yields () ps) : slots ps = [] := by
  obtain ⟨joins, hjoins, rfl⟩ := Select.yields_writeTables.1 h
  have label : slots (if scope.hasJoins then [.text " AS ", .name scope.main.label] else []) =
      [] := by
    split <;> rfl
  simp [slots_writeJoins hjoins, label]

theorem OrderTarget.slots_write {outputs : List Output} {scope : OrderScope}
    (plain : ∀ s, scope = .select s → ∀ o ∈ outputs, o.RepeatsNothing) {t : OrderTarget}
    {ps : List Piece} (h : (t.write outputs scope).Yields () ps) : slots ps = [] := by
  rcases OrderTarget.yields_write h with ⟨name, o, -, found, key⟩ | ⟨c, s, -, -, hcolumn⟩ |
    ⟨c, o, -, -, -, rfl⟩ | ⟨sql, -, rfl⟩
  · rcases key with ⟨-, rfl⟩ | ⟨unnamed, ⟨s, select⟩, rfl⟩
    · rfl
    · exact plain s select o (mem_of_findOutput? found) unnamed
  · exact slots_columnPieces hcolumn
  · rfl
  · rfl

theorem slots_writeOrder {outputs : List Output} {scope : OrderScope}
    (plain : ∀ s, scope = .select s → ∀ o ∈ outputs, o.RepeatsNothing) {keys : List OrderKey}
    {ps : List Piece} (h : (writeOrder outputs scope keys).Yields () ps) : slots ps = [] := by
  have each : ∀ k qs, (OrderKey.write outputs scope k).Yields () qs → slots qs = [] := by
    intro k qs hk
    obtain ⟨target, htarget, rfl⟩ := OrderKey.yields_write.1 hk
    rw [slots_append, OrderTarget.slots_write plain htarget]
    split <;> rfl
  rcases yields_writeOrder.1 h with ⟨-, rfl⟩ | ⟨-, pss, hkeys, rfl⟩
  · rfl
  · rw [slots_text_cons, slots_intercalate, flatMap_slots_of_forall₂ each hkeys]
    simp

theorem slots_writePage {paginated : Bool} {ps : List Piece}
    (h : (writePage paginated).Yields () ps) : slots ps = pageOccurrences paginated := by
  rw [yields_writePage.1 h]
  cases paginated <;> rfl

/-- Without columns of its own a select lists columns of its table, which have no
    parameters. -/
theorem Select.flatMap_occurrences_effectiveColumns (s : Select) (main : Table) :
    (s.effectiveColumns main).flatMap SelectColumn.occurrences =
      s.columns.flatMap SelectColumn.occurrences := by
  rw [Select.effectiveColumns]
  split
  · next none =>
    rw [List.isEmpty_iff.1 none]
    simp [SelectColumn.occurrences, List.flatMap_map]
  · rfl

theorem Select.slots_write {naming : Naming} {main : Table} {s : Select} {outputs : List Output}
    {ps : List Piece} (h : (s.write naming main).Yields outputs ps) :
    slots ps = s.occurrences := by
  obtain ⟨scope, list, tables, filter, order, page, -, -, hlist, htables, hfilter, horder, hpage,
    rfl⟩ := Select.yields_write h
  obtain ⟨hcolumns, plain⟩ := slots_writeSelectList hlist
  rw [s.flatMap_occurrences_effectiveColumns main] at hcolumns
  simp [hcolumns, Select.slots_writeTables htables, Filter.slots_write hfilter,
    slots_writeOrder (fun _ _ => plain) horder, slots_writePage hpage, Select.occurrences]

theorem UnionBranch.slots_write {naming : Naming} {b : UnionBranch} {outputs : List Output}
    {ps : List Piece} (h : (b.write naming).Yields outputs ps) :
    slots ps = b.select.occurrences := by
  obtain ⟨inner, hinner, rfl⟩ := UnionBranch.yields_write h
  simp [Select.slots_write hinner]

theorem slots_writeBranches {naming : Naming} {outputs outputs' : List Output} {number : Nat}
    {bs : List (UnionMode × UnionBranch)} {ps : List Piece}
    (h : (writeBranches naming outputs number bs).Yields outputs' ps) :
    slots ps = bs.flatMap (·.2.select.occurrences) := by
  induction bs generalizing outputs number ps with
  | nil =>
    obtain ⟨-, rfl⟩ := Draft.yields_pure.1 h
    rfl
  | cons mb rest ih =>
    obtain ⟨mode, b⟩ := mb
    obtain ⟨later, branch, tail, hbranch, -, htail, rfl⟩ := yields_writeBranches_cons h
    simp [UnionBranch.slots_write hbranch, ih htail]

theorem Union.slots_write {naming : Naming} {u : Union} {outputs : List Output}
    {ps : List Piece} (h : (u.write naming).Yields outputs ps) : slots ps = u.occurrences := by
  obtain ⟨first, later, head, branch, branches, order, page, hsplit, hbranch, hbranches, -, horder,
    hpage, rfl⟩ := Union.yields_write h
  obtain ⟨hall, -, -⟩ := Union.split_eq_ok hsplit
  have order_none : slots order = [] := slots_writeOrder (by intro _ h; cases h) horder
  simp [UnionBranch.slots_write hbranch, slots_writeBranches hbranches, order_none,
    slots_writePage hpage, Union.occurrences, hall, List.flatMap_map]

/-! ## Writes -/

theorem Target.slots_writeValue {s : Scope} {t : Target} {ps : List Piece}
    (h : (t.writeValue s).Yields () ps) : slots ps = t.value.occurrences := by
  rcases Target.yields_writeValue h with ⟨p, value, rfl⟩ | ⟨f, value, hf⟩ | ⟨v, value, -, rfl⟩
  · rw [value]
    rfl
  · rw [value, SetValue.occurrences]
    exact Fragment.slots_write hf
  · rw [value]
    rfl

theorem Target.slots_writeAssignment {s : Scope} {t : Target} {ps : List Piece}
    (h : (t.writeAssignment s).Yields () ps) : slots ps = t.value.occurrences := by
  obtain ⟨column, value, hcolumn, hvalue, rfl⟩ := Target.yields_writeAssignment h
  simp [slots_columnPieces hcolumn, Target.slots_writeValue hvalue]

/-- Columns that get their defaults add no parameter to those of the
    assignments. -/
theorem flatMap_occurrences_targets {table : Table} {as : List Assignment} {fill : Bool}
    {skip : Column → Bool} {ts : List Target} (h : targets table as fill skip = .ok ts) :
    ts.flatMap (·.value.occurrences) = assignmentOccurrences as := by
  obtain ⟨assigned, each, rfl, -⟩ := targets_eq_ok h
  have defaults : ∀ t ∈ (if fill then defaultTargets table assigned skip else []),
      t.value.occurrences = [] := by
    intro t ht
    cases fill with
    | false => cases ht
    | true =>
      obtain ⟨c, -, rfl⟩ := List.mem_map.1 ht
      rfl
  rw [List.flatMap_append, List.flatMap_eq_nil_iff.2 defaults, List.append_nil]
  clear defaults h
  induction each with
  | nil => rfl
  | cons ht _ ih =>
    rw [List.flatMap_cons, ih, ht.2, assignmentOccurrences, assignmentOccurrences,
      List.flatMap_cons]

theorem Insert.slots_write {table : Table} {i : Insert} {ts : List Target} {ps : List Piece}
    (h : (i.write table).Yields ts ps) : slots ps = assignmentOccurrences i.assignments := by
  obtain ⟨scope, names, values, -, htargets, hnames, hvalues, rfl⟩ := Insert.yields_write h
  have names_none : names.flatMap slots = ts.flatMap fun _ => [] :=
    flatMap_slots_of_forall₂ (by rintro t _ rfl; rfl) hnames
  have values_eq : values.flatMap slots = ts.flatMap (·.value.occurrences) :=
    flatMap_slots_of_forall₂ (fun t qs h => t.slots_writeValue h) hvalues
  simp [slots_intercalate, names_none, values_eq, flatMap_occurrences_targets htargets]

theorem Update.slots_write {table : Table} {u : Update} {ts : List Target} {ps : List Piece}
    (h : (u.write table).Yields ts ps) :
    slots ps = assignmentOccurrences u.assignments ++ u.filter.occurrences := by
  obtain ⟨scope, sets, filter, -, -, htargets, hsets, hfilter, rfl⟩ := Update.yields_write h
  have sets_eq : sets.flatMap slots = ts.flatMap (·.value.occurrences) :=
    flatMap_slots_of_forall₂ (fun t qs h => t.slots_writeAssignment h) hsets
  simp [slots_intercalate, sets_eq, flatMap_occurrences_targets htargets,
    Filter.slots_write hfilter]

theorem Delete.slots_write {table : Table} {d : Delete} {ps : List Piece}
    (h : (d.write table).Yields () ps) : slots ps = d.filter.occurrences := by
  obtain ⟨scope, filter, -, -, hfilter, rfl⟩ := Delete.yields_write h
  simp [Filter.slots_write hfilter]

/-! ## Actions -/

/-- The placeholders of a task stand for its parameters. -/
theorem Task.bindings_prepare {naming : Naming} {table : Table} {task : Task} {kind : ActionKind}
    {statement : Statement} {shape : Option Shape}
    (h : task.prepare naming table = .ok (kind, statement, shape)) :
    statement.bindings = task.occurrences := by
  have hwrite := Task.yields_of_prepare h
  cases task with
  | select s =>
    obtain ⟨outputs, hwrite⟩ := hwrite
    exact Select.slots_write hwrite
  | union u =>
    obtain ⟨outputs, hwrite⟩ := hwrite
    exact Union.slots_write hwrite
  | insert i =>
    obtain ⟨ts, hwrite⟩ := hwrite
    exact Insert.slots_write hwrite
  | update u =>
    obtain ⟨ts, hwrite⟩ := hwrite
    exact Update.slots_write hwrite
  | delete d => exact Delete.slots_write hwrite

/-- The placeholders of an action stand for its parameters, however often it is
    wrapped. -/
theorem Action.bindings_prepare {naming : Naming} {a : Action} {p : Prepared}
    (h : a.prepare naming = .ok p) : p.statement.bindings = a.occurrences := by
  induction a generalizing p with
  | perform name table task => exact Task.bindings_prepare (Action.prepare_perform_eq_ok h).1
  | wrap name table inner args ih =>
    obtain ⟨q, hinner, statement_eq, -⟩ := Action.prepare_wrap_eq_ok h
    rw [statement_eq, Action.occurrences]
    exact ih hinner

end Bindery
