import Bindery.Proofs.Statement.Occurrences

/-!
# Writers and drafts

A writer is handed a dialect and extends text; a draft collects pieces and knows no
dialect. The writer follows the draft if its outcome is that of the draft, spelled
behind what was written before: the pieces are added to the text, their parameters to
the parameters, and the writing ends with the first parameter that conflicts, or else
with the fault of the draft. Whatever the dialect, it decides nothing but the text.

* `SqlWriter.Follows`: a writer follows a draft.
* `SqlWriter.Follows.bind`: writers that follow drafts do so one after the other.
* `SqlWriter.Follows.run`: a writer that starts with nothing settles its draft.
* `follows_whereClause`, `follows_orderBy`, `follows_paginate`: clauses.
-/

namespace Bindery

/-! ## Text and parameters of pieces -/

theorem piecesSql_append {d : Dialect} (ps qs : List Piece) :
    piecesSql d (ps ++ qs) = piecesSql d ps ++ piecesSql d qs := by
  simp [piecesSql]

theorem piecesSql_singleton {d : Dialect} (p : Piece) : piecesSql d [p] = p.sql d := by
  simp [piecesSql]

theorem piecesSql_intercalate {d : Dialect} (separator : String) (pss : List (List Piece)) :
    piecesSql d (List.intercalate [.text separator] pss) =
      String.intercalate separator (pss.map (piecesSql d)) := by
  induction pss with
  | nil => rfl
  | cons ps pss ih =>
    cases pss with
    | nil => simp [List.intercalate]
    | cons qs pss =>
      rw [List.map_cons, List.map_cons, String.intercalate_cons_cons, ← List.map_cons, ← ih]
      simp [List.intercalate, piecesSql, Piece.sql, String.append_assoc]

theorem conflictFrom?_append (earlier bs cs : List Binding) :
    conflictFrom? earlier (bs ++ cs) =
      (conflictFrom? earlier bs).or (conflictFrom? (earlier ++ bs) cs) := by
  induction bs generalizing earlier with
  | nil => simp [conflictFrom?]
  | cons b rest ih =>
    rw [List.cons_append, conflictFrom?, conflictFrom?]
    split
    · rfl
    · rw [ih, List.append_assoc]
      rfl

/-- What is written once pieces are spelled behind it. -/
def Written.extend (d : Dialect) (w : Written) (ps : List Piece) : Written :=
  ⟨w.sql ++ piecesSql d ps, w.params ++ slots ps⟩

theorem Written.extend_nil (d : Dialect) (w : Written) : w.extend d [] = w := by
  simp [extend, piecesSql]

theorem Written.extend_append (d : Dialect) (w : Written) (ps qs : List Piece) :
    w.extend d (ps ++ qs) = (w.extend d ps).extend d qs := by
  simp [extend, piecesSql_append, String.append_assoc]

/-- A statement as it is written in a dialect. -/
def Statement.written (d : Dialect) (s : Statement) : Written := ⟨s.sql d, s.bindings⟩

theorem Written.extend_empty (d : Dialect) (ps : List Piece) :
    Written.extend d {} ps = (Statement.mk ps).written d := by
  simp [extend, Statement.written, Statement.sql, Statement.bindings, slots]

namespace Draft

variable {α β γ : Type}

theorem pure_bind (a : α) (f : α → Draft β) : pure a >>= f = f a := by
  rw [bind_of_ok rfl]
  simp

theorem bind_assoc (x : Draft α) (f : α → Draft β) (g : β → Draft γ) :
    x >>= f >>= g = x >>= fun a => f a >>= g := by
  cases h : x.result with
  | error fault => rw [bind_of_error h, bind_of_error h, bind_of_error rfl]
  | ok a =>
    rw [bind_of_ok h, bind_of_ok h]
    cases h' : (f a).result with
    | error fault => rw [bind_of_error h', bind_of_error rfl]
    | ok b => rw [bind_of_ok h', bind_of_ok rfl, List.append_assoc]

/-- Several pieces are written one after the other. -/
theorem write_cons (p q : Piece) (ps : List Piece) :
    write (p :: q :: ps) = write [p] >>= fun _ => write (q :: ps) := rfl

end Draft

namespace SqlWriter

/-! ## Writers that follow drafts -/

/-- The outcome of the writer is that of the draft, spelled behind what was written
    before. The results of the draft are translated by `f`. -/
def Follows {α β : Type} (d : Dialect) (f : α → β) (x : Draft α) (w : SqlWriter β) : Prop :=
  ∀ start : Written, w.run start =
    match conflictFrom? start.params (slots x.pieces) with
    | some name => .error (.conflictingParam name)
    | none => x.result.map fun a => (f a, start.extend d x.pieces)

variable {α β γ δ : Type} {d : Dialect}

namespace Follows

theorem pure (f : α → β) (a : α) : Follows d f (Pure.pure a) (Pure.pure (f a)) := by
  intro start
  show Except.ok (f a, start) = Except.ok (f a, start.extend d [])
  rw [Written.extend_nil]

/-- What is settled without writing has the same result or the same fault. -/
theorem lift (f : α → β) (r : Except Fault α) :
    Follows d f (liftM r) (liftM (r.map f) : SqlWriter β) := by
  intro start
  cases r with
  | error fault => rfl
  | ok a => exact pure f a start

theorem lookup (r : Except Fault α) : Follows d id (liftM r) (liftM r : SqlWriter α) := by
  intro start
  cases r with
  | error fault => rfl
  | ok a => exact pure id a start

theorem fail (f : α → β) (fault : Fault) : Follows d f (Draft.fail fault) (throw fault) :=
  lift f (.error fault)

/-- Writers that follow drafts do so one after the other; the second knows what the
    first gave. -/
theorem bind_of_result {f : α → β} {g : γ → δ} {x : Draft α} {w : SqlWriter β} {k : α → Draft γ}
    {v : β → SqlWriter δ} (first : Follows d f x w)
    (next : ∀ a, x.result = .ok a → Follows d g (k a) (v (f a))) :
    Follows d g (x >>= k) (w >>= v) := by
  intro start
  rw [StateT.run_bind, first start]
  cases result : x.result with
  | error fault =>
    rw [Draft.bind_of_error result]
    cases conflictFrom? start.params (slots x.pieces) <;> rfl
  | ok a =>
    rw [Draft.bind_of_ok result]
    dsimp only
    rw [slots_append, conflictFrom?_append]
    cases conflictFrom? start.params (slots x.pieces) with
    | some name => rfl
    | none =>
      show (v (f a)).run (start.extend d x.pieces) = _
      rw [next a result, Written.extend_append]
      rfl

theorem bind {f : α → β} {g : γ → δ} {x : Draft α} {w : SqlWriter β} {k : α → Draft γ}
    {v : β → SqlWriter δ} (first : Follows d f x w) (next : ∀ a, Follows d g (k a) (v (f a))) :
    Follows d g (x >>= k) (w >>= v) :=
  first.bind_of_result fun a _ => next a

/-- A writer that starts with nothing settles its draft. -/
theorem run {f : α → β} {x : Draft α} {w : SqlWriter β} (h : Follows d f x w) :
    w.run {} = x.settle.map fun (a, s) => (f a, s.written d) := by
  rw [h {}, Draft.settle]
  show (match conflict? (slots x.pieces) with | some name => _ | none => _) = _
  cases conflicting : conflict? (slots x.pieces) with
  | some name =>
    have conflict : conflict? (Statement.mk x.pieces).bindings = some name := conflicting
    rw [conflict]
    rfl
  | none =>
    have agree : conflict? (Statement.mk x.pieces).bindings = none := conflicting
    rw [agree]
    cases x.result with
    | error fault => rfl
    | ok a => exact congrArg (fun w => Except.ok (f a, w)) (Written.extend_empty d x.pieces)

end Follows

/-! ## Text and parameters -/

/-- Pieces without placeholders are pushed as text. -/
theorem follows_push {ps : List Piece} (plain : slots ps = []) :
    Follows d id (Draft.write ps) (push (piecesSql d ps)) := by
  intro start
  show _ = match conflictFrom? start.params (slots ps) with
    | some name => Except.error (Fault.conflictingParam name)
    | none => .ok ((), start.extend d ps)
  rw [Written.extend, plain, List.append_nil]
  rfl

theorem follows_piece (p : Piece) (plain : slots [p] = []) :
    Follows d id (Draft.write [p]) (push (p.sql d)) := by
  rw [← piecesSql_singleton]
  exact follows_push plain

theorem follows_text (s : String) : Follows d id (Draft.write [.text s]) (push s) :=
  follows_piece (.text s) rfl

theorem follows_raw (s : String) : Follows d id (Draft.write [.raw s]) (push s) :=
  follows_piece (.raw s) rfl

theorem follows_value (v : Value) : Follows d id (Draft.write [.value v]) (push v.literal) :=
  follows_piece (.value v) rfl

theorem follows_quoted (s : String) : Follows d id (Draft.write [.name s]) (quoted d s) :=
  follows_piece (.name s) rfl

/-- A parameter is recorded if it agrees with those before. -/
theorem run_record (b : Binding) (start : Written) :
    (record b).run start =
      match conflictFrom? start.params [b] with
      | some name => .error (.conflictingParam name)
      | none => .ok ((), { start with params := start.params ++ [b] }) := by
  rw [conflictFrom?]
  show (if b.conflicts start.params then _ else _) = _
  split
  · rfl
  · rfl

theorem follows_param (p : Param) (origin : Origin) :
    Follows d id (p.write origin) (param d p origin) := by
  intro start
  show (record (p.bind origin) >>= fun _ => push d.placeholder).run start = _
  rw [StateT.run_bind, run_record]
  show _ = match conflictFrom? start.params [p.bind origin] with
    | some name => Except.error (Fault.conflictingParam name)
    | none => .ok ((), start.extend d [.slot (p.bind origin)])
  rw [Written.extend, piecesSql_singleton]
  cases conflictFrom? start.params [p.bind origin] <;> rfl

/-- Several parameters are recorded if they agree with those before and among each
    other. -/
theorem run_forM_record (bs : List Binding) (start : Written) :
    (bs.forM record).run start =
      match conflictFrom? start.params bs with
      | some name => .error (.conflictingParam name)
      | none => .ok ((), { start with params := start.params ++ bs }) := by
  induction bs generalizing start with
  | nil =>
    rw [List.append_nil]
    rfl
  | cons b rest ih =>
    have cut : conflictFrom? start.params (b :: rest) =
        (conflictFrom? start.params [b]).or (conflictFrom? (start.params ++ [b]) rest) :=
      conflictFrom?_append start.params [b] rest
    show (record b >>= fun _ => rest.forM record).run start = _
    rw [StateT.run_bind, run_record, cut]
    cases conflictFrom? start.params [b] with
    | some name => rfl
    | none =>
      show (rest.forM record).run { start with params := start.params ++ [b] } = _
      rw [ih, List.append_assoc]
      rfl

/-- What another writer wrote is appended like the pieces that it followed. -/
theorem follows_append (s : Statement) :
    Follows d id (Draft.write s.pieces) (append (s.written d)) := by
  intro start
  show (push (s.sql d) >>= fun _ => s.bindings.forM record).run start = _
  rw [StateT.run_bind]
  show (s.bindings.forM record).run { start with sql := start.sql ++ s.sql d } = _
  rw [run_forM_record]
  rfl

/-- Writers that follow drafts do so with a separator between every two. -/
theorem follows_separated {separator : String} {xs : List (Draft Unit)} {ws : List (SqlWriter Unit)}
    (each : List.Forall₂ (Follows d id) xs ws) :
    Follows d id (Draft.separated separator xs) (separated separator ws) := by
  induction each with
  | nil => exact .pure id ()
  | cons first rest ih =>
    cases rest with
    | nil => exact first
    | cons second later => exact first.bind fun _ => (follows_text separator).bind fun _ => ih

theorem follows_separated_map {separator : String} {xs : List α} {f : α → Draft Unit}
    {g : α → SqlWriter Unit} (each : ∀ x ∈ xs, Follows d id (f x) (g x)) :
    Follows d id (Draft.separated separator (xs.map f)) (separated separator (xs.map g)) := by
  apply follows_separated
  rw [List.forall₂_map_left_iff, List.forall₂_map_right_iff, List.forall₂_same]
  exact each

/-! ## Columns and conditions -/

/-- The SQL of a column is that of its pieces. -/
theorem columnSql_eq_map (s : Scope) (c : ColumnRef) :
    s.columnSql d c = (s.columnPieces c).map (piecesSql d) := by
  unfold Scope.columnSql Scope.columnPieces Scope.column
  cases s.seat c with
  | error fault => rfl
  | ok seat =>
    simp only [bind, Except.bind]
    cases seat.table.column c.column with
    | error fault => rfl
    | ok column =>
      cases s.hasJoins with
      | false => exact congrArg Except.ok (piecesSql_singleton (.name column.sqlName)).symm
      | true => simp [Except.map, pure, Except.pure, piecesSql, Piece.sql, String.append_assoc]

theorem follows_column (s : Scope) (c : ColumnRef) :
    Follows d id (s.writeColumn c) (column d s c) := by
  unfold Scope.writeColumn column
  rw [columnSql_eq_map]
  exact (Follows.lift (piecesSql d) (s.columnPieces c)).bind_of_result fun ps found =>
    follows_push (slots_columnPieces found)

theorem follows_part (s : Scope) (part : FragmentPart) :
    Follows d id (part.write s) (SqlWriter.part d s part) := by
  cases part with
  | raw sql => exact follows_raw sql
  | column c => exact follows_column s c
  | param p => exact follows_param p .condition

theorem follows_fragment (s : Scope) (f : Fragment) :
    Follows d id (f.write s) (fragment d s f) := by
  obtain ⟨parts⟩ := f
  show Follows d id (writeParts s parts) (parts.forM (part d s))
  induction parts with
  | nil => exact .pure id ()
  | cons part rest ih => exact (follows_part s part).bind fun _ => ih

theorem follows_operand (s : Scope) (x : Operand) : Follows d id (x.write s) (operand d s x) := by
  cases x with
  | column c => exact follows_column s c
  | param p => exact follows_param p .condition
  | literal v => exact follows_value v
  | raw sql => exact follows_raw sql

theorem follows_rightSide (s : Scope) (right : Option Operand) :
    Follows d id (writeRight s right) (rightSide d s right) := by
  cases right with
  | none => exact .pure id ()
  | some x => exact (follows_text " ").bind fun _ => follows_operand s x

mutual

/-- By recursion on the tree of conditions. -/
theorem follows_condition (s : Scope) (c : Condition) :
    Follows d id (c.write s) (condition d s c) := by
  cases c with
  | compare left op right =>
    rw [Condition.write, condition, Draft.write_cons, Draft.bind_assoc]
    refine (follows_operand s left).bind fun _ => (follows_text " ").bind fun _ => ?_
    exact (follows_text op.sql).bind fun _ => follows_rightSide s right
  | fragment f =>
    rw [Condition.write, condition]
    exact follows_fragment s f
  | group connective cs =>
    rw [Condition.write, condition]
    refine (follows_text "(").bind fun _ => ?_
    exact (follows_conditions s connective cs).bind fun _ => follows_text ")"

theorem follows_conditions (s : Scope) (connective : Connective) (cs : List Condition) :
    Follows d id (writeConditions s connective cs) (conditions d s connective cs) := by
  cases cs with
  | nil =>
    rw [writeConditions, conditions]
    exact .pure id ()
  | cons c rest =>
    cases rest with
    | nil =>
      rw [writeConditions, conditions]
      exact follows_condition s c
    | cons next later =>
      rw [writeConditions, conditions]
      refine (follows_condition s c).bind fun _ => (follows_text connective.sql).bind fun _ => ?_
      exact follows_conditions s connective (next :: later)

end

theorem follows_whereClause (s : Scope) (f : Filter) :
    Follows d id (f.write s) (whereClause d s f) := by
  unfold Filter.write whereClause
  split
  · exact .pure id ()
  · exact (follows_text " WHERE ").bind fun _ => follows_conditions s f.connective f.conditions

end SqlWriter

/-! ## Orders and pages -/

/-- An output with what it selects spelled for a dialect. -/
def Output.spell (d : Dialect) (o : Output) : Output String :=
  ⟨o.name, piecesSql d o.expression, o.named, o.source, o.type, o.outer⟩

theorem findOutput?_spell (d : Dialect) (outputs : List Output) (name : String) :
    findOutput? (outputs.map (Output.spell d)) name =
      (findOutput? outputs name).map (Output.spell d) := by
  unfold findOutput?
  rw [List.map_map]
  show ((Name.index? (outputs.map (·.name)) name).bind fun i => _) = _
  simp only [Option.map_bind, List.getElem?_map]
  rfl

theorem ofOutputs_spell (d : Dialect) (outputs : List Output) :
    Shape.ofOutputs (outputs.map (Output.spell d)) = .ofOutputs outputs := by
  unfold Shape.ofOutputs
  rw [List.map_map]
  rfl

namespace SqlWriter

variable {d : Dialect}

theorem follows_outputKey {o : Output} {scope : OrderScope}
    (plain : ∀ s, scope = .select s → o.RepeatsNothing) :
    Follows d id (o.writeKey scope) (outputKey d (o.spell d) scope) := by
  cases scope with
  | union => exact follows_quoted o.name
  | select s =>
    unfold Output.writeKey outputKey
    show Follows d id _ (if o.named then quoted d o.name else push (piecesSql d o.expression))
    cases named : o.named with
    | true => exact follows_quoted o.name
    | false => exact follows_push (plain s rfl named)

theorem follows_orderTarget {outputs : List Output} {scope : OrderScope}
    (plain : ∀ s, scope = .select s → ∀ o ∈ outputs, o.RepeatsNothing) (t : OrderTarget) :
    Follows d id (t.write outputs scope)
      (orderTarget d (outputs.map (Output.spell d)) scope t) := by
  cases t with
  | output name =>
    rw [OrderTarget.write, orderTarget, findOutput?_spell]
    cases found : findOutput? outputs name with
    | none => exact .fail id _
    | some o =>
      exact follows_outputKey fun s select => plain s select o (mem_of_findOutput? found)
  | column c =>
    cases scope with
    | select s => exact follows_column s c
    | union =>
      have spelled : (outputs.map (Output.spell d)).find? (·.source == some c) =
          (outputs.find? (·.source == some c)).map (Output.spell d) :=
        List.find?_map
      simp only [OrderTarget.write, orderTarget, spelled]
      cases outputs.find? (·.source == some c) with
      | none => exact .fail id _
      | some o => exact follows_quoted o.name
  | raw sql => exact follows_raw sql

theorem follows_orderKey {outputs : List Output} {scope : OrderScope}
    (plain : ∀ s, scope = .select s → ∀ o ∈ outputs, o.RepeatsNothing) (k : OrderKey) :
    Follows d id (k.write outputs scope) (orderKey d (outputs.map (Output.spell d)) scope k) := by
  unfold OrderKey.write orderKey
  refine (follows_orderTarget plain k.target).bind fun _ => ?_
  cases k.descending with
  | false => exact .pure id ()
  | true => exact follows_text " DESC"

theorem follows_orderBy {outputs : List Output} {scope : OrderScope}
    (plain : ∀ s, scope = .select s → ∀ o ∈ outputs, o.RepeatsNothing) (keys : List OrderKey) :
    Follows d id (writeOrder outputs scope keys)
      (orderBy d (outputs.map (Output.spell d)) scope keys) := by
  cases keys with
  | nil => exact .pure id ()
  | cons k rest =>
    refine (follows_text " ORDER BY ").bind fun _ => ?_
    exact follows_separated_map fun k _ => follows_orderKey plain k

theorem follows_paginate (paginated : Bool) :
    Follows d id (writePage paginated) (if paginated then paginate d else pure ()) := by
  cases paginated with
  | false => exact .pure id ()
  | true =>
    show Follows d id (Draft.write [.text " LIMIT ", .slot (limitParam.bind .pagination),
      .text " OFFSET ", .slot (offsetParam.bind .pagination)]) (paginate d)
    rw [Draft.write_cons, Draft.write_cons, Draft.write_cons]
    refine (follows_text " LIMIT ").bind fun _ => ?_
    refine (follows_param limitParam .pagination).bind fun _ => ?_
    exact (follows_text " OFFSET ").bind fun _ => follows_param offsetParam .pagination

end SqlWriter

end Bindery
