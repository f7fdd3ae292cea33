import Bindery.Proofs.Writer.Basic

/-!
# Writers of selects and unions

The writer of a select follows its draft, and so does that of a union: the outputs of
the one are those of the other, with what they select spelled for the dialect.

* `SqlWriter.follows_selectColumn`: an entry of a select list.
* `SqlWriter.follows_select`, `SqlWriter.follows_union`: the statements.
-/

namespace Bindery.SqlWriter

open Name (Allocator)

variable {d : Dialect}

/-! ## Lookups between texts -/

/-- Text that is written before a lookup is lost if the lookup fails, so the lookup may
    come first. -/
theorem push_lift_bind {α β : Type} (text : String) (r : Except Fault α) (k : α → SqlWriter β) :
    (push text >>= fun _ => (liftM r : SqlWriter α) >>= k) =
      (liftM r : SqlWriter α) >>= fun a => push text >>= fun _ => k a := by
  funext start
  cases r with
  | error fault => rfl
  | ok a => rfl

/-! ## Columns -/

/-- The item of an output as it is written. -/
theorem follows_item (o : Output) (plain : slots o.expression = []) :
    Follows d id (Draft.write o.item)
      (push (if o.named then d.asAlias (piecesSql d o.expression) o.name
        else piecesSql d o.expression)) := by
  have spelled : (if o.named then d.asAlias (piecesSql d o.expression) o.name
      else piecesSql d o.expression) = piecesSql d o.item := by
    unfold Output.item
    cases o.named with
    | false => rfl
    | true => simp [piecesSql, Piece.sql, Dialect.asAlias, String.append_assoc]
  rw [spelled]
  apply follows_push
  unfold Output.item
  split
  · rw [slots_append, plain]
    rfl
  · exact plain

/-- An output with what it selects spelled, and the names that are used behind it. -/
def spellOutput (d : Dialect) (r : Output × Allocator) : Output String × Allocator :=
  (r.1.spell d, r.2)

/-- An entry of a select list as a draft: its output is settled and then written. -/
def outputDraft (r : Except Fault (Output × Allocator)) : Draft (Output × Allocator) :=
  (liftM r : Draft (Output × Allocator)) >>= fun r => Draft.write r.1.item >>= fun _ => pure r

/-- An output that is settled is written with its name if it has one. -/
theorem follows_outputDraft (o : Output) (names : Allocator) (plain : slots o.expression = []) :
    Follows d (spellOutput d) (outputDraft (.ok (o, names)))
      (push (if o.named then d.asAlias (piecesSql d o.expression) o.name
        else piecesSql d o.expression) >>= fun _ => pure (spellOutput d (o, names))) := by
  show Follows d _ (Draft.write o.item >>= fun _ => pure (o, names)) _
  exact (follows_item o plain).bind fun _ => .pure (spellOutput d) (o, names)

/-- What is looked up for an output is looked up before its item is written. -/
theorem outputDraft_bind {α : Type} (r : Except Fault α)
    (k : α → Except Fault (Output × Allocator)) :
    outputDraft (r >>= k) = (liftM r : Draft α) >>= fun a => outputDraft (k a) := by
  cases r with
  | error fault => rfl
  | ok a => rfl

theorem columnOutput_eq (s : Scope) (naming : Naming) (names : Allocator) (c : ColumnRef)
    (outputName : Option String) :
    Bindery.columnOutput s naming names c outputName =
      s.column c >>= fun column => s.columnPieces c >>= fun expression =>
        baseName s naming c outputName >>= fun base => s.isOuter c >>= fun outer =>
          pure ({ name := (names.allocate base).1.1, expression
                  named := s.hasJoins || outputName.isSome || (names.allocate base).1.2 ||
                    (names.allocate base).1.1 != column.sqlName
                  source := some c, type := column.type.valueType, outer },
            (names.allocate base).2) := by
  cases outputName with
  | none => rfl
  | some name => rfl

theorem follows_columnOutput (s : Scope) (naming : Naming) (names : Allocator) (c : ColumnRef)
    (outputName : Option String) :
    Follows d (spellOutput d) (outputDraft (Bindery.columnOutput s naming names c outputName))
      (columnOutput d s naming names c outputName) := by
  unfold columnOutput
  simp only [columnOutput_eq, columnSql_eq_map, outputDraft_bind, push_lift_bind]
  refine (Follows.lookup (s.column c)).bind fun column => ?_
  refine (Follows.lift (piecesSql d) (s.columnPieces c)).bind_of_result fun ps found => ?_
  refine (Follows.lookup (baseName s naming c outputName)).bind fun base => ?_
  refine (Follows.lookup (s.isOuter c)).bind fun outer => ?_
  exact follows_outputDraft ⟨_, ps, _, _, _, outer⟩ _ (slots_columnPieces found)

/-- An expression is settled by a writer of its own and then appended. -/
theorem follows_expression (o : Output) (names : Allocator) (statement : Statement)
    (expression : o.expression = statement.pieces) (named : o.named = true) :
    Follows d (spellOutput d) (outputDraft (.ok (o, names)))
      (append (statement.written d) >>= fun _ => push " AS " >>= fun _ => quoted d o.name >>=
        fun _ => pure (spellOutput d (o, names))) := by
  show Follows d _ (Draft.write o.item >>= fun _ => pure (o, names)) _
  rw [Output.item, named, if_pos rfl, expression]
  show Follows d _ ((Draft.write statement.pieces >>= fun _ => Draft.write [.text " AS "] >>=
    fun _ => Draft.write [.name o.name]) >>= fun _ => pure (o, names)) _
  simp only [Draft.bind_assoc]
  refine (follows_append statement).bind fun _ => (follows_text " AS ").bind fun _ => ?_
  exact (follows_quoted o.name).bind fun _ => .pure (spellOutput d) (o, names)

theorem expressionOutput_eq (s : Scope) (names : Allocator) (f : Fragment) (outputName : String)
    (type : Option ColumnType) :
    Bindery.expressionOutput s names f outputName type =
      expressionType s outputName f.singleColumn? type >>= fun type =>
        singleOuter s f.singleColumn? >>= fun outer => (f.write s).settle >>= fun r =>
          pure ({ name := (names.allocate outputName).1.1, expression := r.2.pieces, named := true
                  source := f.singleColumn?, type, outer },
            (names.allocate outputName).2) := by
  unfold Bindery.expressionOutput
  cases f.singleColumn? with
  | none => rfl
  | some c => rfl

theorem follows_expressionOutput (s : Scope) (names : Allocator) (f : Fragment)
    (outputName : String) (type : Option ColumnType) :
    Follows d (spellOutput d) (outputDraft (Bindery.expressionOutput s names f outputName type))
      (expressionOutput d s names f outputName type) := by
  unfold expressionOutput
  rw [(follows_fragment s f).run]
  simp only [expressionOutput_eq, outputDraft_bind]
  refine (Follows.lookup (expressionType s outputName f.singleColumn? type)).bind fun type => ?_
  refine (Follows.lookup (singleOuter s f.singleColumn?)).bind fun outer => ?_
  refine (Follows.lift _ (f.write s).settle).bind fun r => ?_
  exact follows_expression ⟨_, r.2.pieces, true, _, _, _⟩ _ r.2 rfl rfl

theorem follows_selectColumn (s : Scope) (naming : Naming) (names : Allocator) (c : SelectColumn) :
    Follows d (spellOutput d) (outputDraft (c.output s naming names))
      (selectColumn d s naming names c) := by
  cases c with
  | column c outputName => exact follows_columnOutput s naming names c outputName
  | expression f outputName type => exact follows_expressionOutput s names f outputName type

/-- The comma behind an entry that is not the last. -/
theorem follows_comma (last : Bool) :
    Follows d id (if !last then Draft.write [.text ", "] else pure ())
      (if !last then push ", " else pure ()) := by
  cases last with
  | false => exact follows_text ", "
  | true => exact .pure id ()

theorem writeSelectList_cons (s : Scope) (naming : Naming) (names : Allocator) (c : SelectColumn)
    (rest : List SelectColumn) :
    writeSelectList s naming names (c :: rest) =
      outputDraft (c.output s naming names) >>= fun r =>
        (if !rest.isEmpty then Draft.write [.text ", "] else pure ()) >>= fun _ =>
          writeSelectList s naming r.2 rest >>= fun others => pure (r.1 :: others) := by
  rw [writeSelectList, outputDraft]
  simp only [Draft.bind_assoc, Draft.pure_bind]
  cases rest <;> rfl

theorem selectList_cons (s : Scope) (naming : Naming) (names : Allocator) (c : SelectColumn)
    (rest : List SelectColumn) :
    selectList d s naming names (c :: rest) =
      selectColumn d s naming names c >>= fun r =>
        (if !rest.isEmpty then push ", " else pure ()) >>= fun _ =>
          selectList d s naming r.2 rest >>= fun others => pure (r.1 :: others) := by
  rw [selectList]
  cases rest <;> rfl

theorem follows_selectList (s : Scope) (naming : Naming) (names : Allocator)
    (cs : List SelectColumn) :
    Follows d (List.map (Output.spell d)) (writeSelectList s naming names cs)
      (selectList d s naming names cs) := by
  induction cs generalizing names with
  | nil => exact .pure (List.map (Output.spell d)) []
  | cons c rest ih =>
    rw [writeSelectList_cons, selectList_cons]
    refine (follows_selectColumn s naming names c).bind fun r => ?_
    refine (follows_comma rest.isEmpty).bind fun _ => ?_
    exact (ih r.2).bind fun others => .pure (List.map (Output.spell d)) (r.1 :: others)

/-! ## Selects -/

theorem follows_join (s : Scope) (index : Nat) (j : Join) :
    Follows d id (j.write s index) (join d s index j) := by
  unfold Join.write join quoted
  simp only [push_lift_bind, Draft.write_cons, Draft.bind_assoc]
  refine (Follows.lookup (s.seat (.ofJoin index j.key))).bind fun seat => ?_
  refine (follows_text " ").bind fun _ => (follows_text j.kind.sql).bind fun _ => ?_
  refine (follows_text " ").bind fun _ => (follows_quoted j.table.sqlName).bind fun _ => ?_
  refine (follows_text " AS ").bind fun _ => (follows_quoted seat.label).bind fun _ => ?_
  refine (follows_text " ON ").bind fun _ => ?_
  refine (follows_column s (.ofJoin index j.key)).bind fun _ => ?_
  exact (follows_text " = ").bind fun _ => follows_column s j.base

theorem follows_joins (s : Scope) (index : Nat) (js : List Join) :
    Follows d id (writeJoins s index js) (joins d s index js) := by
  induction js generalizing index with
  | nil => exact .pure id ()
  | cons j rest ih => exact (follows_join s index j).bind fun _ => ih (index + 1)

/-- With joins the main table has the label that is written for it. -/
theorem label_of_resolve {main : Table} {js : List Join} {scope : Scope}
    (h : Scope.resolve main js = .ok scope) (joined : scope.hasJoins = true) :
    scope.main.label = mainLabel := by
  unfold Scope.resolve at h
  split at h
  · cases h
  · split at h
    · cases h
      cases joined
    · obtain ⟨seats, -, h₁⟩ := bind_eq_ok_iff.1 h
      dsimp only at h₁
      split at h₁
      · cases h₁
      · cases h₁
        rfl

theorem follows_tables {scope : Scope} {main : Table} {s : Select}
    (label : scope.hasJoins = true → scope.main.label = mainLabel) :
    Follows d id (s.writeTables scope main) (tables d scope main s.joins) := by
  unfold Select.writeTables tables
  simp only [Draft.write_cons, Draft.bind_assoc]
  refine (follows_text " FROM ").bind fun _ => (follows_quoted main.sqlName).bind fun _ => ?_
  cases joined : scope.hasJoins with
  | false => exact follows_joins scope 0 s.joins
  | true =>
    rw [label joined]
    refine (follows_text " AS ").bind fun _ => (follows_quoted mainLabel).bind fun _ => ?_
    exact follows_joins scope 0 s.joins

theorem follows_select (naming : Naming) (main : Table) (s : Select) :
    Follows d (List.map (Output.spell d)) (s.write naming main) (select d naming main s) := by
  refine (Follows.lookup (Scope.resolve main s.joins)).bind_of_result fun scope resolved => ?_
  refine (Follows.lookup (checkArity s.mode (s.effectiveColumns main).length)).bind fun _ => ?_
  refine (follows_text "SELECT ").bind fun _ => ?_
  refine (follows_selectList scope naming {} (s.effectiveColumns main)).bind_of_result
    fun outputs listed => ?_
  have plain : ∀ o ∈ outputs, o.RepeatsNothing := (slots_writeSelectList ⟨listed, rfl⟩).2
  refine (follows_tables (label_of_resolve resolved)).bind fun _ => ?_
  refine (follows_whereClause scope s.filter).bind fun _ => ?_
  refine (follows_orderBy (fun _ _ => plain) s.orderBy).bind fun _ => ?_
  cases s.paginated with
  | false => exact .pure _ outputs
  | true => exact (follows_paginate true).bind fun _ => .pure _ outputs

/-! ## Unions -/

theorem follows_branch (naming : Naming) (b : UnionBranch) :
    Follows d (List.map (Output.spell d)) (b.write naming) (branch d naming b) := by
  unfold UnionBranch.write branch
  rw [(follows_select naming b.table b.select).run]
  cases (b.select.write naming b.table).settle with
  | error fault => exact .fail _ fault
  | ok r =>
    show Follows d _ ((Draft.write [.text "("] >>= fun _ => Draft.write r.2.pieces >>=
      fun _ => Draft.write [.text ")"]) >>= fun _ => pure r.1)
      (push "(" >>= fun _ => append (r.2.written d) >>= fun _ => push ")" >>=
        fun _ => pure (r.1.map (Output.spell d)))
    simp only [Draft.bind_assoc]
    refine (follows_text "(").bind fun _ => (follows_append r.2).bind fun _ => ?_
    exact (follows_text ")").bind fun _ => .pure (List.map (Output.spell d)) r.1

theorem follows_branches (naming : Naming) (outputs : List Output) (number : Nat)
    (bs : List (UnionMode × UnionBranch)) :
    Follows d (List.map (Output.spell d)) (writeBranches naming outputs number bs)
      (branches d naming (outputs.map (Output.spell d)) number bs) := by
  induction bs generalizing outputs number with
  | nil => exact .pure (List.map (Output.spell d)) outputs
  | cons mb rest ih =>
    obtain ⟨mode, b⟩ := mb
    unfold writeBranches branches
    simp only [Draft.write_cons, Draft.bind_assoc]
    refine (follows_text " ").bind fun _ => (follows_text mode.sql).bind fun _ => ?_
    refine (follows_text " ").bind fun _ => (follows_branch naming b).bind fun later => ?_
    rw [List.length_map, List.length_map]
    split
    · exact .fail _ _
    · have merged : List.zipWith Output.merge (outputs.map (Output.spell d))
          (later.map (Output.spell d)) =
          (List.zipWith Output.merge outputs later).map (Output.spell d) := by
        rw [List.zipWith_map, List.map_zipWith]
        rfl
      rw [merged]
      exact ih _ (number + 1)

theorem follows_union (naming : Naming) (u : Union) :
    Follows d (List.map (Output.spell d)) (u.write naming) (union d naming u) := by
  unfold Union.write union
  refine (Follows.lookup u.split).bind fun branches => ?_
  refine (follows_branch naming branches.1).bind fun head => ?_
  refine (follows_branches naming head 2 branches.2).bind fun outputs => ?_
  rw [List.length_map]
  refine (Follows.lookup (checkArity u.mode outputs.length)).bind fun _ => ?_
  refine (follows_orderBy (fun _ h => by cases h) u.orderBy).bind fun _ => ?_
  cases u.paginated with
  | false => exact .pure _ outputs
  | true => exact (follows_paginate true).bind fun _ => .pure _ outputs

end Bindery.SqlWriter
