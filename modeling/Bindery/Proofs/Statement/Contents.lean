import Bindery.Proofs.Scope
import Bindery.Proofs.Statement.Yields

/-!
# Contents of a definition

What a definition itself brings into the text of its statement: names of tables
and columns, names given to outputs, values, defaults, and SQL written by hand.
All else in the text is a word of SQL, a placeholder, or a name that the
compiler derives from the names of the definition.

* `Action.contents`: the contents of an action.
* `Piece.From`: the pieces that given contents account for.
* `Action.from_prepare`: the contents of an action account for its statement.
-/

namespace Bindery

/-! ## Reading them off a definition -/

/-- The names of a table and its columns, in the model and in the database. -/
def Table.names (t : Table) : List Piece :=
  [.name t.name, .name t.sqlName] ++ t.columns.flatMap fun c => [.name c.name, .name c.sqlName]

/-- The contents of a part of a fragment. -/
def FragmentPart.contents : FragmentPart → List Piece
  | .raw sql => [.raw sql]
  | .column _ | .param _ => []

/-- The contents of a fragment. -/
def Fragment.contents (f : Fragment) : List Piece := f.parts.flatMap FragmentPart.contents

/-- The contents of a side of a comparison. -/
def Operand.contents : Operand → List Piece
  | .literal v => [.value v]
  | .raw sql => [.raw sql]
  | .column _ | .param _ => []

mutual

/-- The contents of a condition. -/
def Condition.contents : Condition → List Piece
  | .compare left _ right => left.contents ++ right.toList.flatMap Operand.contents
  | .fragment f => f.contents
  | .group _ conditions => treeContents conditions

/-- The contents of conditions. -/
def treeContents : List Condition → List Piece
  | [] => []
  | c :: rest => c.contents ++ treeContents rest

end

/-- The contents of a `WHERE` clause. -/
def Filter.contents (f : Filter) : List Piece := treeContents f.conditions

/-- The contents of an entry of a select list. -/
def SelectColumn.contents : SelectColumn → List Piece
  | .column _ outputName => outputName.toList.map .name
  | .expression f outputName _ => .name outputName :: f.contents

/-- The contents of an order key. -/
def OrderKey.contents (k : OrderKey) : List Piece :=
  match k.target with
  | .raw sql => [.raw sql]
  | .output _ | .column _ => []

/-- The contents of a select on a table. -/
def Select.contents (main : Table) (s : Select) : List Piece :=
  main.names ++ s.columns.flatMap SelectColumn.contents ++ s.joins.flatMap (·.table.names) ++
    s.filter.contents ++ s.orderBy.flatMap OrderKey.contents

/-- The contents of a union. -/
def Union.contents (u : Union) : List Piece :=
  (u.branches.flatMap fun b => b.select.contents b.table) ++ u.orderBy.flatMap OrderKey.contents

/-- The contents of the value that a column is set to; a default is the one the column
    declares. -/
def SetValue.contents (c : Column) : SetValue → List Piece
  | .fragment f => f.contents
  | .param _ => []
  | .default => c.default.toList.map .fallback

/-- The contents of an assignment to a column of a table. -/
def Assignment.contents (table : Table) (a : Assignment) : List Piece :=
  (table.column? a.column).toList.flatMap a.value.contents

/-- The columns of a table that are neither assigned nor skipped. -/
def Table.unassigned (t : Table) (as : List Assignment) (skip : Column → Bool) : List Column :=
  t.columns.filter fun c => !skip c && decide (c.name ∉ as.map (·.column))

/-- The contents of assignments to columns of a table and, if these are filled in, of the
    defaults of the other columns. -/
def assignmentContents (table : Table) (as : List Assignment) (fill : Bool)
    (skip : Column → Bool) : List Piece :=
  table.names ++ as.flatMap (Assignment.contents table) ++
    if fill then (table.unassigned as skip).flatMap SetValue.default.contents else []

/-- The contents of a task on a table. -/
def Task.contents (table : Table) : Task → List Piece
  | .select s => s.contents table
  | .insert i => assignmentContents table i.assignments i.fillDefaults (·.type.autoIncrement)
  | .update u =>
    assignmentContents table u.assignments u.fillDefaults (·.type.primaryKey) ++ u.filter.contents
  | .delete d => table.names ++ d.filter.contents
  | .union u => u.contents

/-- The contents of an action; a wrapper brings nothing into the text. -/
def Action.contents : Action → List Piece
  | .perform _ table task => task.contents table
  | .wrap _ _ inner _ => inner.contents

/-! ## Pieces that contents account for -/

/-- The words and the punctuation of all statements. -/
def sqlWords : List String :=
  ["SELECT ", ", ", " FROM ", " AS ", " ", "INNER JOIN", "LEFT JOIN", " ON ", ".", " = ", "(", ")",
    " WHERE ", " AND ", " OR ", "=", "<>", "<", "<=", ">", ">=", "LIKE", "IS NULL", "IS NOT NULL",
    " ORDER BY ", " DESC", " LIMIT ", " OFFSET ", "UNION", "UNION ALL", "INSERT INTO ", " (",
    ") VALUES (", "UPDATE ", " SET ", "DELETE FROM "]

/-- Names among the contents, labels of tables, and what the compiler makes of
    such names. -/
inductive DerivedName (cs : List Piece) : String → Prop
  | given {s : String} (h : .name s ∈ cs) : DerivedName cs s
  | main : DerivedName cs mainLabel
  | join (number : Nat) : DerivedName cs (joinLabel number)
  | stem {s : String} (h : DerivedName cs s) : DerivedName cs (Name.stem s)
  | spelled (case : Name.Case) {s : String} (h : DerivedName cs s) : DerivedName cs (case.apply s)
  | joined {parts : List String} (h : ∀ s ∈ parts, DerivedName cs s) :
      DerivedName cs (String.intercalate "_" parts)
  | numbered {s : String} (k : Nat) (h : DerivedName cs s) : DerivedName cs (Name.numbered s k)

/-- Pieces that the contents `cs` account for. Null is the default of a column
    that declares none. -/
inductive Piece.From (cs : List Piece) : Piece → Prop
  | word {s : String} (h : s ∈ sqlWords) : Piece.From cs (.text s)
  | slot (b : Binding) : Piece.From cs (.slot b)
  | name {s : String} (h : DerivedName cs s) : Piece.From cs (.name s)
  | null : Piece.From cs (.fallback .null)
  | content {p : Piece} (h : p ∈ cs) : Piece.From cs p

variable {cs : List Piece}

theorem DerivedName.snake {s : String} (h : DerivedName cs s) : DerivedName cs (Name.snake s) :=
  .spelled .snake h

theorem mem_of_mem_intercalate {separator p : Piece} {pss : List (List Piece)}
    (h : p ∈ List.intercalate [separator] pss) : p = separator ∨ ∃ ps ∈ pss, p ∈ ps := by
  induction pss with
  | nil => cases h
  | cons ps rest ih =>
    cases rest with
    | nil => exact .inr ⟨ps, by simp, by simpa using h⟩
    | cons qs rest =>
      rw [List.intercalate_cons_cons, List.append_assoc, List.mem_append, List.singleton_append,
        List.mem_cons] at h
      rcases h with h | rfl | h
      · exact .inr ⟨ps, by simp, h⟩
      · exact .inl rfl
      · refine (ih h).imp_right ?_
        rintro ⟨ps', member, h'⟩
        exact ⟨ps', List.mem_cons_of_mem _ member, h'⟩

theorem from_intercalate {separator : String} (word : separator ∈ sqlWords)
    {pss : List (List Piece)} (each : ∀ ps ∈ pss, ∀ p ∈ ps, p.From cs) :
    ∀ p ∈ List.intercalate [.text separator] pss, p.From cs := by
  intro p hp
  rcases mem_of_mem_intercalate hp with rfl | ⟨ps, hps, member⟩
  · exact .word word
  · exact each ps hps p member

/-! ## Scopes -/

/-- The names of a table in scope are among the contents, and its label and path
    derive from such names. -/
structure Seat.From (cs : List Piece) (seat : Seat) : Prop where
  table : seat.table.names ⊆ cs
  label : DerivedName cs seat.label
  path : ∀ s ∈ seat.path, DerivedName cs s

/-- Every table in scope has its names among the contents. -/
def Scope.From (cs : List Piece) (s : Scope) : Prop := ∀ seat ∈ s.seats, seat.From cs

theorem Table.derived_name {t : Table} (within : t.names ⊆ cs) : DerivedName cs t.name :=
  .given (within (by simp [Table.names]))

theorem Table.derived_sqlName {t : Table} (within : t.names ⊆ cs) : DerivedName cs t.sqlName :=
  .given (within (by simp [Table.names]))

theorem Table.derived_column {t : Table} (within : t.names ⊆ cs) {c : Column}
    (h : c ∈ t.columns) : DerivedName cs c.name ∧ DerivedName cs c.sqlName := by
  have names : ∀ p ∈ [Piece.name c.name, .name c.sqlName], p ∈ t.names := by
    intro p hp
    exact List.mem_append_right _ (List.mem_flatMap.2 ⟨c, h, hp⟩)
  exact ⟨.given (within (names _ (by simp))), .given (within (names _ (by simp)))⟩

theorem Join.derived_pathName {j : Join} (table : j.table.names ⊆ cs)
    (base : DerivedName cs j.base.column) : DerivedName cs j.pathName := by
  rw [Join.pathName]
  split
  · exact (Table.derived_name table).snake
  · exact base.stem

theorem Scope.from_resolve {main : Table} {joins : List Join} {s : Scope}
    (hmain : main.names ⊆ cs) (hjoins : ∀ j ∈ joins, j.table.names ⊆ cs)
    (h : Scope.resolve main joins = .ok s) : s.From cs := by
  refine Scope.forall_seats_of_resolve ?_ ?_ ?_ h
  · exact ⟨hmain, Table.derived_sqlName hmain, by simp⟩
  · exact ⟨hmain, .main, by simp⟩
  · intro j hj parent base number hparent hbase
    obtain ⟨member, name_eq⟩ := Table.column_eq_ok hbase
    have base_derived : DerivedName cs j.base.column := by
      rw [← name_eq]
      exact (Table.derived_column hparent.table member).1
    refine ⟨hjoins j hj, .join number, ?_⟩
    intro s hs
    rcases List.mem_append.1 hs with hs | hs
    · exact hparent.path s hs
    · rw [List.mem_singleton.1 hs]
      exact Join.derived_pathName (hjoins j hj) base_derived

theorem Scope.from_columnPieces {s : Scope} (hs : s.From cs) {c : ColumnRef} {ps : List Piece}
    (h : s.columnPieces c = .ok ps) : ∀ p ∈ ps, p.From cs := by
  obtain ⟨seat, column, hseat, hcolumn, rfl⟩ := Scope.columnPieces_eq_ok_iff.1 h
  have seat_from := hs seat (Scope.seat_eq_ok hseat)
  have name := (Table.derived_column seat_from.table (Table.column_eq_ok hcolumn).1).2
  split
  · simp only [List.forall_mem_cons]
    exact ⟨.name seat_from.label, .word (by decide), .name name, by simp⟩
  · simp only [List.forall_mem_cons]
    exact ⟨.name name, by simp⟩

theorem Scope.derived_outputName {s : Scope} (hs : s.From cs) {naming : Naming} {c : ColumnRef}
    {name : String} (h : s.outputName naming c = .ok name) : DerivedName cs name := by
  obtain ⟨seat, hseat, h₁⟩ := bind_eq_ok_iff.1 h
  obtain ⟨column, hcolumn, h₂⟩ := bind_eq_ok_iff.1 h₁
  cases h₂
  have seat_from := hs seat (Scope.seat_eq_ok hseat)
  have main_from := hs s.main List.mem_cons_self
  refine .spelled _ (.joined ?_)
  intro part hpart
  simp only [List.mem_append, List.mem_singleton] at hpart
  rcases hpart with (hpart | hpart) | rfl
  · split at hpart
    · rw [List.mem_singleton.1 hpart]
      exact (Table.derived_name main_from.table).snake
    · cases hpart
  · exact seat_from.path part hpart
  · exact (Table.derived_column seat_from.table (Table.column_eq_ok hcolumn).1).1.snake

/-! ## Fragments and filters -/

variable {s : Scope}

theorem FragmentPart.from_write (hs : s.From cs) {part : FragmentPart}
    (within : part.contents ⊆ cs) {ps : List Piece} (h : (part.write s).Yields () ps) :
    ∀ p ∈ ps, p.From cs := by
  cases part with
  | raw sql =>
    rw [Draft.yields_write.1 h, List.forall_mem_singleton]
    exact .content (within (by simp [FragmentPart.contents]))
  | column c => exact Scope.from_columnPieces hs (Scope.yields_writeColumn.1 h)
  | param p =>
    rw [Param.yields_write.1 h, List.forall_mem_singleton]
    exact .slot _

theorem from_writeParts (hs : s.From cs) {parts : List FragmentPart}
    (within : parts.flatMap FragmentPart.contents ⊆ cs) {ps : List Piece}
    (h : (writeParts s parts).Yields () ps) : ∀ p ∈ ps, p.From cs := by
  induction parts generalizing ps with
  | nil =>
    obtain ⟨-, rfl⟩ := Draft.yields_pure.1 h
    simp
  | cons part rest ih =>
    obtain ⟨before, hpart, behind, hrest, rfl⟩ := Draft.yields_bind_unit.1 h
    rw [List.flatMap_cons, List.append_subset] at within
    rw [List.forall_mem_append]
    exact ⟨part.from_write hs within.1 hpart, ih within.2 hrest⟩

theorem Fragment.from_write (hs : s.From cs) {f : Fragment} (within : f.contents ⊆ cs)
    {ps : List Piece} (h : (f.write s).Yields () ps) : ∀ p ∈ ps, p.From cs :=
  from_writeParts hs within h

theorem Operand.from_write (hs : s.From cs) {x : Operand} (within : x.contents ⊆ cs)
    {ps : List Piece} (h : (x.write s).Yields () ps) : ∀ p ∈ ps, p.From cs := by
  cases x with
  | column c => exact Scope.from_columnPieces hs (Scope.yields_writeColumn.1 h)
  | param p =>
    rw [Param.yields_write.1 h, List.forall_mem_singleton]
    exact .slot _
  | literal v =>
    rw [Draft.yields_write.1 h, List.forall_mem_singleton]
    exact .content (within (by simp [Operand.contents]))
  | raw sql =>
    rw [Draft.yields_write.1 h, List.forall_mem_singleton]
    exact .content (within (by simp [Operand.contents]))

theorem from_writeRight (hs : s.From cs) {right : Option Operand}
    (within : right.toList.flatMap Operand.contents ⊆ cs) {ps : List Piece}
    (h : (writeRight s right).Yields () ps) : ∀ p ∈ ps, p.From cs := by
  cases right with
  | none =>
    obtain ⟨-, rfl⟩ := Draft.yields_pure.1 h
    simp
  | some x =>
    obtain ⟨behind, hx, rfl⟩ := Draft.yields_write_bind.1 h
    rw [List.singleton_append, List.forall_mem_cons]
    exact ⟨.word (by decide), x.from_write hs (by simpa using within) hx⟩

mutual

theorem Condition.from_write (hs : s.From cs) (c : Condition) (within : c.contents ⊆ cs)
    {ps : List Piece} (h : (c.write s).Yields () ps) : ∀ p ∈ ps, p.From cs := by
  match c with
  | .compare left op right =>
    rw [Condition.write] at h
    obtain ⟨before, hleft, _, h₁, rfl⟩ := Draft.yields_bind_unit.1 h
    obtain ⟨behind, hright, rfl⟩ := Draft.yields_write_bind.1 h₁
    rw [Condition.contents, List.append_subset] at within
    simp only [List.forall_mem_append, List.forall_mem_cons]
    refine ⟨left.from_write hs within.1 hleft, ⟨.word (by decide), .word ?_, by simp⟩,
      from_writeRight hs within.2 hright⟩
    cases op <;> decide
  | .fragment f =>
    rw [Condition.write] at h
    rw [Condition.contents] at within
    exact Fragment.from_write hs within h
  | .group connective conditions =>
    rw [Condition.write] at h
    obtain ⟨_, h₁, rfl⟩ := Draft.yields_write_bind.1 h
    obtain ⟨inner, hinner, _, hclose, rfl⟩ := Draft.yields_bind_unit.1 h₁
    rw [Draft.yields_write.1 hclose]
    rw [Condition.contents] at within
    simp only [List.forall_mem_append, List.forall_mem_singleton]
    exact ⟨.word (by decide), from_writeConditions hs conditions within hinner, .word (by decide)⟩

theorem from_writeConditions (hs : s.From cs) {connective : Connective}
    (conditions : List Condition) (within : treeContents conditions ⊆ cs) {ps : List Piece}
    (h : (writeConditions s connective conditions).Yields () ps) : ∀ p ∈ ps, p.From cs := by
  match conditions with
  | [] =>
    rw [writeConditions] at h
    obtain ⟨-, rfl⟩ := Draft.yields_pure.1 h
    simp
  | [c] =>
    rw [writeConditions] at h
    rw [treeContents, List.append_subset] at within
    exact c.from_write hs within.1 h
  | c :: d :: rest =>
    rw [writeConditions] at h
    obtain ⟨before, hc, _, h₁, rfl⟩ := Draft.yields_bind_unit.1 h
    obtain ⟨behind, hrest, rfl⟩ := Draft.yields_write_bind.1 h₁
    rw [treeContents, List.append_subset] at within
    simp only [List.forall_mem_append, List.forall_mem_singleton]
    refine ⟨c.from_write hs within.1 hc, .word ?_,
      from_writeConditions hs (d :: rest) within.2 hrest⟩
    cases connective <;> decide

end

theorem Filter.from_write (hs : s.From cs) {f : Filter} (within : f.contents ⊆ cs)
    {ps : List Piece} (h : (f.write s).Yields () ps) : ∀ p ∈ ps, p.From cs := by
  rcases Filter.yields_write.1 h with ⟨-, rfl⟩ | ⟨-, tree, htree, rfl⟩
  · simp
  · rw [List.forall_mem_cons]
    exact ⟨.word (by decide), from_writeConditions hs _ within htree⟩

/-! ## Selects and unions -/

/-- The name of an output derives from the contents, which account for what it
    shows. -/
structure Output.From (cs : List Piece) (o : Output) : Prop where
  name : DerivedName cs o.name
  expression : ∀ p ∈ o.expression, p.From cs

theorem derived_allocate {base : String} (h : DerivedName cs base) (names : Name.Allocator) :
    DerivedName cs (names.allocate base).1.1 := by
  rw [Name.Allocator.allocate]
  split
  · exact h.numbered _
  · exact h

theorem SelectColumn.from_output (hs : s.From cs) {naming : Naming} {names names' : Name.Allocator}
    {c : SelectColumn} {o : Output} (within : c.contents ⊆ cs)
    (h : c.output s naming names = .ok (o, names')) : o.From cs := by
  cases c with
  | column c outputName =>
    obtain ⟨column, base, -, hpieces, hbase, -, halloc, -⟩ := columnOutput_eq_ok h
    have base_derived : DerivedName cs base := by
      rcases hbase with rfl | ⟨-, hbase⟩
      · exact .given (within (by simp [SelectColumn.contents]))
      · exact Scope.derived_outputName hs hbase
    refine ⟨?_, Scope.from_columnPieces hs hpieces⟩
    have := derived_allocate base_derived names
    rwa [halloc] at this
  | expression f outputName type =>
    obtain ⟨-, hwrite, -, -, -, halloc⟩ := expressionOutput_eq_ok h
    rw [SelectColumn.contents, List.cons_subset] at within
    refine ⟨?_, Fragment.from_write hs within.2 hwrite⟩
    have := derived_allocate (.given within.1) names
    rwa [halloc] at this

theorem Output.from_item {o : Output} (h : o.From cs) : ∀ p ∈ o.item, p.From cs := by
  rw [Output.item]
  split
  · simp only [List.forall_mem_append, List.forall_mem_cons]
    exact ⟨h.expression, .word (by decide), .name h.name, by simp⟩
  · exact h.expression

theorem from_writeSelectList (hs : s.From cs) {naming : Naming} {names : Name.Allocator}
    {columns : List SelectColumn} (within : columns.flatMap SelectColumn.contents ⊆ cs)
    {outputs : List Output} {ps : List Piece}
    (h : (writeSelectList s naming names columns).Yields outputs ps) :
    (∀ o ∈ outputs, o.From cs) ∧ ∀ p ∈ ps, p.From cs := by
  induction columns generalizing names outputs ps with
  | nil =>
    obtain ⟨rfl, rfl⟩ := Draft.yields_pure.1 h
    simp
  | cons c rest ih =>
    obtain ⟨o, names', later, tail, houtput, hrest, rfl, rfl⟩ := yields_writeSelectList_cons h
    rw [List.flatMap_cons, List.append_subset] at within
    have ho := c.from_output hs within.1 houtput
    obtain ⟨hlater, htail⟩ := ih within.2 hrest
    have comma : ∀ p ∈ (if rest = [] then [] else [Piece.text ", "]), p.From cs := by
      split
      · simp
      · rw [List.forall_mem_singleton]
        exact .word (by decide)
    simp only [List.forall_mem_cons, List.forall_mem_append]
    exact ⟨⟨ho, hlater⟩, ⟨o.from_item ho, comma⟩, htail⟩

theorem from_writeJoins (hs : s.From cs) {joins : List Join}
    (within : ∀ j ∈ joins, j.table.names ⊆ cs) {index : Nat} {ps : List Piece}
    (h : (writeJoins s index joins).Yields () ps) : ∀ p ∈ ps, p.From cs := by
  induction joins generalizing index ps with
  | nil =>
    obtain ⟨-, rfl⟩ := Draft.yields_pure.1 h
    simp
  | cons j rest ih =>
    obtain ⟨before, hjoin, behind, hrest, rfl⟩ := Draft.yields_bind_unit.1 h
    obtain ⟨seat, key, base, hseat, hkey, hbase, rfl⟩ := Join.yields_write hjoin
    rw [List.forall_mem_cons] at within
    have kind : j.kind.sql ∈ sqlWords := by cases j.kind <;> decide
    have table := Table.derived_sqlName within.1
    have label := (hs seat (Scope.seat_eq_ok hseat)).label
    have key_from := Scope.from_columnPieces hs hkey
    have base_from := Scope.from_columnPieces hs hbase
    have rest_from := ih within.2 hrest
    simp only [List.forall_mem_append, List.forall_mem_cons, List.not_mem_nil, false_imp_iff,
      implies_true, and_true]
    refine ⟨⟨⟨⟨?_, key_from⟩, .word (by decide)⟩, base_from⟩, rest_from⟩
    exact ⟨.word (by decide), .word kind, .word (by decide), .name table, .word (by decide),
      .name label, .word (by decide)⟩

theorem Select.from_writeTables (hs : s.From cs) {main : Table} (hmain : main.names ⊆ cs)
    {select : Select} (within : ∀ j ∈ select.joins, j.table.names ⊆ cs) {ps : List Piece}
    (h : (select.writeTables s main).Yields () ps) : ∀ p ∈ ps, p.From cs := by
  obtain ⟨joins, hjoins, rfl⟩ := Select.yields_writeTables.1 h
  simp only [List.forall_mem_append, List.forall_mem_cons]
  refine ⟨⟨⟨.word (by decide), .name (Table.derived_sqlName hmain), by simp⟩, ?_⟩,
    from_writeJoins hs within hjoins⟩
  split
  · simp only [List.forall_mem_cons]
    exact ⟨.word (by decide), .name (hs s.main List.mem_cons_self).label, by simp⟩
  · simp

/-- What an order refers to besides outputs has its names among the contents. -/
def OrderScope.From (cs : List Piece) : OrderScope → Prop
  | .select s => s.From cs
  | .union => True

theorem OrderKey.from_write {outputs : List Output} (houtputs : ∀ o ∈ outputs, o.From cs)
    {scope : OrderScope} (hscope : scope.From cs) {k : OrderKey} (within : k.contents ⊆ cs)
    {ps : List Piece} (h : (k.write outputs scope).Yields () ps) : ∀ p ∈ ps, p.From cs := by
  obtain ⟨target, htarget, rfl⟩ := OrderKey.yields_write.1 h
  have descending : ∀ p ∈ (if k.descending then [Piece.text " DESC"] else []), p.From cs := by
    split
    · rw [List.forall_mem_singleton]
      exact .word (by decide)
    · simp
  refine List.forall_mem_append.2 ⟨?_, descending⟩
  rcases OrderTarget.yields_write htarget with ⟨name, o, -, found, key⟩ |
    ⟨c, s, -, rfl, hcolumn⟩ | ⟨c, o, -, -, found, rfl⟩ | ⟨sql, raw, rfl⟩
  · have ho := houtputs o (mem_of_findOutput? found)
    rcases key with ⟨-, rfl⟩ | ⟨-, -, rfl⟩
    · rw [List.forall_mem_singleton]
      exact .name ho.name
    · exact ho.expression
  · exact Scope.from_columnPieces hscope hcolumn
  · rw [List.forall_mem_singleton]
    exact .name (houtputs o (List.mem_of_find?_eq_some found)).name
  · rw [OrderKey.contents, raw] at within
    rw [List.forall_mem_singleton]
    exact .content (within (by simp))

theorem from_writeOrder {outputs : List Output} (houtputs : ∀ o ∈ outputs, o.From cs)
    {scope : OrderScope} (hscope : scope.From cs) {keys : List OrderKey}
    (within : keys.flatMap OrderKey.contents ⊆ cs) {ps : List Piece}
    (h : (writeOrder outputs scope keys).Yields () ps) : ∀ p ∈ ps, p.From cs := by
  rcases yields_writeOrder.1 h with ⟨-, rfl⟩ | ⟨-, pss, hkeys, rfl⟩
  · simp
  · have each : ∀ k ∈ keys, ∀ ps, (OrderKey.write outputs scope k).Yields () ps →
        ∀ p ∈ ps, p.From cs := by
      intro k hk ps hwrite
      refine k.from_write houtputs hscope ?_ hwrite
      intro p hp
      exact within (List.mem_flatMap.2 ⟨k, hk, hp⟩)
    rw [List.forall_mem_cons]
    exact ⟨.word (by decide), from_intercalate (by decide) (forall_of_forall₂ each hkeys)⟩

theorem from_writePage {paginated : Bool} {ps : List Piece}
    (h : (writePage paginated).Yields () ps) : ∀ p ∈ ps, p.From cs := by
  rw [yields_writePage.1 h]
  split
  · simp only [List.forall_mem_cons]
    exact ⟨.word (by decide), .slot _, .word (by decide), .slot _, by simp⟩
  · simp

theorem Select.flatMap_contents_effectiveColumns (select : Select) (main : Table) :
    (select.effectiveColumns main).flatMap SelectColumn.contents =
      select.columns.flatMap SelectColumn.contents := by
  rw [Select.effectiveColumns]
  split
  · next none =>
    rw [List.isEmpty_iff.1 none]
    simp [SelectColumn.contents, List.flatMap_map]
  · rfl

theorem Select.from_write {naming : Naming} {main : Table} {select : Select}
    (within : select.contents main ⊆ cs) {outputs : List Output} {ps : List Piece}
    (h : (select.write naming main).Yields outputs ps) :
    (∀ o ∈ outputs, o.From cs) ∧ ∀ p ∈ ps, p.From cs := by
  obtain ⟨scope, list, tables, filter, order, page, hscope, -, hlist, htables, hfilter, horder,
    hpage, rfl⟩ := Select.yields_write h
  simp only [Select.contents, List.append_subset] at within
  obtain ⟨⟨⟨⟨hmain, hcolumns⟩, hjoins⟩, hcontents⟩, hkeys⟩ := within
  have joins_within : ∀ j ∈ select.joins, j.table.names ⊆ cs := by
    intro j hj p hp
    exact hjoins (List.mem_flatMap.2 ⟨j, hj, hp⟩)
  have scope_from := Scope.from_resolve hmain joins_within hscope
  have order_scope_from : OrderScope.From cs (.select scope) := scope_from
  rw [← select.flatMap_contents_effectiveColumns main] at hcolumns
  obtain ⟨outputs_from, list_from⟩ := from_writeSelectList scope_from hcolumns hlist
  have tables_from := Select.from_writeTables scope_from hmain joins_within htables
  have filter_from := Filter.from_write scope_from hcontents hfilter
  have order_from := from_writeOrder outputs_from order_scope_from hkeys horder
  have page_from : ∀ p ∈ page, p.From cs := from_writePage hpage
  refine ⟨outputs_from, ?_⟩
  simp only [List.forall_mem_append, List.forall_mem_singleton]
  exact ⟨⟨⟨⟨⟨.word (by decide), list_from⟩, tables_from⟩, filter_from⟩, order_from⟩, page_from⟩

theorem UnionBranch.from_write {naming : Naming} {b : UnionBranch}
    (within : b.select.contents b.table ⊆ cs) {outputs : List Output} {ps : List Piece}
    (h : (b.write naming).Yields outputs ps) :
    (∀ o ∈ outputs, o.From cs) ∧ ∀ p ∈ ps, p.From cs := by
  obtain ⟨inner, hinner, rfl⟩ := UnionBranch.yields_write h
  obtain ⟨outputs_from, inner_from⟩ := Select.from_write within hinner
  refine ⟨outputs_from, ?_⟩
  simp only [List.forall_mem_append, List.forall_mem_singleton]
  exact ⟨⟨.word (by decide), inner_from⟩, .word (by decide)⟩

/-- A merged output keeps its name and what it shows. -/
theorem from_zipWith_merge {outputs later : List Output} (h : ∀ o ∈ outputs, o.From cs) :
    ∀ o ∈ List.zipWith Output.merge outputs later, o.From cs := by
  intro o ho
  obtain ⟨i, hi, rfl⟩ := List.mem_iff_getElem.1 ho
  rw [List.getElem_zipWith]
  have first := h _ (List.getElem_mem (by simp at hi; omega : i < outputs.length))
  exact ⟨first.name, first.expression⟩

theorem from_writeBranches {naming : Naming} {bs : List (UnionMode × UnionBranch)}
    (within : ∀ b ∈ bs, b.2.select.contents b.2.table ⊆ cs) {outputs outputs' : List Output}
    (houtputs : ∀ o ∈ outputs, o.From cs) {number : Nat} {ps : List Piece}
    (h : (writeBranches naming outputs number bs).Yields outputs' ps) :
    (∀ o ∈ outputs', o.From cs) ∧ ∀ p ∈ ps, p.From cs := by
  induction bs generalizing outputs number ps with
  | nil =>
    obtain ⟨rfl, rfl⟩ := Draft.yields_pure.1 h
    exact ⟨houtputs, by simp⟩
  | cons mb rest ih =>
    obtain ⟨mode, b⟩ := mb
    obtain ⟨later, branch, tail, hbranch, -, htail, rfl⟩ := yields_writeBranches_cons h
    rw [List.forall_mem_cons] at within
    obtain ⟨-, branch_from⟩ := UnionBranch.from_write within.1 hbranch
    obtain ⟨outputs_from, tail_from⟩ := ih within.2 (from_zipWith_merge houtputs) htail
    have mode_word : mode.sql ∈ sqlWords := by cases mode <;> decide
    refine ⟨outputs_from, ?_⟩
    simp only [List.forall_mem_append, List.forall_mem_cons]
    exact ⟨⟨⟨.word (by decide), .word mode_word, .word (by decide), by simp⟩, branch_from⟩,
      tail_from⟩

theorem Union.from_write {naming : Naming} {u : Union} (within : u.contents ⊆ cs)
    {outputs : List Output} {ps : List Piece} (h : (u.write naming).Yields outputs ps) :
    ∀ p ∈ ps, p.From cs := by
  obtain ⟨first, later, head, branch, branches, order, page, hsplit, hbranch, hbranches, -, horder,
    hpage, rfl⟩ := Union.yields_write h
  obtain ⟨all, -, -⟩ := Union.split_eq_ok hsplit
  rw [Union.contents, List.append_subset] at within
  have each : ∀ b ∈ u.branches, b.select.contents b.table ⊆ cs := by
    intro b hb p hp
    exact within.1 (List.mem_flatMap.2 ⟨b, hb, hp⟩)
  rw [all, List.forall_mem_cons, List.forall_mem_map] at each
  obtain ⟨head_from, branch_from⟩ := UnionBranch.from_write each.1 hbranch
  obtain ⟨outputs_from, branches_from⟩ := from_writeBranches each.2 head_from hbranches
  have order_scope_from : OrderScope.From cs .union := trivial
  have order_from := from_writeOrder outputs_from order_scope_from within.2 horder
  have page_from : ∀ p ∈ page, p.From cs := from_writePage hpage
  simp only [List.forall_mem_append]
  exact ⟨⟨⟨branch_from, branches_from⟩, order_from⟩, page_from⟩

/-! ## Writes -/

/-- A target is a column of the table, with a value whose contents are among the
    contents. -/
structure Target.From (cs : List Piece) (table : Table) (t : Target) : Prop where
  column : t.column ∈ table.columns
  value : t.value.contents t.column ⊆ cs

/-- The columns that get their defaults are those not assigned, by name. -/
theorem defaultTargets_eq {table : Table} {as : List Assignment} {assigned : List Target}
    (names : assigned.map (·.column.name) = as.map (·.column)) (skip : Column → Bool) :
    defaultTargets table assigned skip =
      (table.unassigned as skip).map (Target.mk · .default) := by
  unfold defaultTargets Table.unassigned
  rw [← names]
  congr 1
  refine List.filter_congr fun c _ => ?_
  congr 1
  rw [Bool.eq_iff_iff]
  simp

theorem from_targets {table : Table} {as : List Assignment} {fill : Bool} {skip : Column → Bool}
    (within : as.flatMap (Assignment.contents table) ⊆ cs)
    (filled : (if fill then (table.unassigned as skip).flatMap SetValue.default.contents else [])
      ⊆ cs)
    {ts : List Target} (h : targets table as fill skip = .ok ts) : ∀ t ∈ ts, t.From cs table := by
  obtain ⟨assigned, each, rfl, -⟩ := targets_eq_ok h
  rw [List.forall_mem_append]
  constructor
  · clear h filled
    induction each with
    | nil => simp
    | @cons a t _ _ ht _ ih =>
      rw [List.flatMap_cons, List.append_subset] at within
      rw [List.forall_mem_cons]
      refine ⟨⟨(Table.column_eq_ok ht.1).1, ?_⟩, ih within.2⟩
      have found := Table.column_eq_ok_iff_column?.1 ht.1
      have own := within.1
      rw [Assignment.contents, found, ← ht.2] at own
      simpa using own
  · cases fill with
    | false => simp
    | true =>
      have names : assigned.map (·.column.name) = as.map (·.column) := by
        clear h within filled
        induction each with
        | nil => rfl
        | cons ht _ ih => rw [List.map_cons, List.map_cons, ih, (Table.column_eq_ok ht.1).2]
      rw [if_pos rfl, defaultTargets_eq names]
      intro t ht
      obtain ⟨c, hc, rfl⟩ := List.mem_map.1 ht
      refine ⟨(List.mem_filter.1 hc).1, fun p hp => filled ?_⟩
      exact List.mem_flatMap.2 ⟨c, hc, hp⟩

/-- The default of a column is the one that it declares, or null. -/
theorem from_fallback {c : Column} (within : SetValue.default.contents c ⊆ cs)
    {value : DefaultValue} (h : c.fallback? = some value) : Piece.From cs (.fallback value) := by
  rw [Column.fallback?, Option.or_eq_some_iff] at h
  rcases h with declared | ⟨-, implied⟩
  · refine .content (within ?_)
    simp [SetValue.contents, declared]
  · split at implied
    · cases implied
      exact .null
    · cases implied

theorem Target.from_writeValue (hs : s.From cs) {table : Table} {t : Target}
    (ht : t.From cs table) {ps : List Piece} (h : (t.writeValue s).Yields () ps) :
    ∀ p ∈ ps, p.From cs := by
  have within := ht.value
  rcases Target.yields_writeValue h with ⟨p, -, rfl⟩ | ⟨f, value, hf⟩ | ⟨v, value, fallback, rfl⟩
  · rw [List.forall_mem_singleton]
    exact .slot _
  · rw [value] at within
    exact Fragment.from_write hs within hf
  · rw [List.forall_mem_singleton]
    rw [value] at within
    exact from_fallback within fallback

theorem Target.from_writeAssignment (hs : s.From cs) {table : Table} {t : Target}
    (ht : t.From cs table) {ps : List Piece} (h : (t.writeAssignment s).Yields () ps) :
    ∀ p ∈ ps, p.From cs := by
  obtain ⟨column, value, hcolumn, hvalue, rfl⟩ := Target.yields_writeAssignment h
  have column_from := Scope.from_columnPieces hs hcolumn
  have value_from := Target.from_writeValue hs ht hvalue
  simp only [List.forall_mem_append, List.forall_mem_singleton]
  exact ⟨⟨column_from, .word (by decide)⟩, value_from⟩

theorem Insert.from_write {table : Table} {i : Insert}
    (within : assignmentContents table i.assignments i.fillDefaults (·.type.autoIncrement) ⊆ cs)
    {ts : List Target} {ps : List Piece} (h : (i.write table).Yields ts ps) :
    ∀ p ∈ ps, p.From cs := by
  obtain ⟨scope, names, values, hscope, htargets, hnames, hvalues, rfl⟩ := Insert.yields_write h
  simp only [assignmentContents, List.append_subset] at within
  obtain ⟨⟨table_within, values_within⟩, defaults_within⟩ := within
  have scope_from := Scope.from_resolve table_within (by simp) hscope
  have targets_from := from_targets values_within defaults_within htargets
  have name_from : ∀ t ∈ ts, ∀ ps, ps = [Piece.name t.column.sqlName] → ∀ p ∈ ps, p.From cs := by
    rintro t ht _ rfl
    rw [List.forall_mem_singleton]
    exact .name (Table.derived_column table_within (targets_from t ht).column).2
  have value_from : ∀ t ∈ ts, ∀ ps, (t.writeValue scope).Yields () ps → ∀ p ∈ ps, p.From cs := by
    intro t ht ps hps
    exact t.from_writeValue scope_from (targets_from t ht) hps
  have table_name := Table.derived_sqlName table_within
  have names_from := from_intercalate (show ", " ∈ sqlWords by decide)
    (forall_of_forall₂ name_from hnames)
  have values_from := from_intercalate (show ", " ∈ sqlWords by decide)
    (forall_of_forall₂ value_from hvalues)
  simp only [List.forall_mem_append, List.forall_mem_cons, List.not_mem_nil, false_imp_iff,
    implies_true, and_true]
  exact ⟨⟨⟨⟨⟨.word (by decide), .name table_name, .word (by decide)⟩, names_from⟩,
    .word (by decide)⟩, values_from⟩, .word (by decide)⟩

theorem Update.from_write {table : Table} {u : Update}
    (within : assignmentContents table u.assignments u.fillDefaults (·.type.primaryKey) ++
      u.filter.contents ⊆ cs)
    {ts : List Target} {ps : List Piece} (h : (u.write table).Yields ts ps) :
    ∀ p ∈ ps, p.From cs := by
  obtain ⟨scope, sets, filter, -, hscope, htargets, hsets, hfilter, rfl⟩ := Update.yields_write h
  simp only [assignmentContents, List.append_subset] at within
  obtain ⟨⟨⟨table_within, values_within⟩, defaults_within⟩, filter_within⟩ := within
  have scope_from := Scope.from_resolve table_within (by simp) hscope
  have targets_from := from_targets values_within defaults_within htargets
  have set_from : ∀ t ∈ ts, ∀ ps, (t.writeAssignment scope).Yields () ps →
      ∀ p ∈ ps, p.From cs := by
    intro t ht ps hps
    exact t.from_writeAssignment scope_from (targets_from t ht) hps
  have table_name := Table.derived_sqlName table_within
  have sets_from := from_intercalate (show ", " ∈ sqlWords by decide)
    (forall_of_forall₂ set_from hsets)
  have filter_from := Filter.from_write scope_from filter_within hfilter
  simp only [List.forall_mem_append, List.forall_mem_cons, List.not_mem_nil, false_imp_iff,
    implies_true, and_true]
  exact ⟨⟨⟨.word (by decide), .name table_name, .word (by decide)⟩, sets_from⟩, filter_from⟩

theorem Delete.from_write {table : Table} {d : Delete}
    (within : table.names ++ d.filter.contents ⊆ cs) {ps : List Piece}
    (h : (d.write table).Yields () ps) : ∀ p ∈ ps, p.From cs := by
  obtain ⟨scope, filter, -, hscope, hfilter, rfl⟩ := Delete.yields_write h
  rw [List.append_subset] at within
  have scope_from := Scope.from_resolve within.1 (by simp) hscope
  simp only [List.forall_mem_append, List.forall_mem_cons]
  exact ⟨⟨.word (by decide), .name (Table.derived_sqlName within.1), by simp⟩,
    Filter.from_write scope_from within.2 hfilter⟩

/-! ## Actions -/

theorem Task.from_prepare {naming : Naming} {table : Table} {task : Task} {kind : ActionKind}
    {statement : Statement} {shape : Option Shape}
    (h : task.prepare naming table = .ok (kind, statement, shape)) :
    ∀ p ∈ statement.pieces, p.From (task.contents table) := by
  have hwrite := Task.yields_of_prepare h
  cases task with
  | select s =>
    obtain ⟨outputs, hwrite⟩ := hwrite
    exact (Select.from_write (List.Subset.refl _) hwrite).2
  | union u =>
    obtain ⟨outputs, hwrite⟩ := hwrite
    exact Union.from_write (List.Subset.refl _) hwrite
  | insert i =>
    obtain ⟨ts, hwrite⟩ := hwrite
    exact Insert.from_write (List.Subset.refl _) hwrite
  | update u =>
    obtain ⟨ts, hwrite⟩ := hwrite
    exact Update.from_write (List.Subset.refl _) hwrite
  | delete d => exact Delete.from_write (List.Subset.refl _) hwrite

/-- The contents of an action account for every piece of its statement. -/
theorem Action.from_prepare {naming : Naming} {a : Action} {p : Prepared}
    (h : a.prepare naming = .ok p) : ∀ q ∈ p.statement.pieces, q.From a.contents := by
  induction a generalizing p with
  | perform name table task => exact Task.from_prepare (Action.prepare_perform_eq_ok h).1
  | wrap name table inner args ih =>
    obtain ⟨q, hinner, statement_eq, -⟩ := Action.prepare_wrap_eq_ok h
    rw [statement_eq, Action.contents]
    exact ih hinner

end Bindery
