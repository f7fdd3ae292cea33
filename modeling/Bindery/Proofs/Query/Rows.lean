import Bindery.Access.Row
import Bindery.Proofs.Query.Reading
import Bindery.Proofs.Statement.Spacing
import Mathlib

/-!
# Rows of a query

What a query returns, on any contents of the tables: joins form a chain from the
left, a left join that matches nothing goes on with nulls for its table, an
equality with a null matches nothing, and a union keeps the rows of its branches.
What else a database does is left open: when values are equal, and which rows a
filter, an order or a page chooses.

If columns that are declared not to be null hold no null, a row has a null only
where the shape of the action says that it may.

* `Query.rows`: the rows of a query.
* `Seat.Filled`: a table that no row misses is filled by a tuple it stores.
* `Action.nullable_of_null`: nulls stand in nullable fields only.
-/

namespace Bindery

/-! ## Contents of tables -/

/-- A stored tuple: the value of each column by its name in the database. -/
abbrev Tuple := String → Value

/-- The tuples of each table by its name in the database. -/
abbrev Store := String → List Tuple

/-- Tuples that joins bring together, each under the label of its table. -/
abbrev Joined := List (String × Tuple)

/-- The tuple of a table that a row misses. -/
def Tuple.missing : Tuple := fun _ => .null

/-- What a database decides besides the meaning of joins and unions. -/
structure Engine where
  /-- Whether two values, neither of them null, are equal. -/
  equal : Value → Value → Bool
  /-- The value of an expression. -/
  evaluate : List Piece → Joined → Value
  /-- What the filter, the order and the page of a select choose. -/
  restrict : List Piece → List Joined → List Joined
  restrict_subset : ∀ ps all, restrict ps all ⊆ all
  /-- Whether two rows are merged by a union. -/
  alike : Row → Row → Bool
  /-- What the order and the page of a union choose. -/
  arrange : List Piece → List Row → List Row
  arrange_subset : ∀ ps rows, arrange ps rows ⊆ rows

/-! ## Evaluation -/

section Evaluation

variable (engine : Engine) (store : Store)

/-- Whether two values match; a null matches nothing. -/
def Engine.matches (a b : Value) : Bool := a != .null && b != .null && engine.equal a b

/-- The value of a column behind a label. -/
def Place.value (p : Place) (joined : Joined) : Value :=
  ((joined.lookup p.label).map (· p.column)).getD .null

/-- The value of an entry of a select list. -/
def Entry.value (joined : Joined) : Entry → Value
  | .bare column => (joined.head?.map (·.2 column)).getD .null
  | .place p => p.value joined
  | .expression ps => engine.evaluate ps joined

/-- The tuples of a table that a join finds. -/
def JoinQuery.partners (j : JoinQuery) (joined : Joined) : List Tuple :=
  (store j.table).filter fun t =>
    engine.matches (j.key.value (joined ++ [(j.label, t)])) (j.base.value (joined ++ [(j.label, t)]))

/-- The tuples brought together so far, with each tuple that a join finds; a left
    join that finds none keeps them. -/
def JoinQuery.extend (j : JoinQuery) (joined : Joined) : List Joined :=
  match j.kind, j.partners engine store joined with
  | .left, [] => [joined ++ [(j.label, .missing)]]
  | _, partners => partners.map fun t => joined ++ [(j.label, t)]

/-- A chain of joins, from the left. -/
def joinAll : List JoinQuery → List Joined → List Joined
  | [], all => all
  | j :: rest, all => joinAll rest (all.flatMap (j.extend engine store))

/-- The rows of a select. -/
def SelectQuery.rows (q : SelectQuery) : List Row :=
  let all := joinAll engine store q.joins ((store q.table).map fun t => [(q.label, t)])
  (engine.restrict q.rest all).map fun joined => ⟨q.entries.map (Entry.value engine joined)⟩

/-- The rows without those that are like an earlier one. -/
def keepFirst (alike : Row → Row → Bool) : List Row → List Row
  | [] => []
  | row :: rest => row :: (keepFirst alike rest).filter fun later => !alike row later

/-- The rows of two branches. -/
def UnionMode.combine : UnionMode → List Row → List Row → List Row
  | .union, earlier, later => keepFirst engine.alike (earlier ++ later)
  | .unionAll, earlier, later => earlier ++ later

/-- Rows together with those of later branches. -/
def unionRows : List Row → List (UnionMode × SelectQuery) → List Row
  | rows, [] => rows
  | rows, (mode, q) :: rest => unionRows (mode.combine engine rows (q.rows engine store)) rest

/-- The rows of a query. -/
def Query.rows : Query → List Row
  | .select q => q.rows engine store
  | .union first later rest =>
    engine.arrange rest (unionRows engine store (first.rows engine store) later)

end Evaluation

/-! ## Tables that are filled -/

variable {engine : Engine} {store : Store}

/-- A tuple stands for a table in scope; one that no row misses is stored. -/
structure Seat.Filled (store : Store) (seat : Seat) (entry : String × Tuple) : Prop where
  label : entry.1 = seat.label
  stored : seat.outer = false → entry.2 ∈ store seat.table.sqlName

/-- A join adds one tuple, which an inner join takes from its table. -/
theorem JoinQuery.mem_extend {j : JoinQuery} {joined joined' : Joined}
    (h : joined' ∈ j.extend engine store joined) :
    ∃ t, joined' = joined ++ [(j.label, t)] ∧ (j.kind = .inner → t ∈ store j.table) := by
  rw [JoinQuery.extend] at h
  split at h
  · next left _ =>
    refine ⟨.missing, List.mem_singleton.1 h, fun inner => ?_⟩
    rw [inner] at left
    cases left
  · obtain ⟨t, partner, rfl⟩ := List.mem_map.1 h
    exact ⟨t, rfl, fun _ => List.mem_of_mem_filter partner⟩

/-- Joins fill the tables they join. -/
theorem joinAll_filled (engine : Engine) {earlier seats : List Seat} {joins : List JoinQuery} {all : List Joined}
    (each : List.Forall₂ Seat.JoinedBy seats joins)
    (start : ∀ joined ∈ all, List.Forall₂ (Seat.Filled store) earlier joined) :
    ∀ joined ∈ joinAll engine store joins all,
      List.Forall₂ (Seat.Filled store) (earlier ++ seats) joined := by
  induction each generalizing earlier all with
  | nil => simpa [joinAll] using start
  | @cons seat j seats joins seated _ ih =>
    -- one join fills the next table, the others go on from there
    rw [joinAll, List.append_cons]
    refine ih ?_
    intro joined' hjoined'
    obtain ⟨joined, hjoined, extended⟩ := List.mem_flatMap.1 hjoined'
    obtain ⟨t, rfl, inner⟩ := JoinQuery.mem_extend extended
    refine List.rel_append (start joined hjoined) (.cons ⟨seated.label, fun present => ?_⟩ .nil)
    rw [← seated.table]
    exact inner (seated.inner present)

/-- Under labels that differ, the tuple of a table is found by its label. -/
theorem exists_lookup_of_filled {seats : List Seat} {joined : Joined}
    (distinct : (seats.map (·.label)).Nodup) (h : List.Forall₂ (Seat.Filled store) seats joined)
    {seat : Seat} (member : seat ∈ seats) :
    ∃ t, joined.lookup seat.label = some t ∧ seat.Filled store (seat.label, t) := by
  induction h with
  | nil => cases member
  | @cons first entry seats joined filled _ ih =>
    obtain ⟨label, t⟩ := entry
    obtain rfl : label = first.label := filled.label
    rw [List.map_cons, List.nodup_cons] at distinct
    rcases List.mem_cons.1 member with rfl | member
    · exact ⟨t, by simp, filled⟩
    · have other : (seat.label == first.label) = false := by
        rw [beq_eq_false_iff_ne]
        intro same
        exact distinct.1 (same ▸ List.mem_map_of_mem member)
      rw [List.lookup_cons, other]
      exact ih distinct.2 member

/-! ## Columns that hold no null -/

/-- The columns of a table that are declared not to be null hold no null. -/
def Store.Respects (store : Store) (t : Table) : Prop :=
  ∀ c ∈ t.columns, c.type.nullable = false → ∀ tuple ∈ store t.sqlName, tuple c.sqlName ≠ .null

/-- An output shows a column of a table in scope, and says when it may be null. -/
structure Output.ShowsColumn (s : Scope) (o : Output) (seat : Seat) (column : Column) : Prop where
  seat_mem : seat ∈ s.seats
  column_mem : column ∈ seat.table.columns
  expression : o.expression = if s.hasJoins then [.name seat.label, .text ".", .name column.sqlName]
    else [.name column.sqlName]
  nullable : o.type.nullable = column.type.nullable
  outer : o.outer = seat.outer

theorem SelectColumn.showsColumn_of_output {s : Scope} {naming : Naming}
    {names names' : Name.Allocator} {c : SelectColumn} {o : Output} (plain : c.isPlain = true)
    (h : c.output s naming names = .ok (o, names')) :
    ∃ seat column, o.ShowsColumn s seat column := by
  cases c with
  | expression f outputName type => cases plain
  | column c outputName =>
    obtain ⟨column, -, hcolumn, hpieces, -, houter, -, -, -, htype⟩ := columnOutput_eq_ok h
    obtain ⟨seat, hseat, hplace⟩ := Scope.column_eq_ok_iff.1 hcolumn
    obtain ⟨seat', column', hseat', hplace', expression⟩ := Scope.columnPieces_eq_ok_iff.1 hpieces
    obtain ⟨seat'', hseat'', houter⟩ := bind_eq_ok_iff.1 houter
    rw [hseat] at hseat' hseat''
    cases hseat'
    cases hseat''
    rw [hplace] at hplace'
    cases hplace'
    exact ⟨seat, column, Scope.seat_eq_ok hseat, (Table.column_eq_ok hplace).1, expression,
      by rw [htype]; rfl, (pure_eq_ok_iff.1 houter).symm⟩

theorem showsColumn_writeSelectList {s : Scope} {naming : Naming} {names : Name.Allocator}
    {cs : List SelectColumn} {outputs : List Output} {ps : List Piece}
    (plain : ∀ c ∈ cs, c.isPlain = true)
    (h : (writeSelectList s naming names cs).Yields outputs ps) :
    ∀ o ∈ outputs, ∃ seat column, o.ShowsColumn s seat column := by
  induction cs generalizing names outputs ps with
  | nil =>
    obtain ⟨rfl, -⟩ := Draft.yields_pure.1 h
    simp
  | cons c rest ih =>
    obtain ⟨o, names', later, tail, houtput, hrest, rfl, -⟩ := yields_writeSelectList_cons h
    rw [List.forall_mem_cons] at plain
    exact List.forall_mem_cons.2 ⟨c.showsColumn_of_output plain.1 houtput, ih plain.2 hrest⟩

/-- The value of an output is that of its column, in the tuple of its table. -/
theorem Output.ShowsColumn.value_eq (engine : Engine) {s : Scope} {o : Output} {seat : Seat}
    {column : Column} (h : o.ShowsColumn s seat column) {joined : Joined}
    (distinct : (s.seats.map (·.label)).Nodup)
    (filled : List.Forall₂ (Seat.Filled store) s.seats joined) :
    ∃ t, seat.Filled store (seat.label, t) ∧
      Entry.value engine joined (Entry.ofPieces o.expression) = t column.sqlName := by
  obtain ⟨t, found, fills⟩ := exists_lookup_of_filled distinct filled h.seat_mem
  refine ⟨t, fills, ?_⟩
  rw [h.expression]
  cases joins : s.hasJoins with
  | true => simp [Entry.ofPieces, Entry.value, Place.value, found]
  | false =>
    -- without joins the main table is the only one, and the head of the list
    have alone : s.joined = [] := by simpa [Scope.hasJoins] using joins
    rw [Scope.seats, alone] at filled
    obtain ⟨entry, rest, first, -, rfl⟩ := List.forall₂_cons_left_iff.1 filled
    obtain rfl : seat = s.main := by
      have member := h.seat_mem
      rw [Scope.seats, alone] at member
      exact List.mem_singleton.1 member
    obtain ⟨label, tuple⟩ := entry
    obtain rfl : label = s.main.label := first.label
    rw [List.lookup_cons_self] at found
    cases found
    rfl

/-- Whether an output may have a value. -/
def Output.Admits (o : Output) (v : Value) : Prop := v = .null → o.field.type.nullable = true

/-- A row has one value for each output, which may have it. -/
def Row.Fits (outputs : List Output) (row : Row) : Prop :=
  List.Forall₂ Output.Admits outputs row.values

/-- A stored tuple has no null in a column that is declared not to be null, and a
    table that a row may miss makes its outputs nullable. -/
theorem Output.ShowsColumn.admits {s : Scope} {o : Output} {seat : Seat} {column : Column}
    (h : o.ShowsColumn s seat column) (respects : store.Respects seat.table) {t : Tuple}
    (fills : seat.Filled store (seat.label, t)) : o.Admits (t column.sqlName) := by
  intro null
  show (o.type.nullable || o.outer) = true
  rw [h.nullable, h.outer]
  cases missed : seat.outer with
  | true => rw [Bool.or_true]
  | false =>
    rw [Bool.or_false]
    by_contra required
    rw [Bool.not_eq_true] at required
    exact respects column h.column_mem required t (fills.stored missed) null

/-! ## Rows of selects and unions -/

/-- The tables of a select. -/
def Select.tables (main : Table) (s : Select) : List Table := main :: s.joins.map (·.table)

theorem Scope.table_mem_of_resolve {main : Table} {s : Select} {scope : Scope}
    (h : Scope.resolve main s.joins = .ok scope) {seat : Seat} (member : seat ∈ scope.seats) :
    seat.table ∈ s.tables main := by
  obtain ⟨hmain, -, sit⟩ := Scope.sitsAt_of_resolve h
  have tables : scope.seats.map (·.table) = s.tables main := by
    rw [Scope.seats, List.map_cons, hmain, Join.map_table_of_sitsAt sit, Select.tables]
  rw [← tables]
  exact List.mem_map_of_mem member

theorem UnionBranch.ReadBy.fits {naming : Naming} {b : UnionBranch} {outputs : List Output}
    {q : SelectQuery} (read : b.ReadBy naming outputs q)
    (plain : b.select.columns.all SelectColumn.isPlain = true)
    (respects : ∀ t ∈ b.select.tables b.table, store.Respects t) :
    ∀ row ∈ q.rows engine store, row.Fits outputs := by
  obtain ⟨scope, list, hscope, hlist, reads⟩ := read
  have start : ∀ joined ∈ (store q.table).map fun t => [(q.label, t)],
      List.Forall₂ (Seat.Filled store) [scope.main] joined := by
    intro joined hjoined
    obtain ⟨t, ht, rfl⟩ := List.mem_map.1 hjoined
    exact .cons ⟨reads.label, fun _ => reads.table ▸ ht⟩ .nil
  have filled := joinAll_filled engine reads.joins start
  have entries_plain := List.all_eq_true.1 (Select.isPlain_effectiveColumns plain b.table)
  have shown := showsColumn_writeSelectList entries_plain hlist
  intro row hrow
  obtain ⟨joined, hjoined, rfl⟩ := List.mem_map.1 hrow
  have fills := filled joined (engine.restrict_subset _ _ hjoined)
  rw [Row.Fits, reads.entries, List.map_map, List.forall₂_map_right_iff, List.forall₂_same]
  intro o ho
  obtain ⟨seat, column, shows⟩ := shown o ho
  obtain ⟨t, seated, value_eq⟩ :=
    shows.value_eq engine (Scope.nodup_labels_of_resolve hscope) fills
  show o.Admits (Entry.value engine joined (Entry.ofPieces o.expression))
  rw [value_eq]
  exact shows.admits (respects _ (Scope.table_mem_of_resolve hscope shows.seat_mem)) seated

theorem Output.Admits.merge_left {o later : Output} {v : Value} (h : o.Admits v) :
    (o.merge later).Admits v := by
  intro null
  have nullable : (o.type.nullable || o.outer) = true := h null
  show (o.type.nullable || (o.outer || later.outer || later.type.nullable)) = true
  rw [Bool.or_assoc o.outer, ← Bool.or_assoc, nullable, Bool.true_or]

theorem Output.Admits.merge_right {o later : Output} {v : Value} (h : later.Admits v) :
    (o.merge later).Admits v := by
  intro null
  have nullable : (later.type.nullable || later.outer) = true := h null
  show (o.type.nullable || (o.outer || later.outer || later.type.nullable)) = true
  rw [Bool.or_assoc o.outer, Bool.or_comm later.outer, nullable, Bool.or_true, Bool.or_true]

/-- Merged outputs admit the rows of both branches. -/
theorem Row.Fits.merge {outputs later : List Output} (count : later.length = outputs.length)
    {row : Row} (h : row.Fits outputs ∨ row.Fits later) :
    row.Fits (List.zipWith Output.merge outputs later) := by
  obtain ⟨values⟩ := row
  simp only [Row.Fits] at h ⊢
  induction outputs generalizing later values with
  | nil =>
    obtain rfl := List.length_eq_zero_iff.1 count
    simpa using h
  | cons o outputs ih =>
    obtain ⟨o', later, rfl⟩ := List.exists_cons_of_length_eq_add_one count
    rw [List.length_cons, List.length_cons, Nat.add_right_cancel_iff] at count
    rw [List.zipWith_cons_cons]
    rcases h with h | h
    · obtain ⟨v, values, admits, rest, rfl⟩ := List.forall₂_cons_left_iff.1 h
      exact .cons admits.merge_left (ih count values (.inl rest))
    · obtain ⟨v, values, admits, rest, rfl⟩ := List.forall₂_cons_left_iff.1 h
      exact .cons admits.merge_right (ih count values (.inr rest))

theorem mem_of_mem_keepFirst {alike : Row → Row → Bool} {rows : List Row} {row : Row}
    (h : row ∈ keepFirst alike rows) : row ∈ rows := by
  induction rows with
  | nil => cases h
  | cons first rest ih =>
    rcases List.mem_cons.1 h with rfl | h
    · exact List.mem_cons_self
    · exact List.mem_cons_of_mem _ (ih (List.mem_of_mem_filter h))

/-- A union has no rows but those of its branches. -/
theorem UnionMode.mem_combine {mode : UnionMode} {earlier later : List Row} {row : Row}
    (h : row ∈ mode.combine engine earlier later) : row ∈ earlier ∨ row ∈ later := by
  cases mode with
  | union => exact List.mem_append.1 (mem_of_mem_keepFirst h)
  | unionAll => exact List.mem_append.1 h

theorem Merged.fits {naming : Naming} {outputs outputs' : List Output}
    {bs : List (UnionMode × UnionBranch)} {qs : List (UnionMode × SelectQuery)}
    (merged : Merged naming outputs bs qs outputs') {rows : List Row}
    (plain : ∀ mb ∈ bs, mb.2.select.columns.all SelectColumn.isPlain = true)
    (respects : ∀ mb ∈ bs, ∀ t ∈ mb.2.select.tables mb.2.table, store.Respects t)
    (start : ∀ row ∈ rows, row.Fits outputs) :
    ∀ row ∈ unionRows engine store rows qs, row.Fits outputs' := by
  induction merged generalizing rows with
  | nil outputs => exact start
  | @cons outputs later outputs' mode b q bs qs read count _ ih =>
    rw [List.forall_mem_cons] at plain respects
    refine ih plain.2 respects.2 ?_
    intro row hrow
    -- a row comes from a branch before or from this one, and the merged outputs admit both
    refine Row.Fits.merge count ?_
    rcases UnionMode.mem_combine hrow with hrow | hrow
    · exact .inl (start row hrow)
    · exact .inr (read.fits plain.1 respects.1 row hrow)

/-! ## Compiled actions -/

/-- Whether all entries of select lists are columns. -/
def Task.selectsColumns : Task → Bool
  | .select s => s.columns.all SelectColumn.isPlain
  | .union u => u.branches.all (·.select.columns.all SelectColumn.isPlain)
  | .insert _ | .update _ | .delete _ => true

/-- Whether all entries of select lists are columns. -/
def Action.selectsColumns : Action → Bool
  | .perform _ _ task => task.selectsColumns
  | .wrap _ _ inner _ => inner.selectsColumns

/-- The tables that a task reads or writes. -/
def Task.tables (table : Table) : Task → List Table
  | .select s => s.tables table
  | .union u => u.branches.flatMap fun b => b.select.tables b.table
  | .insert _ | .update _ | .delete _ => [table]

/-- The tables that an action reads or writes. -/
def Action.tables : Action → List Table
  | .perform _ table task => task.tables table
  | .wrap _ _ inner _ => inner.tables

theorem Task.fits_prepare {naming : Naming} {table : Table} {task : Task} {kind : ActionKind}
    {statement : Statement} {shape : Shape} (plain : task.selectsColumns = true)
    (h : task.prepare naming table = .ok (kind, statement, some shape)) :
    ∃ q outputs, Query.read? statement.pieces = some q ∧ shape = .ofOutputs outputs ∧
      ∀ (engine : Engine) (store : Store), (∀ t ∈ task.tables table, store.Respects t) →
        ∀ row ∈ q.rows engine store, row.Fits outputs := by
  cases task with
  | select s =>
    obtain ⟨outputs, hsettle, -, shape_eq⟩ := prepareRows_eq_ok h
    obtain ⟨q, hread, read⟩ := Query.read?_select (Draft.settle_eq_ok_iff_yields.1 hsettle).2
    refine ⟨.select q, outputs, hread, Option.some.inj shape_eq, ?_⟩
    intro engine store respects
    exact read.fits plain respects
  | union u =>
    obtain ⟨outputs, hsettle, -, shape_eq⟩ := prepareRows_eq_ok h
    obtain ⟨first, later, head, q, qs, rest, hbranches, hread, read, merged⟩ :=
      Query.read?_union (Draft.settle_eq_ok_iff_yields.1 hsettle).2
    refine ⟨.union q qs rest, outputs, hread, Option.some.inj shape_eq, ?_⟩
    intro engine store respects row hrow
    have plain_all := List.all_eq_true.1 plain
    have respects_all : ∀ b ∈ u.branches, ∀ t ∈ b.select.tables b.table, store.Respects t :=
      fun b hb t ht => respects t (List.mem_flatMap.2 ⟨b, hb, ht⟩)
    rw [hbranches, List.forall_mem_cons, List.forall_mem_map] at plain_all respects_all
    exact merged.fits plain_all.2 respects_all.2 (read.fits plain_all.1 respects_all.1) row
      (engine.arrange_subset _ _ hrow)
  | insert i =>
    obtain ⟨_, -, h₁⟩ := bind_eq_ok_iff.1 h
    cases h₁
  | update u =>
    obtain ⟨_, -, h₁⟩ := bind_eq_ok_iff.1 h
    cases h₁
  | delete d =>
    obtain ⟨_, -, h₁⟩ := bind_eq_ok_iff.1 h
    cases h₁

theorem Action.fits_prepare {naming : Naming} {a : Action} {p : Prepared} {shape : Shape}
    (plain : a.selectsColumns = true) (h : a.prepare naming = .ok p)
    (hshape : p.shape = some shape) :
    ∃ q outputs, Query.read? p.statement.pieces = some q ∧ shape = .ofOutputs outputs ∧
      ∀ (engine : Engine) (store : Store), (∀ t ∈ a.tables, store.Respects t) →
        ∀ row ∈ q.rows engine store, row.Fits outputs := by
  induction a generalizing p with
  | perform name table task =>
    have prepared := (Action.prepare_perform_eq_ok h).1
    rw [hshape] at prepared
    exact Task.fits_prepare plain prepared
  | wrap name table inner args ih =>
    obtain ⟨q, hinner, statement_eq, -, shape_eq, -⟩ := Action.prepare_wrap_eq_ok h
    rw [statement_eq]
    exact ih plain hinner (shape_eq ▸ hshape)

/-- The statement of an action that selects columns only stands in its SQL with its select
    list, and is read as a query. On any contents in which columns that are declared not to
    be null hold no null, a row of the query has a value for each field, and a null only for
    nullable ones. -/
theorem Action.nullable_of_null {o : Options} {a : Action} {c : Compiled} {shape : Shape}
    (plain : a.selectsColumns = true) (h : a.compile o = .ok c) (hshape : c.shape = some shape) :
    ∃ p q, a.prepare o.naming = .ok p ∧ p.render o.dialect = c ∧
      p.statement.ListedIn o.dialect c.sql ∧ Query.read? p.statement.pieces = some q ∧
      ∀ (engine : Engine) (store : Store), (∀ t ∈ a.tables, store.Respects t) →
        ∀ row ∈ q.rows engine store,
          List.Forall₂ (fun f v => v = .null → f.type.nullable = true) shape.fields row.values := by
  obtain ⟨p, hp, rfl⟩ := Action.compile_eq_ok_iff.1 h
  obtain ⟨_, shown⟩ := (Action.rowsShown_prepare hp).2 shape hshape
  obtain ⟨q, outputs, hread, rfl, fits⟩ := Action.fits_prepare plain hp hshape
  refine ⟨p, q, hp, rfl, shown.listed o.dialect, hread, ?_⟩
  intro engine store respects row hrow
  rw [Shape.ofOutputs, List.forall₂_map_left_iff]
  exact fits engine store respects row hrow

/-- Members, each with the member who brought them, if any. -/
def members : Table where
  name := "members"
  databaseName := none
  columns := [.primaryKey "id", .ofScalar "name" .text,
    (Column.foreignKey "sponsor_id" "members" "id").asNullable]
  distinct := by decide
  finite := by decide

/-- Members with their sponsors, and members who stand for themselves. -/
def membersWithSponsors : Action :=
  .wrap "listed" members
    (.perform "all" members (.union {
      branches := [
        ⟨members, {
          columns := [.column (.ofMain "name") none, .column (.ofJoin 0 "name") none]
          joins := [⟨members, .left, .ofMain "sponsor_id", "id"⟩] }⟩,
        ⟨members, {
          columns := [.column (.ofMain "name") none,
            .column (.ofMain "name") (some "sponsor")] }⟩]
      modes := [.union] }))
    []

/-- A founder, and a member the founder brought. -/
def memberStore : Store
  | "members" => [
      fun | "id" => .int 1 | "name" => .text "Ada" | _ => .null,
      fun | "id" => .int 2 | "name" => .text "Bob" | "sponsor_id" => .int 1 | _ => .null]
  | _ => []

/-- An engine for statements without expressions, filters, orders and pages. -/
def plainEngine : Engine where
  equal a b := a = b
  evaluate _ _ := .null
  restrict _ all := all
  restrict_subset _ all := List.Subset.refl all
  alike a b := a = b
  arrange _ rows := rows
  arrange_subset _ rows := List.Subset.refl rows

theorem respects_memberStore : ∀ t ∈ membersWithSponsors.tables, memberStore.Respects t := by
  intro t ht
  obtain rfl : t = members := by
    simpa [membersWithSponsors, Action.tables, Task.tables, Select.tables] using ht
  intro c hc
  revert c
  decide

theorem membersWithSponsors_nulls :
    ∃ c shape p q, membersWithSponsors.compile {} = .ok c ∧ c.shape = some shape ∧
      shape.fields.map (·.type.nullable) = [false, true] ∧
      membersWithSponsors.prepare {} = .ok p ∧ Query.read? p.statement.pieces = some q ∧
      (q.rows plainEngine memberStore).map (·.values) =
        [[.text "Ada", .null], [.text "Bob", .text "Ada"], [.text "Ada", .text "Ada"],
          [.text "Bob", .text "Bob"]] ∧
      ∀ row ∈ q.rows plainEngine memberStore,
        List.Forall₂ (fun f v => v = .null → f.type.nullable = true) shape.fields row.values := by
  have compiles : ∃ c shape, membersWithSponsors.compile {} = .ok c ∧ c.shape = some shape ∧
      shape.fields.map (·.type.nullable) = [false, true] := ⟨_, _, rfl, rfl, by decide⟩
  have evaluates : ∃ p, membersWithSponsors.prepare {} = .ok p ∧
      ∃ q, Query.read? p.statement.pieces = some q ∧
        (q.rows plainEngine memberStore).map (·.values) =
          [[.text "Ada", .null], [.text "Bob", .text "Ada"], [.text "Ada", .text "Ada"],
            [.text "Bob", .text "Bob"]] :=
    ⟨_, rfl, _, by cbv, by cbv⟩
  obtain ⟨c, shape, hc, hshape, nullable⟩ := compiles
  obtain ⟨p, hp, q, hread, rows⟩ := evaluates
  obtain ⟨p', q', hp', -, -, hread', fits⟩ := Action.nullable_of_null (by decide) hc hshape
  cases hp.symm.trans hp'
  cases hread.symm.trans hread'
  exact ⟨c, shape, p, q, hc, hshape, nullable, hp, hread, rows,
    fits plainEngine memberStore respects_memberStore⟩

end Bindery
