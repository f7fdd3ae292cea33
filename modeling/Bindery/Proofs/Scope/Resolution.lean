import Bindery.Proofs.Scope
import Bindery.Proofs.Statement.Yields

/-!
# The resolution of joins

A reference counts tables: the main one is at place zero and a join one place
behind its index. Joins resolve if and only if each of them hangs off a column at an
earlier place, and no table goes by a label that the statement gives out. The scope
then has a table at each place, so that a reference finds the table it means, its
columns are written with the label of that table, and a row may miss it exactly if
a left join lies on the way back to the main table.

* `Resolvable`: the conditions on a main table and its joins.
* `Scope.Represents`: what a scope says about them.
* `Scope.outer_eq_true_iff`: left joins on the way back to the main table.
* `Scope.resolve_represents`: the conditions decide whether joins resolve, and the
  scope represents them.
-/

namespace Bindery

/-! ## Places and paths -/

/-- The place of a table among those of a select, the main one first. -/
def Source.place : Source → Nat
  | .main => 0
  | .join index => index + 1

/-- The tables of a select, the main one first. -/
def placedTables (main : Table) (joins : List Join) : List Table := main :: joins.map (·.table)

/-- A reference points at a column of the table at its place. -/
def ColumnRef.PointsInto (tables : List Table) (c : ColumnRef) : Prop :=
  ∃ t, tables[c.source.place]? = some t ∧ ∃ column ∈ t.columns, column.name = c.column

/-- A join is on the way from a table back to the main one: it brings the table in,
    or is on the way from the table on its base side. -/
inductive OnPath (joins : List Join) : Source → Join → Prop
  | here {index : Nat} {j : Join} (found : joins[index]? = some j) : OnPath joins (.join index) j
  | further {index : Nat} {j k : Join} (found : joins[index]? = some j)
      (rest : OnPath joins j.base.source k) : OnPath joins (.join index) k

theorem onPath_join_iff {joins : List Join} {index : Nat} {j k : Join}
    (found : joins[index]? = some j) :
    OnPath joins (.join index) k ↔ k = j ∨ OnPath joins j.base.source k := by
  constructor
  · rintro (⟨found'⟩ | ⟨found', rest⟩)
    · exact .inl (Option.some.inj (found'.symm.trans found))
    · obtain rfl := Option.some.inj (found'.symm.trans found)
      exact .inr rest
  · rintro (rfl | rest)
    · exact .here found
    · exact .further found rest

/-- What a main table and joins have to be like to resolve. -/
structure Resolvable (main : Table) (joins : List Join) : Prop where
  columns : main.columns ≠ []
  /-- A join hangs off a column of the main table or of a join before it. -/
  base : ∀ (i : Nat) (j : Join), joins[i]? = some j →
    j.base.PointsInto (placedTables main (joins.take i))
  /-- A joined table has the column that is compared. -/
  key : ∀ j ∈ joins, ∃ column ∈ j.table.columns, column.name = j.key
  /-- With joins, no table goes by one of the labels that are given out. -/
  apart : joins ≠ [] → ∀ t ∈ placedTables main joins,
    t.sqlName ≠ mainLabel ∧ ∀ n, 1 ≤ n → n ≤ joins.length → t.sqlName ≠ joinLabel n

/-! ## Seats of joins -/

theorem Join.parent_eq (main : Seat) (earlier : List Seat) (j : Join) :
    j.parent main earlier =
      match (main :: earlier)[j.base.source.place]? with
      | some seat => .ok seat
      | none => .error (.joinOutOfScope (earlier.length + 1) j.base.source.place) := by
  rw [Join.parent]
  cases j.base.source with
  | main => rfl
  | join index => rfl

/-- A table is joined if its base column is at an earlier place and its key exists. -/
theorem Join.seat_isOk_iff {main : Seat} {earlier : List Seat} {j : Join} :
    (∃ seat, j.seat main earlier = .ok seat) ↔
      j.base.PointsInto ((main :: earlier).map (·.table)) ∧
        ∃ column ∈ j.table.columns, column.name = j.key := by
  constructor
  · rintro ⟨seat, h⟩
    obtain ⟨parent, base, key, hparent, hbase, hkey, -⟩ := Join.seat_eq_ok h
    refine ⟨⟨parent.table, ?_, base, Table.column_eq_ok hbase⟩, key, Table.column_eq_ok hkey⟩
    rw [Join.parent_eq] at hparent
    rw [List.getElem?_map]
    split at hparent
    · next found =>
      cases hparent
      rw [found, Option.map_some]
    · cases hparent
  · rintro ⟨⟨t, place, base, hbase⟩, key, hkey⟩
    rw [List.getElem?_map, Option.map_eq_some_iff] at place
    obtain ⟨parent, found, rfl⟩ := place
    have hparent : j.parent main earlier = .ok parent := by rw [Join.parent_eq, found]
    exact ⟨_, bind_eq_ok_iff.2 ⟨parent, hparent, bind_eq_ok_iff.2 ⟨base,
      Table.column_eq_ok_iff.2 hbase, bind_eq_ok_iff.2 ⟨key, Table.column_eq_ok_iff.2 hkey, rfl⟩⟩⟩⟩

/-- Joins find their seats if each of them fits the tables before it. -/
theorem seatJoins_isOk_iff {main : Seat} {earlier : List Seat} {joins : List Join} :
    (∃ seats, seatJoins main earlier joins = .ok seats) ↔
      ∀ (i : Nat) (j : Join), joins[i]? = some j →
        j.base.PointsInto ((main :: earlier).map (·.table) ++ (joins.take i).map (·.table)) ∧
          ∃ column ∈ j.table.columns, column.name = j.key := by
  induction joins generalizing earlier with
  | nil => simp [seatJoins]
  | cons j rest ih =>
    constructor
    · rintro ⟨seats, h⟩
      obtain ⟨seat, hseat, h₁⟩ := bind_eq_ok_iff.1 h
      have first := Join.seat_isOk_iff.1 ⟨seat, hseat⟩
      have later := ih.1 ⟨seats, h₁⟩
      obtain ⟨_, _, _, -, -, -, rfl⟩ := Join.seat_eq_ok hseat
      intro i j' hj'
      cases i with
      | zero =>
        cases hj'
        simpa using first
      | succ i => simpa using later i j' hj'
    · intro h
      have first := h 0 j rfl
      rw [List.take_zero, List.map_nil, List.append_nil] at first
      obtain ⟨seat, hseat⟩ := Join.seat_isOk_iff.2 first
      have table : seat.table = j.table := by
        obtain ⟨_, _, _, -, -, -, rfl⟩ := Join.seat_eq_ok hseat
        rfl
      have later : ∃ seats, seatJoins main (earlier ++ [seat]) rest = .ok seats := by
        refine ih.2 fun i j' hj' => ?_
        simpa [table] using h (i + 1) j' hj'
      obtain ⟨seats, hseats⟩ := later
      exact ⟨seats, bind_eq_ok_iff.2 ⟨seat, hseat, hseats⟩⟩

/-- A join has the seat at its place, behind the seat of its base. -/
theorem seatJoins_place {main : Seat} {earlier seats : List Seat} {joins : List Join}
    (h : seatJoins main earlier joins = .ok seats) {i : Nat} {j : Join}
    (hj : joins[i]? = some j) :
    ∃ parent, j.base.source.place < earlier.length + i + 1 ∧
      (main :: seats)[j.base.source.place]? = some parent ∧
      (main :: seats)[earlier.length + i + 1]? = some ⟨j.table, joinLabel (earlier.length + i + 1),
        parent.path ++ [j.pathName], parent.outer || j.kind == .left⟩ := by
  induction joins generalizing earlier i with
  | nil => cases hj
  | cons first rest ih =>
    obtain ⟨seat, hseat, h₁⟩ := bind_eq_ok_iff.1 h
    cases i with
    | zero =>
      cases hj
      obtain ⟨added, rfl, -⟩ := seatJoins_eq_ok h₁
      obtain ⟨parent, _, _, hparent, -, -, rfl⟩ := Join.seat_eq_ok hseat
      rw [Join.parent_eq] at hparent
      split at hparent
      · next parent' found =>
        cases hparent
        have before := (List.getElem?_eq_some_iff.1 found).1
        rw [List.length_cons] at before
        refine ⟨parent, by omega, ?_, by simp⟩
        rw [List.append_assoc, ← List.cons_append,
          List.getElem?_append_left (by simpa using before)]
        exact found
      · cases hparent
    | succ i =>
      have later := ih h₁ hj
      rw [List.length_append, List.length_singleton, Nat.add_assoc earlier.length 1 i,
        Nat.add_comm 1 i] at later
      exact later

/-- A seat of a join stands behind the seat of its base, and a row may miss it if it
    may miss that one or the join is a left join. -/
structure Join.SitsBehind (seats : List Seat) (place : Nat) (j : Join) (seat : Seat) : Prop where
  found : seats[place]? = some seat
  outer : ∃ parent, j.base.source.place < place ∧ seats[j.base.source.place]? = some parent ∧
    seat.outer = (parent.outer || j.kind == .left)

theorem shadowFault?_eq_none_iff {labels : List String} {tables : List Table} :
    shadowFault? labels tables = none ↔ ∀ t ∈ tables, t.sqlName ∉ labels := by
  simp [shadowFault?, List.find?_eq_none]

namespace Scope

variable {main : Table} {joins : List Join} {s : Scope}

/-! ## Scopes of joins -/

/-- The seat of a reference is the one at its place. -/
theorem seat_eq (s : Scope) (c : ColumnRef) :
    s.seat c =
      match s.seats[c.source.place]? with
      | some seat => .ok seat
      | none => .error (.undeclaredJoin c.source.place c.column) := by
  rw [Scope.seat]
  cases c.source with
  | main => rfl
  | join index => rfl

theorem seat_eq_ok_iff {c : ColumnRef} {seat : Seat} :
    s.seat c = .ok seat ↔ s.seats[c.source.place]? = some seat := by
  rw [seat_eq]
  cases s.seats[c.source.place]? with
  | none => simp
  | some seat => simp

theorem tables_of_resolve (h : resolve main joins = .ok s) :
    s.seats.map (·.table) = placedTables main joins := by
  obtain ⟨hmain, -, sit⟩ := sitsAt_of_resolve h
  rw [seats, List.map_cons, hmain, Join.map_table_of_sitsAt sit, placedTables]

theorem length_seats_of_resolve (h : resolve main joins = .ok s) :
    s.seats.length = joins.length + 1 := by
  have lengths := congrArg List.length (tables_of_resolve h)
  rwa [placedTables, List.length_map, List.length_cons, List.length_map] at lengths

/-- The labels that are given out to a main table with so many joins. -/
def givenLabels (count : Nat) : List String := mainLabel :: (List.range' 1 count).map joinLabel

theorem not_mem_givenLabels_iff {name : String} {count : Nat} :
    name ∉ givenLabels count ↔
      name ≠ mainLabel ∧ ∀ n, 1 ≤ n → n ≤ count → name ≠ joinLabel n := by
  simp only [givenLabels, List.mem_cons, List.mem_map, List.mem_range'_1, not_or, not_exists,
    not_and]
  refine and_congr_right fun _ => forall_congr' fun n => ?_
  constructor
  · intro h least most same
    exact h ⟨least, by omega⟩ same.symm
  · rintro h ⟨least, most⟩ same
    exact h least (by omega) same.symm

theorem labels_of_seatJoins {seat : Seat} {seats : List Seat} (label : seat.label = mainLabel)
    (h : seatJoins seat [] joins = .ok seats) :
    (seat :: seats).map (·.label) = givenLabels joins.length := by
  obtain ⟨added, rfl, -, labels, -⟩ := seatJoins_eq_ok h
  rw [List.map_cons, labels, label]
  rfl

theorem tables_of_seatJoins {seat : Seat} {seats : List Seat}
    (h : seatJoins seat [] joins = .ok seats) :
    (seat :: seats).map (·.table) = placedTables seat.table joins := by
  obtain ⟨added, eq, sit, -⟩ := seatJoins_eq_ok h
  rw [eq, List.nil_append, List.map_cons, Join.map_table_of_sitsAt sit, placedTables]

/-- A main table with columns, under joins whose seats shadow no table, resolves. -/
theorem resolve_of_seatJoins {joined : List Seat} (columns : main.isGhost = false)
    (some : joins ≠ []) (h : seatJoins ⟨main, mainLabel, [], false⟩ [] joins = .ok joined)
    (clear : ∀ t ∈ placedTables main joins, t.sqlName ∉ givenLabels joins.length) :
    resolve main joins = .ok ⟨⟨main, mainLabel, [], false⟩, joined⟩ := by
  rw [← tables_of_seatJoins h, ← labels_of_seatJoins rfl h, ← shadowFault?_eq_none_iff] at clear
  cases joins with
  | nil => exact absurd rfl some
  | cons j rest =>
    rw [resolve, columns]
    · refine bind_eq_ok_iff.2 ⟨joined, h, ?_⟩
      dsimp only [seats]
      rw [clear]
    · exact some

/-- Joins resolve if and only if their conditions hold. -/
theorem resolve_isOk_iff : (∃ s, resolve main joins = .ok s) ↔ Resolvable main joins := by
  have seated := @seatJoins_isOk_iff ⟨main, mainLabel, [], false⟩ [] joins
  constructor
  · rintro ⟨s, h⟩
    have tables := tables_of_resolve h
    obtain ⟨columns, rfl, -⟩ | ⟨columns, -, hmain, hjoined, clear⟩ :=
      and_or_left.1 (resolve_eq_ok h)
    · refine ⟨by simpa [Table.isGhost] using columns, by simp, by simp, by simp⟩
    · have labels := labels_of_seatJoins (congrArg Seat.label hmain) hjoined
      rw [hmain] at hjoined
      have fits := seated.1 ⟨_, hjoined⟩
      refine ⟨by simpa [Table.isGhost] using columns, fun i j hj => (fits i j hj).1, ?_, ?_⟩
      · intro j member
        obtain ⟨i, hi⟩ := List.getElem?_of_mem member
        exact (fits i j hi).2
      · intro _ t member
        rw [← tables] at member
        rw [← not_mem_givenLabels_iff, ← labels]
        exact shadowFault?_eq_none_iff.1 clear t member
  · intro h
    have ghost : main.isGhost = false := by simpa [Table.isGhost] using h.columns
    cases joins with
    | nil => exact ⟨_, by rw [resolve, ghost]; rfl⟩
    | cons j rest =>
      obtain ⟨joined, hjoined⟩ := seated.2 fun i j' hj' =>
        ⟨h.base i j' hj', h.key j' (List.mem_of_getElem? hj')⟩
      have apart := h.apart (List.cons_ne_nil j rest)
      exact ⟨_, resolve_of_seatJoins ghost (List.cons_ne_nil j rest) hjoined
        fun t member => not_mem_givenLabels_iff.2 (apart t member)⟩

/-! ## Left joins on the way -/

/-- In a scope each join has the seat at its place, behind the seat of its base. -/
theorem place_of_resolve (h : resolve main joins = .ok s) {index : Nat} {j : Join}
    (hj : joins[index]? = some j) :
    ∃ parent, j.base.source.place < index + 1 ∧ s.seats[j.base.source.place]? = some parent ∧
      s.seats[index + 1]? = some ⟨j.table, joinLabel (index + 1), parent.path ++ [j.pathName],
        parent.outer || j.kind == .left⟩ := by
  rcases (resolve_eq_ok h).2 with ⟨rfl, -⟩ | ⟨-, -, hjoined, -⟩
  · cases hj
  · have place := seatJoins_place hjoined hj
    rw [List.length_nil, Nat.zero_add] at place
    exact place

theorem sitsBehind_of_resolve (h : resolve main joins = .ok s) {index : Nat} {j : Join}
    (hj : joins[index]? = some j) : ∃ seat, j.SitsBehind s.seats (index + 1) seat := by
  obtain ⟨parent, before, hparent, found⟩ := place_of_resolve h hj
  exact ⟨_, found, parent, before, hparent, rfl⟩

/-- A row may miss a table exactly if a left join is on the way back to the main
    table. -/
theorem outer_eq_true_iff (h : resolve main joins = .ok s) {source : Source} {seat : Seat}
    (found : s.seats[source.place]? = some seat) :
    seat.outer = true ↔ ∃ j, OnPath joins source j ∧ j.kind = .left := by
  -- the base of a join is at an earlier place, so the induction is on the place
  induction place : source.place using Nat.strongRecOn generalizing source seat with
  | ind n ih =>
    subst place
    cases source with
    | main =>
      obtain ⟨-, inner, -⟩ := sitsAt_of_resolve h
      have first : s.main = seat := Option.some.inj found
      refine iff_of_false (by simp [← first, inner]) ?_
      rintro ⟨j, ⟨⟩, -⟩
    | join index =>
      have count := length_seats_of_resolve h
      have declared : index < joins.length := by
        have within := (List.getElem?_eq_some_iff.1 found).1
        rw [Source.place] at within
        omega
      have hj : joins[index]? = some joins[index] := List.getElem?_eq_getElem declared
      obtain ⟨seat', found', parent, before, hparent, outer⟩ := sitsBehind_of_resolve h hj
      obtain rfl : seat = seat' := Option.some.inj (found.symm.trans found')
      have back := ih _ before hparent rfl
      simp only [onPath_join_iff hj, outer, Bool.or_eq_true, beq_iff_eq, back]
      constructor
      · rintro (⟨k, path, left⟩ | left)
        · exact ⟨k, .inr path, left⟩
        · exact ⟨_, .inl rfl, left⟩
      · rintro ⟨k, rfl | path, left⟩
        · exact .inr left
        · exact .inl ⟨k, path, left⟩

/-! ## What a scope represents -/

/-- A scope represents a main table and its joins. -/
structure Represents (main : Table) (joins : List Join) (s : Scope) : Prop where
  /-- There is one seat for each table, at its place. -/
  tables : s.seats.map (·.table) = placedTables main joins
  /-- Without joins the table goes by its own name, with joins by labels that are
      numbered through. -/
  labels : s.seats.map (·.label) =
    if joins = [] then [main.sqlName] else givenLabels joins.length
  distinct : (s.seats.map (·.label)).Nodup
  /-- A reference finds the seat at its place; it has none only if its join is not
      declared. -/
  seat : ∀ c : ColumnRef,
    (c.source.place ≤ joins.length ∧
      ∃ seat, s.seats[c.source.place]? = some seat ∧ s.seat c = .ok seat) ∨
    (joins.length < c.source.place ∧
      s.seat c = .error (.undeclaredJoin c.source.place c.column))
  /-- A reference resolves exactly if its join is declared and has the column. -/
  column : ∀ c : ColumnRef,
    (∃ column, s.column c = .ok column) ↔ c.PointsInto (placedTables main joins)
  /-- A column is written behind the label of the table at its place, or alone. -/
  written : ∀ (c : ColumnRef) (column : Column) (d : Dialect), s.column c = .ok column →
    ∃ seat, s.seats[c.source.place]? = some seat ∧ seat.table.column c.column = .ok column ∧
      (s.columnPieces c).map (piecesSql d) = .ok
        (if joins = [] then d.quote column.sqlName
          else d.quote seat.label ++ "." ++ d.quote column.sqlName)
  /-- A row may miss a table exactly if a left join is on the way back from it. -/
  outer : ∀ c : ColumnRef, c.source.place ≤ joins.length →
    ∃ missed, s.isOuter c = .ok missed ∧
      (missed = true ↔ ∃ j, OnPath joins c.source j ∧ j.kind = .left)

theorem labels_of_resolve (h : resolve main joins = .ok s) :
    s.seats.map (·.label) = if joins = [] then [main.sqlName] else givenLabels joins.length := by
  rcases (resolve_eq_ok h).2 with ⟨rfl, rfl⟩ | ⟨some, hmain, hjoined, -⟩
  · rfl
  · rw [if_neg some]
    exact labels_of_seatJoins (congrArg Seat.label hmain) hjoined

theorem hasJoins_of_resolve (h : resolve main joins = .ok s) :
    s.hasJoins = true ↔ joins ≠ [] := by
  have tables := Join.map_table_of_sitsAt (sitsAt_of_resolve h).2.2
  have none : s.joined = [] ↔ joins = [] := by
    rw [← List.map_eq_nil_iff (f := Seat.table), tables, List.map_eq_nil_iff]
  simp [hasJoins, none]

theorem hasJoins_eq_false_of_resolve (h : resolve main joins = .ok s) :
    s.hasJoins = false ↔ joins = [] := by
  rw [← Bool.not_eq_true, hasJoins_of_resolve h, not_not]

/-- A scope that is resolved represents its main table and its joins. -/
theorem represents_of_resolve (h : resolve main joins = .ok s) : s.Represents main joins := by
  have tables := tables_of_resolve h
  have count := length_seats_of_resolve h
  refine ⟨tables, labels_of_resolve h, nodup_labels_of_resolve h, ?_, ?_, ?_, ?_⟩
  · intro c
    rw [seat_eq]
    by_cases within : c.source.place ≤ joins.length
    · have found := List.getElem?_eq_getElem (l := s.seats) (i := c.source.place) (by omega)
      exact .inl ⟨within, _, found, by rw [found]⟩
    · have none := List.getElem?_eq_none (l := s.seats) (i := c.source.place) (by omega)
      exact .inr ⟨by omega, by rw [none]⟩
  · intro c
    rw [ColumnRef.PointsInto, ← tables, List.getElem?_map]
    constructor
    · rintro ⟨column, hcolumn⟩
      obtain ⟨seat, hseat, hplace⟩ := column_eq_ok_iff.1 hcolumn
      rw [seat_eq_ok_iff] at hseat
      exact ⟨seat.table, by rw [hseat, Option.map_some], column, Table.column_eq_ok hplace⟩
    · rintro ⟨t, ht, column, hcolumn⟩
      obtain ⟨seat, hseat, rfl⟩ := Option.map_eq_some_iff.1 ht
      exact ⟨column, column_eq_ok_iff.2
        ⟨seat, seat_eq_ok_iff.2 hseat, Table.column_eq_ok_iff.2 hcolumn⟩⟩
  · intro c column d hcolumn
    obtain ⟨seat, hseat, hplace⟩ := column_eq_ok_iff.1 hcolumn
    refine ⟨seat, seat_eq_ok_iff.1 hseat, hplace, ?_⟩
    have pieces := columnPieces_eq_ok_iff.2 ⟨seat, column, hseat, hplace, rfl⟩
    rw [pieces]
    by_cases none : joins = []
    · have alone : s.hasJoins = false := (hasJoins_eq_false_of_resolve h).2 none
      simp [alone, none, Except.map, piecesSql, Piece.sql]
    · have joined : s.hasJoins = true := (hasJoins_of_resolve h).2 none
      simp [joined, none, Except.map, piecesSql, Piece.sql, String.append_assoc]
  · intro c within
    have found := List.getElem?_eq_getElem (l := s.seats) (i := c.source.place) (by omega)
    exact ⟨_, bind_eq_ok_iff.2 ⟨_, seat_eq_ok_iff.2 found, rfl⟩, outer_eq_true_iff h found⟩

/-- A main table and its joins resolve exactly under the stated conditions, to a scope
    that represents them. -/
theorem resolve_represents (main : Table) (joins : List Join) :
    ((∃ s, resolve main joins = .ok s) ↔ Resolvable main joins) ∧
      ∀ s, resolve main joins = .ok s → s.Represents main joins :=
  ⟨resolve_isOk_iff, fun _ h => represents_of_resolve h⟩

end Scope

/-- The people of a firm, each under another one or under nobody. -/
def staff : Table where
  name := "staff"
  databaseName := some "people"
  columns := [.primaryKey "id", .ofScalar "name" .text,
    (Column.foreignKey "boss_id" "staff" "id").asNullable]
  distinct := by decide
  finite := by decide

/-- Three people up the line, the second of whom may be missing. -/
def bosses : List Join :=
  [⟨staff, .inner, .ofMain "boss_id", "id"⟩, ⟨staff, .left, .ofJoin 0 "boss_id", "id"⟩,
    ⟨staff, .inner, .ofJoin 1 "boss_id", "id"⟩]

theorem bosses_represented :
    Resolvable staff bosses ∧ ∃ s, Scope.resolve staff bosses = .ok s ∧
      s.Represents staff bosses ∧ s.isOuter (.ofJoin 0 "name") = .ok false ∧
      s.isOuter (.ofJoin 2 "name") = .ok true ∧ ∃ j, OnPath bosses (.join 2) j ∧ j.kind = .left := by
  obtain ⟨resolves, represents⟩ := Scope.resolve_represents staff bosses
  have resolved : ∃ s, Scope.resolve staff bosses = .ok s ∧
      s.isOuter (.ofJoin 0 "name") = .ok false ∧ s.isOuter (.ofJoin 2 "name") = .ok true :=
    ⟨_, rfl, rfl, rfl⟩
  obtain ⟨s, h, near, far⟩ := resolved
  obtain ⟨missed, found, path⟩ := (represents s h).outer (.ofJoin 2 "name") (by decide)
  rw [far, Except.ok.injEq] at found
  exact ⟨resolves.1 ⟨s, h⟩, s, h, represents s h, near, far, path.1 found.symm⟩

end Bindery
