import Bindery.Proofs.Outcome
import Bindery.Proofs.Text.Numeral
import Bindery.Scope
import Mathlib.Data.List.Nodup

/-!
# Scopes that are resolved

Every table in scope is the main table or sits behind a table that came before
it. What holds of the main table and passes from each table to the tables joined
to it therefore holds of all tables in scope.

* `Scope.forall_seats_of_resolve`: the induction along the joins of a select.
* `Scope.knows_of_resolve`: the columns that joins compare are in scope.
* `Scope.nodup_labels_of_resolve`: tables in scope have different labels.
-/

namespace Bindery

theorem Table.column_eq_ok_iff_column? {t : Table} {name : String} {c : Column} :
    t.column name = .ok c ↔ t.column? name = some c := by
  unfold column
  cases t.column? name with
  | none => simp
  | some c => simp

theorem Table.column_eq_ok_iff {t : Table} {name : String} {c : Column} :
    t.column name = .ok c ↔ c ∈ t.columns ∧ c.name = name := by
  rw [column_eq_ok_iff_column?, column?, find?_name_eq_some_iff t.distinct]

theorem Table.column_eq_ok {t : Table} {name : String} {c : Column} (h : t.column name = .ok c) :
    c ∈ t.columns ∧ c.name = name := column_eq_ok_iff.1 h

/-- The parent of a join is the main table or an earlier join. -/
theorem Join.parent_eq_ok {main : Seat} {earlier : List Seat} {j : Join} {parent : Seat}
    (h : j.parent main earlier = .ok parent) : parent ∈ main :: earlier := by
  rw [Join.parent] at h
  split at h
  · cases h
    exact List.mem_cons_self
  · split at h
    · next found =>
      cases h
      exact List.mem_cons_of_mem _ (List.mem_of_getElem? found)
    · cases h

/-- The place of a join follows that of its parent, which has the base column. -/
theorem Join.seat_eq_ok {main : Seat} {earlier : List Seat} {j : Join} {seat : Seat}
    (h : j.seat main earlier = .ok seat) :
    ∃ parent base key, j.parent main earlier = .ok parent ∧
      parent.table.column j.base.column = .ok base ∧ j.table.column j.key = .ok key ∧
      seat = ⟨j.table, joinLabel (earlier.length + 1), parent.path ++ [j.pathName],
        parent.outer || j.kind == .left⟩ := by
  obtain ⟨parent, hparent, h₁⟩ := bind_eq_ok_iff.1 h
  obtain ⟨base, hbase, h₂⟩ := bind_eq_ok_iff.1 h₁
  obtain ⟨key, hkey, h₃⟩ := bind_eq_ok_iff.1 h₂
  exact ⟨parent, base, key, hparent, hbase, hkey, (pure_eq_ok_iff.1 h₃).symm⟩

/-- What passes from a parent to the tables joined to it. -/
def Seat.Inherited (P : Seat → Prop) (joins : List Join) : Prop :=
  ∀ j ∈ joins, ∀ parent base number, P parent → parent.table.column j.base.column = .ok base →
    P ⟨j.table, joinLabel number, parent.path ++ [j.pathName], parent.outer || j.kind == .left⟩

theorem forall_of_seatJoins {P : Seat → Prop} {main : Seat} {earlier : List Seat}
    {joins : List Join} {seats : List Seat} (passes : Seat.Inherited P joins)
    (start : ∀ seat ∈ main :: earlier, P seat) (h : seatJoins main earlier joins = .ok seats) :
    ∀ seat ∈ main :: seats, P seat := by
  induction joins generalizing earlier with
  | nil =>
    cases h
    exact start
  | cons j rest ih =>
    obtain ⟨seat, hseat, h₁⟩ := bind_eq_ok_iff.1 h
    obtain ⟨parent, base, key, hparent, hbase, -, rfl⟩ := Join.seat_eq_ok hseat
    have next := passes j (by simp) parent base (earlier.length + 1)
      (start parent (Join.parent_eq_ok hparent)) hbase
    refine ih (fun j' hj' => passes j' (by simp [hj'])) ?_ h₁
    intro seat' hseat'
    rw [← List.cons_append, List.mem_append, List.mem_singleton] at hseat'
    rcases hseat' with hseat' | rfl
    · exact start seat' hseat'
    · exact next

namespace Scope

/-- A scope without joins is its main table; with joins every table has a label
    that no table goes by. -/
theorem resolve_eq_ok {main : Table} {joins : List Join} {s : Scope}
    (h : resolve main joins = .ok s) :
    main.isGhost = false ∧
      ((joins = [] ∧ s = ⟨⟨main, main.sqlName, [], false⟩, []⟩) ∨
        (joins ≠ [] ∧ s.main = ⟨main, mainLabel, [], false⟩ ∧
          seatJoins s.main [] joins = .ok s.joined ∧
          shadowFault? (s.seats.map (·.label)) (s.seats.map (·.table)) = none)) := by
  unfold resolve at h
  split at h
  · cases h
  · next columns =>
    refine ⟨by simpa using columns, ?_⟩
    cases joins with
    | nil =>
      cases h
      exact .inl ⟨rfl, rfl⟩
    | cons j rest =>
      obtain ⟨seats, hseats, h₁⟩ := bind_eq_ok_iff.1 h
      dsimp only at h₁
      split at h₁
      · cases h₁
      · next clear =>
        cases h₁
        exact .inr ⟨List.cons_ne_nil j rest, rfl, hseats, clear⟩

/-- What holds of the main table and passes along joins holds of all tables in
    scope. -/
theorem forall_seats_of_resolve {P : Seat → Prop} {main : Table} {joins : List Join} {s : Scope}
    (alone : P ⟨main, main.sqlName, [], false⟩) (first : P ⟨main, mainLabel, [], false⟩)
    (passes : Seat.Inherited P joins) (h : resolve main joins = .ok s) :
    ∀ seat ∈ s.seats, P seat := by
  rcases (resolve_eq_ok h).2 with ⟨-, rfl⟩ | ⟨-, hmain, hjoined, -⟩
  · intro seat hseat
    rw [List.mem_singleton.1 hseat]
    exact alone
  · refine forall_of_seatJoins passes ?_ hjoined
    intro seat hseat
    rw [List.mem_singleton.1 hseat, hmain]
    exact first

/-- A reference points into a table in scope. -/
theorem seat_eq_ok {s : Scope} {c : ColumnRef} {seat : Seat} (h : s.seat c = .ok seat) :
    seat ∈ s.seats := by
  rw [Scope.seat] at h
  split at h
  · cases h
    exact List.mem_cons_self
  · split at h
    · next found =>
      cases h
      exact List.mem_cons_of_mem _ (List.mem_of_getElem? found)
    · cases h

/-! ## Columns in scope -/

/-- A reference points at a column in scope. -/
def Knows (s : Scope) (c : ColumnRef) : Prop := ∃ column, s.column c = .ok column

theorem column_eq_ok_iff {s : Scope} {c : ColumnRef} {column : Column} :
    s.column c = .ok column ↔
      ∃ seat, s.seat c = .ok seat ∧ seat.table.column c.column = .ok column := bind_eq_ok_iff

theorem seat_of_source_main {s : Scope} {c : ColumnRef} (h : c.source = .main) :
    s.seat c = .ok s.main := by
  rw [Scope.seat, h]

theorem seat_of_source_join {s : Scope} {c : ColumnRef} {index : Nat} {seat : Seat}
    (h : c.source = .join index) (found : s.joined[index]? = some seat) : s.seat c = .ok seat := by
  rw [Scope.seat, h]
  dsimp only
  rw [found]

end Scope

/-- The parent of a join is found again among the tables that are joined later. -/
theorem Join.seat_of_parent_eq_ok {main parent : Seat} {earlier behind : List Seat} {j : Join}
    (h : j.parent main earlier = .ok parent) :
    (Scope.mk main (earlier ++ behind)).seat j.base = .ok parent := by
  rw [Join.parent] at h
  split at h
  · next source =>
    cases h
    exact Scope.seat_of_source_main source
  · next index source =>
    split at h
    · next seat found =>
      cases h
      refine Scope.seat_of_source_join source ?_
      rw [List.getElem?_append_left (List.getElem?_eq_some_iff.1 found).1]
      exact found
    · cases h

/-- A place of a join has its table, and without a left join on the way to it the
    join is no left join. -/
structure Join.SitsAt (j : Join) (seat : Seat) : Prop where
  table : seat.table = j.table
  inner : seat.outer = false → j.kind = .inner

theorem Join.map_table_of_sitsAt {joins : List Join} {seats : List Seat}
    (h : List.Forall₂ Join.SitsAt joins seats) : seats.map (·.table) = joins.map (·.table) := by
  induction h with
  | nil => rfl
  | cons place _ ih => rw [List.map_cons, List.map_cons, place.table, ih]

/-- Joined tables sit behind earlier ones in their order, under labels by number,
    and the columns that each join compares are in scope. -/
theorem seatJoins_eq_ok {main : Seat} {earlier seats : List Seat} {joins : List Join}
    (h : seatJoins main earlier joins = .ok seats) :
    ∃ added, seats = earlier ++ added ∧ List.Forall₂ Join.SitsAt joins added ∧
      added.map (·.label) = (List.range' (earlier.length + 1) joins.length).map joinLabel ∧
      ∀ i j, joins[i]? = some j → (Scope.mk main seats).Knows j.base ∧
        (Scope.mk main seats).Knows (.ofJoin (earlier.length + i) j.key) := by
  induction joins generalizing earlier with
  | nil =>
    cases h
    exact ⟨[], by simp, .nil, rfl, by simp⟩
  | cons j rest ih =>
    obtain ⟨seat, hseat, h₁⟩ := bind_eq_ok_iff.1 h
    obtain ⟨parent, base, key, hparent, hbase, hkey, hplace⟩ := Join.seat_eq_ok hseat
    obtain ⟨added, rfl, sit, labels, known⟩ := ih h₁
    have table : seat.table = j.table := by rw [hplace]
    have inner : seat.outer = false → j.kind = .inner := by
      rw [hplace]
      cases j.kind <;> simp
    refine ⟨seat :: added, by simp, .cons ⟨table, inner⟩ sit, ?_, ?_⟩
    · rw [List.map_cons, labels, List.length_cons, List.range'_succ, List.map_cons, hplace]
      simp
    intro i j' hj'
    cases i with
    | zero =>
      cases hj'
      refine ⟨⟨base, Scope.column_eq_ok_iff.2 ⟨parent, ?_, hbase⟩⟩,
        ⟨key, Scope.column_eq_ok_iff.2 ⟨seat, ?_, table ▸ hkey⟩⟩⟩
      · rw [List.append_assoc]
        exact Join.seat_of_parent_eq_ok hparent
      · exact Scope.seat_of_source_join rfl (by simp)
    | succ i =>
      have later := known i j' hj'
      rw [List.length_append, List.length_singleton, Nat.add_assoc, Nat.add_comm 1 i] at later
      exact later

namespace Scope

/-- The tables in scope are the main table, which no row misses, and those of the
    joins. -/
theorem sitsAt_of_resolve {main : Table} {joins : List Join} {s : Scope}
    (h : resolve main joins = .ok s) :
    s.main.table = main ∧ s.main.outer = false ∧ List.Forall₂ Join.SitsAt joins s.joined := by
  rcases (resolve_eq_ok h).2 with ⟨rfl, rfl⟩ | ⟨-, hmain, hjoined, -⟩
  · exact ⟨rfl, rfl, .nil⟩
  · obtain ⟨added, eq, sit, -⟩ := seatJoins_eq_ok hjoined
    rw [List.nil_append] at eq
    rw [hmain, eq]
    exact ⟨rfl, rfl, sit⟩

/-- The columns that a join compares are in scope. -/
theorem knows_of_resolve {main : Table} {joins : List Join} {s : Scope}
    (h : resolve main joins = .ok s) {index : Nat} {j : Join} (hj : joins[index]? = some j) :
    s.Knows j.base ∧ s.Knows (.ofJoin index j.key) := by
  rcases (resolve_eq_ok h).2 with ⟨rfl, -⟩ | ⟨-, -, hjoined, -⟩
  · cases hj
  · obtain ⟨-, -, -, -, known⟩ := seatJoins_eq_ok hjoined
    simpa using known index j hj

end Scope

theorem joinLabel_injective : Function.Injective joinLabel := by
  intro i j h
  have letters := congrArg String.toList h
  rw [joinLabel, joinLabel, String.toList_append, String.toList_append] at letters
  exact Text.ofNat_injective (String.toList_injective (List.append_cancel_left letters))

theorem mainLabel_ne_joinLabel (number : Nat) : mainLabel ≠ joinLabel number := by
  intro h
  have letters := congrArg (fun label => label.toList[1]?) h
  simp [mainLabel, joinLabel] at letters

theorem Scope.nodup_labels_of_resolve {main : Table} {joins : List Join} {s : Scope}
    (h : resolve main joins = .ok s) : (s.seats.map (·.label)).Nodup := by
  rcases (resolve_eq_ok h).2 with ⟨rfl, rfl⟩ | ⟨-, hmain, hjoined, -⟩
  · exact List.nodup_singleton _
  · obtain ⟨added, eq, -, labels, -⟩ := seatJoins_eq_ok hjoined
    rw [List.nil_append] at eq
    rw [Scope.seats, List.map_cons, hmain, eq, labels, List.nodup_cons]
    refine ⟨?_, List.Nodup.map joinLabel_injective List.nodup_range'⟩
    intro taken
    obtain ⟨number, -, same⟩ := List.mem_map.1 taken
    exact mainLabel_ne_joinLabel number same.symm

end Bindery
