import Bindery.Proofs.Schema.Json
import Bindery.Proofs.Text.ByteOrder
import Mathlib.Data.List.Induction
import Mathlib.Data.String.Basic

/-!
# Registries that are reached by calls

A registry starts empty and is offered tables one by one. One whose name is taken is
rejected and leaves no trace, so the registry holds the first table of each name, in
the order of the names. What it holds does not depend on the order of the calls as
long as the names differ.

* `Registry.Ascending`: tables in the order of their names.
* `Registry.offer`, `Registry.reached`: the registry after one call and after many.
* `Registry.Holds`, `Registry.Holds.offer`: what a registry holds after calls, kept by
  each call.
* `Registry.registerAll_reached`: many tables at once.
* `Registry.reached_loads`: registries after calls, and registries that are loaded.
-/

namespace Bindery

namespace Registry

/-! ## Placing -/

/-- Tables in the order of their names, each name once. -/
def Ascending (ts : List Table) : Prop := (ts.map (·.name)).Pairwise (· < ·)

theorem place_perm (t : Table) (ts : List Table) : (place t ts).Perm (t :: ts) := by
  induction ts with
  | nil => rfl
  | cons u rest ih =>
    unfold place
    split
    · rfl
    · exact (ih.cons u).trans (List.Perm.swap t u rest)

theorem ascending_place {t : Table} {ts : List Table} (h : Ascending ts)
    (free : t.name ∉ ts.map (·.name)) : Ascending (place t ts) := by
  induction ts with
  | nil => exact List.pairwise_singleton _ _
  | cons u rest ih =>
    unfold Ascending at h
    rw [List.map_cons, List.pairwise_cons] at h
    rw [List.map_cons, List.mem_cons, not_or] at free
    unfold place
    split
    · next before =>
      have smaller : ∀ name ∈ (u :: rest).map (·.name), t.name < name := by
        rw [List.map_cons, List.forall_mem_cons]
        exact ⟨before, fun name member => before.trans (h.1 name member)⟩
      exact List.pairwise_cons.2 ⟨smaller, List.pairwise_cons.2 h⟩
    · next behind =>
      refine List.pairwise_cons.2 ⟨?_, ih h.2 free.2⟩
      intro name member
      rw [((place_perm t rest).map (·.name)).mem_iff, List.map_cons, List.mem_cons] at member
      rcases member with rfl | member
      · exact lt_of_le_of_ne (not_lt.1 behind) (Ne.symm free.1)
      · exact h.1 name member

/-- A table of a free name is found behind all others. -/
theorem find?_place {t : Table} {ts : List Table} (free : t.name ∉ ts.map (·.name))
    (name : String) :
    (place t ts).find? (·.name == name) = (ts ++ [t]).find? (·.name == name) := by
  induction ts with
  | nil => rfl
  | cons u rest ih =>
    rw [List.map_cons, List.mem_cons, not_or] at free
    unfold place
    split
    · by_cases here : t.name = name
      · have absent : (u :: rest).find? (·.name == name) = none := by
          rw [find?_name_eq_none_iff, ← here, List.map_cons, List.mem_cons, not_or]
          exact free
        rw [List.find?_append, absent]
        simp [here]
      · rw [List.find?_append, List.find?_cons_of_neg (by simp [here])]
        simp [here]
    · rw [List.cons_append, List.find?_cons, List.find?_cons, ih free.2]

theorem Ascending.nodup_names {ts : List Table} (h : Ascending ts) :
    (ts.map (·.name)).Nodup := List.Pairwise.imp ne_of_lt h

theorem Ascending.nodup {ts : List Table} (h : Ascending ts) : ts.Nodup :=
  List.Nodup.of_map _ h.nodup_names

/-- Ascending tables are known by their members. -/
theorem Ascending.eq_of_mem_iff {ts us : List Table} (h : Ascending ts) (h' : Ascending us)
    (same : ∀ t, t ∈ ts ↔ t ∈ us) : ts = us := by
  have perm : ts.Perm us := (List.perm_ext_iff_of_nodup h.nodup h'.nodup).2 same
  have before : ts.Pairwise fun t u => t.name < u.name := List.pairwise_map.1 h
  have before' : us.Pairwise fun t u => t.name < u.name := List.pairwise_map.1 h'
  refine List.Perm.eq_of_pairwise ?_ before before' perm
  intro t u _ _ less greater
  exact absurd less (lt_asymm greater)

/-! ## Calls -/

/-- The registry after the offer of a table; one that is rejected changes nothing. -/
def offer (r : Registry) (t : Table) : Registry :=
  match r.register t with
  | .ok r' => r'
  | .error _ => r

/-- The registry that is reached from the empty one by offering tables in order. -/
def reached (calls : List Table) : Registry := calls.foldl offer empty

theorem reached_concat (calls : List Table) (t : Table) :
    reached (calls ++ [t]) = (reached calls).offer t := by
  unfold reached
  rw [List.foldl_append]
  rfl

/-- The registry holds the first of the offered tables of each name, in the order of
    the names. -/
structure Holds (calls : List Table) (r : Registry) : Prop where
  ascending : Ascending r.tables
  first : ∀ name, r.get? name = calls.find? (·.name == name)

namespace Holds

variable {calls : List Table} {r : Registry}

theorem mem_names_iff (h : Holds calls r) {name : String} :
    name ∈ r.tables.map (·.name) ↔ name ∈ calls.map (·.name) := by
  rw [← not_iff_not, ← find?_name_eq_none_iff, ← find?_name_eq_none_iff, ← h.first]
  rfl

theorem register_eq (h : Holds calls r) (t : Table) :
    r.register t =
      if t.name ∈ calls.map (·.name) then .error (.duplicateTable t.name)
      else .ok ⟨place t r.tables⟩ := by
  unfold register
  refine if_congr ?_ rfl rfl
  rw [Option.isSome_iff_ne_none, ne_eq, h.first, find?_name_eq_none_iff, not_not]

theorem offer_eq (h : Holds calls r) (t : Table) :
    r.offer t = if t.name ∈ calls.map (·.name) then r else ⟨place t r.tables⟩ := by
  unfold offer
  rw [h.register_eq]
  split_ifs <;> rfl

/-- Each call keeps what the registry holds. -/
theorem offer (h : Holds calls r) (t : Table) : Holds (calls ++ [t]) (r.offer t) := by
  rw [h.offer_eq]
  by_cases taken : t.name ∈ calls.map (·.name)
  · rw [if_pos taken]
    refine ⟨h.ascending, fun name => ?_⟩
    rw [h.first, List.find?_append]
    cases found : calls.find? (·.name == name) with
    | some u => rfl
    | none =>
      -- The name of the rejected table is taken, so it is not the one that is missing.
      have other : t.name ≠ name := by
        rintro rfl
        exact find?_name_eq_none_iff.1 found taken
      simp [other]
  · rw [if_neg taken]
    have free : t.name ∉ r.tables.map (·.name) := mt h.mem_names_iff.1 taken
    refine ⟨ascending_place h.ascending free, fun name => ?_⟩
    show (place t r.tables).find? (·.name == name) = _
    rw [find?_place free, List.find?_append, List.find?_append]
    exact congrArg (Option.or · _) (h.first name)

theorem get_eq (h : Holds calls r) (name : String) :
    r.get name =
      match calls.find? (·.name == name) with
      | some t => .ok t
      | none => .error (.unknownTable name) := by
  rw [← h.first]
  rfl

theorem mem_tables_iff (h : Holds calls r) {t : Table} :
    t ∈ r.tables ↔ calls.find? (·.name == t.name) = some t := by
  have found_iff : r.get? t.name = some t ↔ t ∈ r.tables ∧ t.name = t.name :=
    find?_name_eq_some_iff h.ascending.nodup_names
  rw [← h.first, found_iff, and_iff_left rfl]

end Holds

/-- Whatever the calls were, the registry holds what it should. -/
theorem holds_reached (calls : List Table) : Holds calls (reached calls) := by
  induction calls using List.reverseRecOn with
  | nil => exact ⟨List.Pairwise.nil, fun _ => rfl⟩
  | append_singleton calls t ih =>
    rw [reached_concat]
    exact ih.offer t

theorem reached_concat_of_mem {calls : List Table} {t : Table}
    (taken : t.name ∈ calls.map (·.name)) : reached (calls ++ [t]) = reached calls := by
  rw [reached_concat, (holds_reached calls).offer_eq, if_pos taken]

theorem register_reached (calls : List Table) (t : Table) :
    (reached calls).register t =
      if t.name ∈ calls.map (·.name) then .error (.duplicateTable t.name)
      else .ok (reached (calls ++ [t])) := by
  rw [reached_concat, (holds_reached calls).register_eq, (holds_reached calls).offer_eq]
  split_ifs <;> rfl

/-! ## Many tables at once -/

theorem registerAll_reached {calls ts : List Table} {r : Registry} :
    (reached calls).registerAll ts = .ok r ↔
      ((ts.map (·.name)).Nodup ∧ ∀ t ∈ ts, t.name ∉ calls.map (·.name)) ∧
        r = reached (calls ++ ts) := by
  induction ts generalizing calls with
  | nil =>
    rw [List.append_nil]
    show Except.ok _ = Except.ok _ ↔ _
    simp [eq_comm]
  | cons t rest ih =>
    show (reached calls).register t >>= (registerAll · rest) = .ok r ↔ _
    rw [register_reached, bind_eq_ok_iff, List.map_cons, List.nodup_cons, List.forall_mem_cons]
    by_cases taken : t.name ∈ calls.map (·.name)
    · simp [taken]
    · rw [if_neg taken]
      constructor
      · rintro ⟨r', registered, others⟩
        cases registered
        obtain ⟨⟨distinct, fresh⟩, rfl⟩ := ih.1 others
        rw [List.append_assoc, List.singleton_append]
        refine ⟨⟨⟨fun again => ?_, distinct⟩, taken, fun u member again => ?_⟩, rfl⟩
        · obtain ⟨u, member, same⟩ := List.mem_map.1 again
          exact fresh u member (by simp [same])
        · exact fresh u member (by simp [again])
      · rintro ⟨⟨⟨apart, distinct⟩, -, fresh⟩, rfl⟩
        refine ⟨_, rfl, ih.2 ⟨⟨distinct, fun u member again => ?_⟩, by simp⟩⟩
        rw [List.map_append, List.mem_append, List.map_singleton, List.mem_singleton] at again
        rcases again with again | same
        · exact fresh u member again
        · exact apart (same ▸ List.mem_map_of_mem member)

theorem registerAll_reached_eq_error {calls ts : List Table} {fault : Fault}
    (h : (reached calls).registerAll ts = .error fault) :
    ∃ t ∈ ts, fault = .duplicateTable t.name := by
  induction ts generalizing calls with
  | nil => cases h
  | cons t rest ih =>
    change (reached calls).register t >>= (registerAll · rest) = .error fault at h
    rw [register_reached] at h
    split at h
    · cases h
      exact ⟨t, List.mem_cons_self, rfl⟩
    · obtain ⟨u, member, fault_eq⟩ := ih h
      exact ⟨u, List.mem_cons_of_mem _ member, fault_eq⟩

/-- Under different names, the order of the calls does not matter. -/
theorem reached_eq_of_perm {ts us : List Table} (distinct : (ts.map (·.name)).Nodup)
    (perm : ts.Perm us) : reached ts = reached us := by
  have distinct' : (us.map (·.name)).Nodup := (perm.map _).nodup_iff.1 distinct
  have same : (reached ts).tables = (reached us).tables := by
    refine (holds_reached ts).ascending.eq_of_mem_iff (holds_reached us).ascending fun t => ?_
    rw [(holds_reached ts).mem_tables_iff, (holds_reached us).mem_tables_iff,
      find?_name_eq_some_iff distinct, find?_name_eq_some_iff distinct', perm.mem_iff]
  exact congrArg Registry.mk same

/-! ## Loading -/

theorem load_eq {text : String} {docs : List Json} {tables : List Table}
    (read : Json.read? text = some (.array docs)) (valid : docs.mapM Table.ofJson? = some tables) :
    load text = ((reached []).registerAll tables).mapError .fault := by
  have denoted : (Json.read? text).bind (Json.asList? Table.ofJson?) = some tables := by
    rw [read]
    exact valid
  unfold load
  rw [denoted]
  rfl

theorem load_eq_ok_iff {text : String} {docs : List Json} {tables : List Table} {r : Registry}
    (read : Json.read? text = some (.array docs)) (valid : docs.mapM Table.ofJson? = some tables) :
    load text = .ok r ↔ (tables.map (·.name)).Nodup ∧ r = reached tables := by
  rw [load_eq read valid]
  cases registered : (reached []).registerAll tables with
  | ok r' =>
    obtain ⟨⟨distinct, -⟩, rfl⟩ := registerAll_reached.1 registered
    show Except.ok _ = Except.ok r ↔ _
    simp [distinct, eq_comm]
  | error fault =>
    refine iff_of_false (fun h => nomatch h) ?_
    rintro ⟨distinct, rfl⟩
    have succeeds : (reached []).registerAll tables = .ok (reached tables) :=
      registerAll_reached.2 ⟨⟨distinct, by simp⟩, rfl⟩
    rw [registered] at succeeds
    cases succeeds

/-- Tables that are read in another order are the same tables in another order. -/
theorem mapM_perm {docs docs' : List Json} {tables : List Table} (perm : docs.Perm docs')
    (valid : docs.mapM Table.ofJson? = some tables) :
    ∃ tables', docs'.mapM Table.ofJson? = some tables' ∧ tables.Perm tables' := by
  obtain ⟨each, rfl⟩ := mapM_eq_some_iff.1 valid
  refine ⟨_, mapM_eq_some_iff.2 ⟨fun doc member => ?_, rfl⟩, perm.filterMap _⟩
  exact each doc (perm.mem_iff.2 member)

/-- A registry that is reached by calls holds the first table of each name, under that
    name, in the ascending order of the names and of their bytes; a table is rejected if
    and only if its name is taken, and then nothing changes. So an array of tables can
    be loaded if and only if their names differ, and in any order it gives the same
    registry. -/
theorem reached_loads :
    (∀ calls : List Table,
      (∀ name, (reached calls).get name =
        match calls.find? (·.name == name) with
        | some t => .ok t
        | none => .error (.unknownTable name)) ∧
      (∀ t, t ∈ (reached calls).tables ↔ (reached calls).get t.name = .ok t) ∧
      (∀ t, (reached calls).register t =
        if t.name ∈ calls.map (·.name) then .error (.duplicateTable t.name)
        else .ok (reached (calls ++ [t]))) ∧
      (∀ t, t.name ∈ calls.map (·.name) → reached (calls ++ [t]) = reached calls) ∧
      ((reached calls).tables.map (·.name)).Pairwise (· < ·) ∧
      ((reached calls).tables.map fun t => Text.bytes t.name).Pairwise (· < ·)) ∧
    ∀ text docs tables, Json.read? text = some (.array docs) →
      docs.mapM Table.ofJson? = some tables →
      ((∃ r, load text = .ok r) ↔ (tables.map (·.name)).Nodup) ∧
      (∀ e, load text = .error e → ∃ t ∈ tables, e = .fault (.duplicateTable t.name)) ∧
      ∀ r, load text = .ok r → r = reached tables ∧
        ∀ text' docs', Json.read? text' = some (.array docs') → docs.Perm docs' →
          load text' = .ok r := by
  refine ⟨fun calls => ?_, fun text docs tables read valid => ⟨?_, ?_, ?_⟩⟩
  · have holds := holds_reached calls
    refine ⟨holds.get_eq, fun t => ?_, register_reached calls, fun t => reached_concat_of_mem,
      holds.ascending, ?_⟩
    · rw [holds.get_eq, holds.mem_tables_iff]
      cases calls.find? (·.name == t.name) with
      | none => simp
      | some u => simp
    · rw [List.pairwise_map]
      exact (List.pairwise_map.1 holds.ascending).imp Text.bytes_lt_bytes
  · constructor
    · rintro ⟨r, loaded⟩
      exact ((load_eq_ok_iff read valid).1 loaded).1
    · intro distinct
      exact ⟨_, (load_eq_ok_iff read valid).2 ⟨distinct, rfl⟩⟩
  · intro e failed
    rw [load_eq read valid] at failed
    cases registered : (reached []).registerAll tables with
    | ok r =>
      rw [registered] at failed
      cases failed
    | error fault =>
      rw [registered] at failed
      cases failed
      obtain ⟨t, member, rfl⟩ := registerAll_reached_eq_error registered
      exact ⟨t, member, rfl⟩
  · intro r loaded
    obtain ⟨distinct, rfl⟩ := (load_eq_ok_iff read valid).1 loaded
    refine ⟨rfl, fun text' docs' read' perm => ?_⟩
    obtain ⟨tables', valid', perm'⟩ := mapM_perm perm valid
    rw [load_eq_ok_iff read' valid', reached_eq_of_perm distinct perm']
    exact ⟨(perm'.map _).nodup_iff.1 distinct, rfl⟩

/-- A table without columns. -/
def ghost (name : String) : Table where
  name
  databaseName := none
  columns := []
  distinct := List.nodup_nil
  finite := by simp

/-- The text of an array of tables without columns. -/
def ghostsText (names : List String) : String :=
  (Json.array (names.map fun name => (ghost name).toJson)).render

theorem read?_ghostsText (names : List String) :
    Json.read? (ghostsText names) =
      some (.array (names.map fun name => (ghost name).toJson)) := by
  apply Json.read?_render
  refine Json.exactItems_iff.2 fun j member => ?_
  obtain ⟨name, -, rfl⟩ := List.mem_map.1 member
  exact TableSpec.exact_toJson (by simp [ghost, Table.spec])

/-- Two tables, one of them named by a character of four bytes, in both orders. -/
theorem ghostsText_loads :
    ∃ r, load (ghostsText ["🙂", "ｖ"]) = .ok r ∧ load (ghostsText ["ｖ", "🙂"]) = .ok r ∧
      r.tables.map (·.name) = ["ｖ", "🙂"] := by
  have valid : (["🙂", "ｖ"].map fun name => (ghost name).toJson).mapM Table.ofJson? =
      some [ghost "🙂", ghost "ｖ"] := Table.ofJson?_toJson.asList? [ghost "🙂", ghost "ｖ"]
  obtain ⟨loads_iff, -, loaded⟩ := reached_loads.2 _ _ _ (read?_ghostsText ["🙂", "ｖ"]) valid
  obtain ⟨r, loads⟩ := loads_iff.2 (by decide)
  obtain ⟨rfl, reordered⟩ := loaded r loads
  exact ⟨_, loads, reordered _ _ (read?_ghostsText ["ｖ", "🙂"]) (List.Perm.swap _ _ _), by decide⟩

end Registry

end Bindery
