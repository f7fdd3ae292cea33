import Bindery.Proofs.Code.Call

/-!
# Claimed arguments

The arguments of a method are claimed one by one, each with the identifier of its
parameter. The names that are taken may be kept in any order, the handle is among them,
and a name that is not found stands for itself. The search for an identifier is right
nevertheless: a name has one spelling, so no two arguments are for one name, and a
parameter that is called like the handle is refused.

* `Claimed`: the arguments of a method, each with the identifier of its parameter.
* `takenNames`, `searchNames`: the names that are taken, and the search among them.
* `Claimed.searchNames_eq`: in any order it ends at the identifier that is declared.
* `Spelling`: a spelling for the names that a method speaks of.
-/

namespace Bindery.Code

/-! ## Claimed arguments -/

/-- Arguments for parameters, next to a handle: each has the identifier of its parameter,
    and no identifier is taken twice. -/
structure Claimed (handle : String) (params : List Variable) (args : List Argument) : Prop where
  params : args.map (fun a => Variable.mk a.source a.type) = params
  distinct : (args.map (·.ident)).Nodup
  spelled : ∀ a ∈ args, Name.identifier a.source = .ok a.ident
  apart : ∀ a ∈ args, a.ident ≠ handle

theorem ne_of_takenBy?_eq_none {handle ident : String} {earlier : List Argument}
    (free : takenBy? handle earlier ident = none) : ident ≠ handle := by
  intro own
  unfold takenBy? at free
  rw [if_pos own] at free
  cases free

/-- Every argument is spelled like its parameter and unlike the handle. -/
theorem spelled_of_claimFrom {handle : String} {earlier args : List Argument}
    {params : List Variable} (h : claimFrom handle earlier params = .ok args)
    (before : ∀ a ∈ earlier, Name.identifier a.source = .ok a.ident ∧ a.ident ≠ handle) :
    ∀ a ∈ args, Name.identifier a.source = .ok a.ident ∧ a.ident ≠ handle := by
  induction params generalizing earlier with
  | nil =>
    cases h
    exact before
  | cons v rest ih =>
    unfold claimFrom at h
    obtain ⟨ident, spelled, h₁⟩ := bind_eq_ok_iff.1 h
    split at h₁
    · cases h₁
    · next free =>
      apply ih h₁
      intro a member
      rcases List.mem_append.1 member with member | member
      · exact before a member
      · obtain rfl := List.mem_singleton.1 member
        exact ⟨spelled, ne_of_takenBy?_eq_none free⟩

theorem claimed_of_claimArguments {handle : String} {params : List Variable} {args : List Argument}
    (h : claimArguments handle params = .ok args) : Claimed handle params args := by
  obtain ⟨params_eq, distinct⟩ := claimArguments_eq_ok h
  have each := spelled_of_claimFrom h (by simp)
  exact ⟨params_eq, distinct, fun a member => (each a member).1, fun a member => (each a member).2⟩

/-! ## The search for an identifier -/

/-- The identifiers that are taken in a method, each with the name it is taken for. -/
def takenNames (handle : String) (args : List Argument) : List (String × String) :=
  (handle, handle) :: args.map fun a => (a.ident, a.source)

/-- The first identifier that is taken for a name; a name without one stands for itself. -/
def searchNames (names : List (String × String)) (source : String) : String :=
  ((names.find? (·.2 == source)).map (·.1)).getD source

namespace Claimed

variable {handle : String} {params : List Variable} {args : List Argument}

/-- Two arguments have one identifier if and only if they are for one name. -/
theorem ident_eq_iff (h : Claimed handle params args) {a a' : Argument} (member : a ∈ args)
    (member' : a' ∈ args) : a.ident = a'.ident ↔ a.source = a'.source := by
  constructor
  · intro same
    rw [List.inj_on_of_nodup_map h.distinct member member' same]
  · intro same
    have spelled := h.spelled a member
    rw [same, h.spelled a' member'] at spelled
    exact (Except.ok.inj spelled).symm

theorem nodup_sources (h : Claimed handle params args) : (args.map (·.source)).Nodup := by
  have idents := h.distinct
  unfold List.Nodup at idents ⊢
  rw [List.pairwise_map] at idents ⊢
  apply idents.imp_of_mem
  intro a a' member member' differ same
  exact differ ((h.ident_eq_iff member member').2 same)

/-- No parameter is called like the handle, if the handle is spelled as an identifier. -/
theorem source_ne (h : Claimed handle params args) (own : Name.identifier handle = .ok handle)
    {a : Argument} (member : a ∈ args) : a.source ≠ handle := by
  intro same
  have spelled := h.spelled a member
  rw [same, own] at spelled
  exact h.apart a member (Except.ok.inj spelled).symm

/-- In whatever order the taken names are kept, the search for the name of a parameter
    ends at its identifier. -/
theorem searchNames_eq (h : Claimed handle params args) (own : Name.identifier handle = .ok handle)
    {names : List (String × String)} (order : names.Perm (takenNames handle args)) {a : Argument}
    (member : a ∈ args) : searchNames names a.source = a.ident := by
  have distinct : (names.map (·.2)).Nodup := by
    rw [(order.map (·.2)).nodup_iff]
    unfold takenNames
    rw [List.map_cons, List.map_map, List.nodup_cons]
    refine ⟨?_, h.nodup_sources⟩
    intro taken
    obtain ⟨a', member', same⟩ := List.mem_map.1 taken
    exact h.source_ne own member' same
  have listed : (a.ident, a.source) ∈ names := by
    rw [order.mem_iff]
    exact List.mem_cons_of_mem _ (List.mem_map_of_mem (f := fun a => (a.ident, a.source)) member)
  have found : names.find? (·.2 == a.source) = some (a.ident, a.source) :=
    (find?_name_eq_some_iff distinct).2 ⟨listed, rfl⟩
  unfold searchNames
  rw [found]
  rfl

theorem identifierOf_eq (h : Claimed handle params args) {a : Argument} (member : a ∈ args) :
    identifierOf args a.source = a.ident := by
  have found : args.find? (·.source == a.source) = some a :=
    (find?_name_eq_some_iff h.nodup_sources).2 ⟨member, rfl⟩
  unfold identifierOf
  rw [found]
  rfl

theorem exists_of_mem_names (h : Claimed handle params args) {name : String}
    (member : name ∈ params.map (·.name)) : ∃ a ∈ args, a.source = name := by
  rw [← h.params, List.map_map] at member
  exact List.mem_map.1 member

theorem exists_argument (h : Claimed handle params args) {v : Variable} (member : v ∈ params) :
    ∃ a ∈ args, a.source = v.name ∧ identifierOf args v.name = a.ident := by
  obtain ⟨a, among, same⟩ := h.exists_of_mem_names (List.mem_map_of_mem member)
  have found := h.identifierOf_eq among
  rw [same] at found
  exact ⟨a, among, same, found⟩

end Claimed

/-! ## Spellings -/

/-- A spelling for the parameters of a method next to a handle. It gives each of them the
    identifier of its name, no identifier twice and none that is the handle, and covers the
    arguments that the sources of placeholders ask for. In whatever order the taken names
    are kept, a search among them spells a parameter the same. -/
structure Spelling (handle : String) (params : List Variable)
    (sources : List (List ArgumentSource)) (spell : String → String) : Prop where
  identified : ∀ v ∈ params, Name.identifier v.name = .ok (spell v.name)
  distinct : (params.map fun v => spell v.name).Nodup
  apart : ∀ v ∈ params, spell v.name ≠ handle
  covers : ∀ s ∈ sources, ∀ name, .caller name ∈ s → name ∈ params.map (·.name)
  searched : ∀ names, names.Perm ((handle, handle) :: params.map fun v => (spell v.name, v.name)) →
    ∀ v ∈ params, searchNames names v.name = spell v.name

/-- The identifiers of claimed arguments are a spelling. -/
theorem Claimed.spelling {handle : String} {params : List Variable} {args : List Argument}
    (h : Claimed handle params args) (own : Name.identifier handle = .ok handle)
    {sources : List (List ArgumentSource)}
    (listed : ∀ s ∈ sources, ∀ name, .caller name ∈ s → name ∈ params.map (·.name)) :
    Spelling handle params sources (identifierOf args) := by
  have taken : (params.map fun v => (identifierOf args v.name, v.name)) =
      args.map fun a => (a.ident, a.source) := by
    rw [← h.params, List.map_map]
    exact List.map_congr_left fun a member => Prod.ext (h.identifierOf_eq member) rfl
  have idents : (params.map fun v => identifierOf args v.name) = args.map (·.ident) := by
    rw [← h.params, List.map_map]
    exact List.map_congr_left fun a member => h.identifierOf_eq member
  refine ⟨?_, idents ▸ h.distinct, ?_, listed, ?_⟩
  · intro v member
    obtain ⟨a, among, same, found⟩ := h.exists_argument member
    rw [found, ← same]
    exact h.spelled a among
  · intro v member
    obtain ⟨a, among, -, found⟩ := h.exists_argument member
    rw [found]
    exact h.apart a among
  · intro names order v member
    obtain ⟨a, among, same, found⟩ := h.exists_argument member
    rw [taken] at order
    rw [found, ← same]
    exact h.searchNames_eq own order among

end Bindery.Code
