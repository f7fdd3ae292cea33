import Mathlib.Data.List.Forall2
import Mathlib.Data.List.Nodup

/-!
# Outcomes

A computation that may fail succeeds if and only if all its parts do, and fails
with the error of one of them. These lemmas take a computation apart, whatever its
errors are.
-/

namespace Bindery

variable {ε α β : Type}

theorem bind_eq_ok_iff {x : Except ε α} {f : α → Except ε β} {b : β} :
    x >>= f = .ok b ↔ ∃ a, x = .ok a ∧ f a = .ok b := by
  cases x with
  | error e => simp [bind, Except.bind]
  | ok a => simp [bind, Except.bind]

theorem bind_eq_error_iff {x : Except ε α} {f : α → Except ε β} {e : ε} :
    x >>= f = .error e ↔ x = .error e ∨ ∃ a, x = .ok a ∧ f a = .error e := by
  cases x with
  | error e => simp [bind, Except.bind]
  | ok a => simp [bind, Except.bind]

theorem pure_eq_ok_iff {a b : α} : (pure a : Except ε α) = .ok b ↔ a = b := by
  simp [pure, Except.pure]

theorem map_eq_ok_iff {x : Except ε α} {f : α → β} {b : β} :
    x.map f = .ok b ↔ ∃ a, x = .ok a ∧ f a = b := by
  cases x with
  | error e => simp [Except.map]
  | ok a => simp [Except.map]

theorem map_eq_error_iff {x : Except ε α} {f : α → β} {e : ε} :
    x.map f = .error e ↔ x = .error e := by
  cases x with
  | error e => simp [Except.map]
  | ok a => simp [Except.map]

/-- A list is mapped with success if and only if each of its members is. -/
theorem mapM_eq_ok_iff {f : α → Except ε β} {xs : List α} {ys : List β} :
    xs.mapM f = .ok ys ↔ List.Forall₂ (fun x y => f x = .ok y) xs ys := by
  induction xs generalizing ys with
  | nil => rw [List.mapM_nil, pure_eq_ok_iff, List.forall₂_nil_left_iff, eq_comm]
  | cons x xs ih =>
    simp only [List.mapM_cons, bind_eq_ok_iff, pure_eq_ok_iff, List.forall₂_cons_left_iff, ih]
    constructor
    · rintro ⟨y, hy, ys, hys, rfl⟩
      exact ⟨y, ys, hy, hys, rfl⟩
    · rintro ⟨y, ys, hy, hys, rfl⟩
      exact ⟨y, hy, ys, hys, rfl⟩

/-- A list can be mapped if and only if each of its members can. -/
theorem exists_mapM_eq_ok_iff {f : α → Except ε β} {xs : List α} :
    (∃ ys, xs.mapM f = .ok ys) ↔ ∀ x ∈ xs, ∃ y, f x = .ok y := by
  induction xs with
  | nil => simp [pure_eq_ok_iff]
  | cons x xs ih =>
    rw [List.forall_mem_cons, ← ih]
    simp only [List.mapM_cons, bind_eq_ok_iff, pure_eq_ok_iff]
    constructor
    · rintro ⟨_, y, hy, ys, hys, rfl⟩
      exact ⟨⟨y, hy⟩, ys, hys⟩
    · rintro ⟨⟨y, hy⟩, ys, hys⟩
      exact ⟨_, y, hy, ys, hys, rfl⟩

theorem mapM_map_eq_ok_iff {γ : Type} {f : α → Except ε β} {g : β → γ} {xs : List α}
    {zs : List γ} :
    xs.mapM (fun x => (f x).map g) = .ok zs ↔ ∃ ys, xs.mapM f = .ok ys ∧ zs = ys.map g := by
  induction xs generalizing zs with
  | nil =>
    simp only [List.mapM_nil, pure_eq_ok_iff]
    constructor
    · rintro rfl
      exact ⟨[], rfl, rfl⟩
    · rintro ⟨_, rfl, rfl⟩
      rfl
  | cons x xs ih =>
    simp only [List.mapM_cons, bind_eq_ok_iff, pure_eq_ok_iff, map_eq_ok_iff, ih]
    constructor
    · rintro ⟨_, ⟨y, hy, rfl⟩, _, ⟨ys, hys, rfl⟩, rfl⟩
      exact ⟨y :: ys, ⟨y, hy, ys, hys, rfl⟩, rfl⟩
    · rintro ⟨_, ⟨y, hy, ys, hys, rfl⟩, rfl⟩
      exact ⟨_, ⟨y, hy, rfl⟩, _, ⟨ys, hys, rfl⟩, rfl⟩

/-- What members of a list pass to their counterparts holds of all counterparts. -/
theorem forall_of_forall₂ {R : α → β → Prop} {P : β → Prop} {xs : List α} {ys : List β}
    (each : ∀ x ∈ xs, ∀ y, R x y → P y) (h : List.Forall₂ R xs ys) : ∀ y ∈ ys, P y := by
  induction h with
  | nil => simp
  | cons hx _ ih =>
    rw [List.forall_mem_cons]
    exact ⟨each _ (by simp) _ hx, ih fun x hx => each x (by simp [hx])⟩

theorem exists_of_mem_mapM {f : α → Except ε β} {xs : List α} {ys : List β}
    (h : xs.mapM f = .ok ys) {y : β} (hy : y ∈ ys) : ∃ x ∈ xs, f x = .ok y := by
  induction mapM_eq_ok_iff.1 h with
  | nil => cases hy
  | cons hx hrest ih =>
    rcases List.mem_cons.1 hy with rfl | hy
    · exact ⟨_, by simp, hx⟩
    · obtain ⟨x, member, hx⟩ := ih (mapM_eq_ok_iff.2 hrest) hy
      exact ⟨x, List.mem_cons_of_mem _ member, hx⟩

/-- A list that is mapped into an error has a member that is. -/
theorem exists_of_mapM_eq_error {f : α → Except ε β} {xs : List α} {e : ε}
    (h : xs.mapM f = .error e) : ∃ x ∈ xs, f x = .error e := by
  induction xs with
  | nil => cases h
  | cons x rest ih =>
    rw [List.mapM_cons, bind_eq_error_iff] at h
    rcases h with hx | ⟨y, -, h₁⟩
    · exact ⟨x, by simp, hx⟩
    · rcases bind_eq_error_iff.1 h₁ with hrest | ⟨ys, -, h₂⟩
      · obtain ⟨x', member, hx'⟩ := ih hrest
        exact ⟨x', List.mem_cons_of_mem _ member, hx'⟩
      · cases h₂

theorem mapM_eq_some {f : α → Option β} {g : α → β} {xs : List α}
    (h : ∀ x ∈ xs, f x = some (g x)) : xs.mapM f = some (xs.map g) := by
  induction xs with
  | nil => rfl
  | cons x xs ih =>
    obtain ⟨first, others⟩ := List.forall_mem_cons.1 h
    rw [List.mapM_cons, first, ih others]
    rfl

/-- A list is mapped with success if each of its members is, and then to what these
    are mapped to. -/
theorem mapM_eq_some_iff {f : α → Option β} {xs : List α} {ys : List β} :
    xs.mapM f = some ys ↔ (∀ x ∈ xs, (f x).isSome = true) ∧ ys = xs.filterMap f := by
  induction xs generalizing ys with
  | nil =>
    rw [List.mapM_nil, List.filterMap_nil]
    show some [] = some ys ↔ _
    rw [Option.some_inj, eq_comm]
    simp
  | cons x xs ih =>
    rw [List.mapM_cons, List.forall_mem_cons]
    cases hx : f x with
    | none => simp
    | some y =>
      rw [List.filterMap_cons_some hx]
      show (xs.mapM f).bind (fun rest => some (y :: rest)) = some ys ↔ _
      rw [Option.bind_eq_some_iff]
      constructor
      · rintro ⟨rest, mapped, made⟩
        obtain ⟨each, rfl⟩ := ih.1 mapped
        exact ⟨⟨rfl, each⟩, (Option.some.inj made).symm⟩
      · rintro ⟨⟨-, each⟩, rfl⟩
        exact ⟨_, ih.2 ⟨each, rfl⟩, rfl⟩

/-! ## Searches by name -/

section Named

variable {name : α → String} {xs : List α} {wanted : String}

theorem find?_name_eq_none_iff : xs.find? (name · == wanted) = none ↔ wanted ∉ xs.map name := by
  simp [List.find?_eq_none]

theorem of_find?_name_eq_some {x : α} (h : xs.find? (name · == wanted) = some x) :
    x ∈ xs ∧ name x = wanted :=
  ⟨List.mem_of_find?_eq_some h, by simpa using List.find?_some h⟩

/-- Under different names, each member is found by its own. -/
theorem find?_name_eq_some_iff (distinct : (xs.map name).Nodup) {x : α} :
    xs.find? (name · == wanted) = some x ↔ x ∈ xs ∧ name x = wanted := by
  refine ⟨of_find?_name_eq_some, ?_⟩
  rintro ⟨member, rfl⟩
  cases found : xs.find? (name · == name x) with
  | none => exact absurd (List.mem_map_of_mem member) (find?_name_eq_none_iff.1 found)
  | some y =>
    obtain ⟨member', same⟩ := of_find?_name_eq_some found
    exact congrArg some (List.inj_on_of_nodup_map distinct member' member same)

end Named

/-! ## Outcomes side by side -/

/-- Two outcomes with the same error, or with results that are related. -/
inductive Alike (R : α → β → Prop) : Except ε α → Except ε β → Prop
  | ok {a : α} {b : β} (related : R a b) : Alike R (.ok a) (.ok b)
  | error (e : ε) : Alike R (.error e) (.error e)

theorem Alike.of_eq {R : α → α → Prop} (refl : ∀ a, R a a) {x y : Except ε α} (h : x = y) :
    Alike R x y := by
  subst h
  cases x with
  | error e => exact .error e
  | ok a => exact .ok (refl a)

/-- Computations that go on alike from related results stay alike. -/
theorem Alike.bind {γ δ : Type} {R : α → β → Prop} {S : γ → δ → Prop} {x : Except ε α}
    {y : Except ε β} {f : α → Except ε γ} {g : β → Except ε δ} (h : Alike R x y)
    (next : ∀ a b, R a b → Alike S (f a) (g b)) : Alike S (x >>= f) (y >>= g) := by
  cases h with
  | ok related => exact next _ _ related
  | error e => exact .error e

end Bindery
