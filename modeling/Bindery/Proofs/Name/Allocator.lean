import Bindery.Name.Allocator
import Bindery.Proofs.Text.Numeral
import Mathlib.Data.List.Nodup
import Mathlib.Data.List.Perm.Subperm
import Mathlib.Order.Bounds.Defs

/-!
# Names that are handed out

The search for a number starts behind the counter of its name and stops at the first
number that makes a new name. Names that one allocator hands out are therefore pairwise
different, whatever its counters are. That the number is the least one takes an
invariant: the numbers of a name up to its counter are all in use, by requests for the
name itself or for names that end in a numeral already.

* `Name.numbered_nextNumber_not_mem`: the number that is found makes a new name.
* `Name.le_length_of_numbered_mem`: names in use bound the numbers that are in use.
* `Name.Allocator.nodup_allocateAll`: the names for a list of requests.
* `Name.Allocator.Counted`: the invariant of the counters.
* `Name.Allocator.answers_least`: what the requests to a new allocator are answered.
-/

namespace Bindery.Name

/-! ## Numbered names -/

theorem numbered_injective (base : String) : Function.Injective (numbered base) := by
  intro i j h
  have letters := congrArg String.toList h
  rw [numbered, numbered, String.toList_append, String.toList_append] at letters
  have digits := List.append_cancel_left letters
  exact Text.ofNat_injective (String.toList_injective digits)

theorem numbered_ne (base : String) (k : Nat) : numbered base k ≠ base := by
  intro h
  have letters := congrArg String.toList h
  rw [numbered, String.toList_append, Text.ofNat, String.toList_ofList] at letters
  exact Text.decimal_ne_nil k (List.append_right_eq_self.1 letters)

/-- As different numbers make different names, there are not more numbers in use than
    names; the name without a number is one of them. -/
theorem le_length_of_numbered_mem {used : List String} {base : String} {k : Nat}
    (taken : base ∈ used) (inUse : ∀ j, 2 ≤ j → j < k → numbered base j ∈ used) :
    k ≤ used.length + 1 := by
  have distinct : (base :: (List.range' 2 (k - 2)).map (numbered base)).Nodup := by
    rw [List.nodup_cons]
    refine ⟨?_, List.Nodup.map (numbered_injective base) List.nodup_range'⟩
    intro again
    obtain ⟨j, -, same⟩ := List.mem_map.1 again
    exact numbered_ne base j same
  have within : base :: (List.range' 2 (k - 2)).map (numbered base) ⊆ used := by
    rw [List.cons_subset]
    refine ⟨taken, ?_⟩
    intro name hname
    obtain ⟨j, hj, rfl⟩ := List.mem_map.1 hname
    rw [List.mem_range'_1] at hj
    exact inUse j hj.1 (by omega)
  have count := (distinct.subperm within).length_le
  rw [List.length_cons, List.length_map, List.length_range'] at count
  omega

/-! ## The search for a number -/

section Search

variable (used : List String) (base : String) (counter : Nat)

theorem lt_nextNumber : counter < nextNumber used base counter := by
  fun_induction nextNumber used base counter with
  | case1 counter taken ih => omega
  | case2 counter free => omega

theorem numbered_nextNumber_not_mem : numbered base (nextNumber used base counter) ∉ used := by
  fun_induction nextNumber used base counter with
  | case1 counter taken ih => exact ih
  | case2 counter free => exact free

/-- The numbers that the search passes are in use. -/
theorem numbered_mem_of_lt_nextNumber {k : Nat} (above : counter < k)
    (below : k < nextNumber used base counter) : numbered base k ∈ used := by
  fun_induction nextNumber used base counter with
  | case1 counter taken ih =>
    by_cases next : k = counter + 1
    · rw [next]
      exact taken
    · exact ih (by omega) below
  | case2 counter free => omega

/-- The number that the search finds in `rounds` rounds at most, each of which tries one
    number. -/
def numberWithin : (rounds counter : Nat) → Option Nat
  | 0, _ => none
  | rounds + 1, counter =>
    if numbered base (counter + 1) ∈ used then numberWithin rounds (counter + 1)
    else some (counter + 1)

/-- The search takes as many rounds as there are numbers up to the one that it finds. -/
theorem numberWithin_eq {rounds : Nat} (enough : nextNumber used base counter ≤ counter + rounds) :
    numberWithin used base rounds counter = some (nextNumber used base counter) := by
  induction rounds generalizing counter with
  | zero =>
    have := lt_nextNumber used base counter
    omega
  | succ rounds ih =>
    rw [nextNumber] at enough ⊢
    rw [numberWithin]
    split
    · next taken =>
      rw [if_pos taken] at enough
      exact ih (counter + 1) (by omega)
    · rfl

end Search

namespace Allocator

/-! ## Requests one after the other -/

/-- A name that is handed out was not in use, and is from now on. -/
theorem allocate_spec (a : Allocator) (base : String) :
    (a.allocate base).1.1 ∉ a.used ∧
      (a.allocate base).2.used = a.used ++ [(a.allocate base).1.1] := by
  rw [allocate]
  split
  · exact ⟨numbered_nextNumber_not_mem a.used base (a.counter base), rfl⟩
  · next free => exact ⟨by simpa using free, rfl⟩

/-- The names for a list of requests, one after the other. -/
def allocateAll (a : Allocator) : List String → List String
  | [] => []
  | base :: rest => (a.allocate base).1.1 :: (a.allocate base).2.allocateAll rest

theorem not_mem_used_of_mem_allocateAll {a : Allocator} {bases : List String} {name : String}
    (h : name ∈ a.allocateAll bases) : name ∉ a.used := by
  induction bases generalizing a with
  | nil => cases h
  | cons base rest ih =>
    obtain ⟨fresh, used⟩ := a.allocate_spec base
    rcases List.mem_cons.1 h with rfl | later
    · exact fresh
    · intro earlier
      refine ih later ?_
      rw [used]
      exact List.mem_append_left _ earlier

theorem nodup_allocateAll (a : Allocator) (bases : List String) :
    (a.allocateAll bases).Nodup := by
  induction bases generalizing a with
  | nil => exact List.nodup_nil
  | cons base rest ih =>
    rw [allocateAll, List.nodup_cons]
    refine ⟨fun again => ?_, ih _⟩
    refine not_mem_used_of_mem_allocateAll again ?_
    rw [(a.allocate_spec base).2]
    exact List.mem_append_right _ (List.mem_singleton_self _)

/-- The answers to a list of requests: the names, and whether they were changed. -/
def answers (a : Allocator) : List String → List (String × Bool)
  | [] => []
  | base :: rest => (a.allocate base).1 :: (a.allocate base).2.answers rest

/-- The allocator behind a list of requests. -/
def after (a : Allocator) (bases : List String) : Allocator :=
  bases.foldl (fun a base => (a.allocate base).2) a

theorem names_answers (a : Allocator) (bases : List String) :
    (a.answers bases).map (·.1) = a.allocateAll bases := by
  induction bases generalizing a with
  | nil => rfl
  | cons base rest ih => rw [answers, allocateAll, List.map_cons, ih]

theorem length_answers (a : Allocator) (bases : List String) :
    (a.answers bases).length = bases.length := by
  induction bases generalizing a with
  | nil => rfl
  | cons base rest ih => rw [answers, List.length_cons, List.length_cons, ih]

theorem answers_append (a : Allocator) (before behind : List String) :
    a.answers (before ++ behind) = a.answers before ++ (a.after before).answers behind := by
  induction before generalizing a with
  | nil => rfl
  | cons base rest ih =>
    rw [List.cons_append, answers, answers, ih, List.cons_append]
    rfl

/-- The names in use are those that were handed out. -/
theorem used_after (a : Allocator) (bases : List String) :
    (a.after bases).used = a.used ++ (a.answers bases).map (·.1) := by
  induction bases generalizing a with
  | nil => exact (List.append_nil _).symm
  | cons base rest ih =>
    have next : (a.after (base :: rest)).used = ((a.allocate base).2.after rest).used := rfl
    rw [next, ih, (a.allocate_spec base).2, answers, List.map_cons, List.append_assoc,
      List.singleton_append]

/-! ## Counters -/

/-- The numbers of each name up to its counter are in use. -/
structure Counted (a : Allocator) : Prop where
  positive : ∀ base, 1 ≤ a.counter base
  inUse : ∀ base k, 2 ≤ k → k ≤ a.counter base → numbered base k ∈ a.used

theorem counted_empty : Counted {} where
  positive _ := Nat.le_refl 1
  inUse base k two below := by
    have one : k ≤ 1 := below
    omega

/-- The counter of a name moves to the number that is found, and the others stay. -/
theorem counter_cons (used : List String) (counters : List (String × Nat)) (base name : String)
    (k : Nat) :
    (Allocator.mk used ((base, k) :: counters)).counter name =
      if name = base then k else (Allocator.mk used counters).counter name := by
  unfold counter
  rw [List.lookup_cons]
  by_cases same : name = base
  · rw [if_pos same, beq_iff_eq.2 same]
    rfl
  · rw [if_neg same, beq_eq_false_iff_ne.2 same]

/-- The least number from two on with which `base` is not in use is the next one. -/
theorem Counted.isLeast_nextNumber {a : Allocator} (h : a.Counted) (base : String) :
    IsLeast {k | 2 ≤ k ∧ numbered base k ∉ a.used} (nextNumber a.used base (a.counter base)) := by
  have positive := h.positive base
  have above := lt_nextNumber a.used base (a.counter base)
  refine ⟨⟨by omega, numbered_nextNumber_not_mem a.used base (a.counter base)⟩, ?_⟩
  rintro k ⟨two, free⟩
  by_contra less
  by_cases counted : k ≤ a.counter base
  · exact free (h.inUse base k two counted)
  · refine free (numbered_mem_of_lt_nextNumber a.used base (a.counter base) ?_ ?_)
    · omega
    · omega

/-- One request keeps the counters right: the search for a number leaves none behind
    that is not in use. -/
theorem Counted.allocate {a : Allocator} (h : a.Counted) (base : String) :
    (a.allocate base).2.Counted := by
  rw [Allocator.allocate]
  split
  · refine ⟨fun name => ?_, fun name k two below => ?_⟩
    · rw [counter_cons]
      split
      · have := lt_nextNumber a.used base (a.counter base)
        omega
      · exact h.positive name
    · rw [counter_cons] at below
      rw [List.mem_append, List.mem_singleton]
      split at below
      · next same =>
        -- The number that is found is new, and those below it were in use already.
        rw [same]
        by_cases last : k = nextNumber a.used base (a.counter base)
        · right
          rw [last]
        · left
          by_contra free
          have least := (h.isLeast_nextNumber base).2 ⟨two, free⟩
          omega
      · exact .inl (h.inUse name k two below)
  · exact ⟨h.positive, fun name k two below => List.mem_append_left _ (h.inUse name k two below)⟩

theorem Counted.after {a : Allocator} (h : a.Counted) (bases : List String) :
    (a.after bases).Counted := by
  induction bases generalizing a with
  | nil => exact h
  | cons base rest ih => exact ih (h.allocate base)

/-! ## Answers -/

/-- The answer to a request for `base` behind the names `earlier`. A number is found in
    not more rounds than there are earlier names, by a search behind `counter`. -/
inductive Answered (earlier : List String) (counter : Nat) (base : String) : String × Bool → Prop
  | unchanged (free : base ∉ earlier) : Answered earlier counter base (base, false)
  | changed {k : Nat} (taken : base ∈ earlier)
      (least : IsLeast {k | 2 ≤ k ∧ numbered base k ∉ earlier} k)
      (stops : numberWithin earlier base earlier.length counter = some k) :
      Answered earlier counter base (numbered base k, true)

theorem Counted.answered {a : Allocator} (h : a.Counted) (base : String) :
    Answered a.used (a.counter base) base (a.allocate base).1 := by
  rw [Allocator.allocate]
  split
  · next inUse =>
    have taken : base ∈ a.used := by simpa using inUse
    have least := h.isLeast_nextNumber base
    refine .changed taken least (numberWithin_eq a.used base (a.counter base) ?_)
    -- All numbers below the least one are in use, so there are as many names.
    have few : nextNumber a.used base (a.counter base) ≤ a.used.length + 1 := by
      refine le_length_of_numbered_mem taken fun j two below => ?_
      by_contra free
      have := least.2 ⟨two, free⟩
      omega
    have positive := h.positive base
    omega
  · next free => exact .unchanged (by simpa using free)

/-- A new allocator hands out pairwise different names, one for each request of any list.
    A name that was not handed out before is given as it is; otherwise the least number
    from two on that makes it new is found, however the numbers before it came into
    use. -/
theorem answers_least (before : List String) (base : String) (behind : List String) :
    let start : Allocator := {}
    let names := fun bases => (start.answers bases).map (·.1)
    (names (before ++ base :: behind)).Nodup ∧
      ∃ answer later,
        start.answers (before ++ base :: behind) = start.answers before ++ answer :: later ∧
        later.length = behind.length ∧
        Answered (names before) ((start.after before).counter base) base answer := by
  intro start names
  have used : (start.after before).used = names before := used_after start before
  have answered := (counted_empty.after before).answered base
  refine ⟨?_, ((start.after before).allocate base).1, _, answers_append start before _,
    length_answers _ behind, ?_⟩
  · show ((start.answers (before ++ base :: behind)).map (·.1)).Nodup
    rw [names_answers]
    exact nodup_allocateAll start _
  · rw [← used]
    exact answered

example : ({} : Allocator).answers ["a2", "a", "a", "a", "a2"] =
    [("a2", false), ("a", false), ("a3", true), ("a4", true), ("a22", true)] := by cbv

end Allocator

end Bindery.Name
