import Bindery.Text.Numeral

/-!
# Unique names

Output names of one select are handed out by an allocator. A name that is still
free is given as it is; otherwise it gets a number, from two on, that makes it free:
`title`, `title2`, `title3`. Every name has a counter of its own, so that the search
for its next number goes on behind the number that was found last.

* `nextNumber`: the search for a number.
* `Allocator.allocate`: the name for a request.
-/

namespace Bindery.Name

/-- The names handed out so far, and the counters of names that were asked for
    again; the latest entry of a name counts (`NameAllocator`). -/
structure Allocator where
  used : List String := []
  counters : List (String × Nat) := []

/-- The name `base` with the number `k` behind it. -/
def numbered (base : String) (k : Nat) : String := base ++ Text.ofNat k

/-! ## Numbers -/

/-- The length of the longest of some names. -/
def longest (names : List String) : Nat := names.foldr (fun name bound => max name.length bound) 0

theorem length_le_longest {names : List String} {name : String} (h : name ∈ names) :
    name.length ≤ longest names := by
  induction names with
  | nil => cases h
  | cons first rest ih =>
    show name.length ≤ max first.length (longest rest)
    rcases List.mem_cons.1 h with rfl | later
    · exact Nat.le_max_left _ _
    · exact Nat.le_trans (ih later) (Nat.le_max_right _ _)

/-- The numbers in names that are in use are bounded, as the names are not longer than
    the longest of them. -/
theorem lt_of_numbered_mem {used : List String} {base : String} {k : Nat}
    (h : numbered base k ∈ used) : k < Nat.pow 10 (longest used) := by
  have length : (numbered base k).length = base.length + (Text.decimal k).length := by
    rw [numbered, String.length_append, Text.ofNat, String.length_ofList]
  have short : (Text.decimal k).length ≤ longest used := by
    have := length_le_longest h
    omega
  exact Nat.lt_of_lt_of_le (Text.lt_pow_length_decimal k) (Nat.pow_le_pow_right (by decide) short)

/-- The first number behind `counter` that makes `base` a name outside `used`
    (the loop of `NameAllocator::allocate`). -/
def nextNumber (used : List String) (base : String) (counter : Nat) : Nat :=
  if numbered base (counter + 1) ∈ used then nextNumber used base (counter + 1) else counter + 1
termination_by Nat.pow 10 (longest used) - counter
decreasing_by
  have := lt_of_numbered_mem ‹_›
  omega

/-! ## Requests -/

/-- The number that `base` got last. The name without a number counts as the first. -/
def Allocator.counter (a : Allocator) (base : String) : Nat := (a.counters.lookup base).getD 1

/-- A name that was not handed out before, and whether it differs from `base`
    (`NameAllocator::allocate`). -/
def Allocator.allocate (a : Allocator) (base : String) : (String × Bool) × Allocator :=
  if a.used.contains base then
    let k := nextNumber a.used base (a.counter base)
    let name := numbered base k
    ((name, true), ⟨a.used ++ [name], (base, k) :: a.counters⟩)
  else ((base, false), ⟨a.used ++ [base], a.counters⟩)

end Bindery.Name
