import Bindery.Fault
import Bindery.Statement.Basic

/-!
# Drafts

A draft is a statement in the making: the pieces written so far and a result,
or the fault that ended the writing. Whoever settles a draft learns the fault
that comes first in the order of the text, be it the one that ended the writing
or a parameter that was used with two types before. There is a draft for each
`SqlWriter`; it is handed no dialect, and the writer follows it.

* `Draft.settle`: the result and the statement of a draft without faults.
-/

namespace Bindery

/-- Pieces written so far, and a result or the fault that ended the writing. -/
structure Draft (α : Type) where
  pieces : List Piece
  result : Except Fault α

namespace Draft

/-- The draft that goes on with `f`, unless a fault ended it. -/
def andThen {α β : Type} (x : Draft α) (f : α → Draft β) : Draft β :=
  match x.result with
  | .ok a => ⟨x.pieces ++ (f a).pieces, (f a).result⟩
  | .error fault => ⟨x.pieces, .error fault⟩

instance : Monad Draft where
  pure a := ⟨[], .ok a⟩
  bind := andThen

@[simp] theorem pieces_pure {α : Type} (a : α) : (pure a : Draft α).pieces = [] := rfl

@[simp] theorem result_pure {α : Type} (a : α) : (pure a : Draft α).result = .ok a := rfl

theorem bind_of_ok {α β : Type} {x : Draft α} {a : α} (h : x.result = .ok a) (f : α → Draft β) :
    x >>= f = ⟨x.pieces ++ (f a).pieces, (f a).result⟩ := by
  show x.andThen f = _
  rw [andThen, h]

theorem bind_of_error {α β : Type} {x : Draft α} {fault : Fault} (h : x.result = .error fault)
    (f : α → Draft β) : x >>= f = ⟨x.pieces, .error fault⟩ := by
  show x.andThen f = _
  rw [andThen, h]

/-- A result of which nothing is written. -/
def ofExcept {α : Type} (r : Except Fault α) : Draft α := ⟨[], r⟩

instance : MonadLift (Except Fault) Draft := ⟨ofExcept⟩

/-- The fault that ends the writing. -/
def fail {α : Type} (fault : Fault) : Draft α := ⟨[], .error fault⟩

/-- Pieces that are written. -/
def write (ps : List Piece) : Draft Unit := ⟨ps, .ok ()⟩

/-- Drafts one after the other, with SQL between every two. -/
def separated (separator : String) : List (Draft Unit) → Draft Unit
  | [] => pure ()
  | [x] => x
  | x :: rest => do
    x
    write [.text separator]
    separated separator rest

/-- The result and the statement, or the first fault in the order of the
    text. -/
def settle {α : Type} (x : Draft α) : Except Fault (α × Statement) :=
  match conflict? (Statement.mk x.pieces).bindings with
  | some name => .error (.conflictingParam name)
  | none => x.result.map fun a => (a, ⟨x.pieces⟩)

theorem settle_eq_ok_iff {α : Type} {x : Draft α} {a : α} {s : Statement} :
    x.settle = .ok (a, s) ↔
      conflict? (Statement.mk x.pieces).bindings = none ∧ x.result = .ok a ∧ s = ⟨x.pieces⟩ := by
  rw [settle]
  cases conflict? (Statement.mk x.pieces).bindings with
  | some name => simp
  | none =>
    cases x.result with
    | error fault => simp [Except.map]
    | ok b => simp [Except.map, eq_comm]

end Draft

end Bindery
