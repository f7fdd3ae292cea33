import Bindery.Action.Condition
import Bindery.Proofs.Text.Token
import Mathlib.Order.BoundedOrder.Lattice

/-!
# Formulas of SQL

How a database reads the condition of a statement. A comparison is an operator between
two operands or behind one. Comparisons are joined by `AND`, which binds tighter, and by
`OR`, and parentheses hold a formula together against both.

* `Comparison.read`: the comparison that tokens begin with.
* `Formula.readChain`: the formula that tokens begin with, on the level of a connective.
* `Formula.truth`: the truth value of a formula, if its comparisons are given theirs.
-/

namespace Bindery

open Token

/-! ## Operands -/

/-- Words that are no operand. -/
def reservedWords : List String := ["AND", "OR", "NOT", "LIKE", "IS"]

/-- Whether a token is an operand on its own. -/
def Token.isOperand : Token → Bool
  | .word w => !reservedWords.contains w
  | .symbol _ => false
  | .number _ | .identifier _ | .string _ | .binary _ | .placeholder => true

/-- The tokens of an operand: a name or literal, a name behind the label of its table, or a
    literal behind its sign. -/
inductive Operand.Form : List Token → Prop
  | single {t : Token} (h : t.isOperand = true) : Form [t]
  | place (label name : String) : Form [.identifier label, .symbol '.', .identifier name]
  | signed {t : Token} (h : t.isOperand = true) : Form [.symbol '-', t]

/-- The operand that tokens begin with, and what comes behind it. -/
def Operand.read : List Token → Option (List Token × List Token)
  | .identifier label :: .symbol '.' :: .identifier name :: rest =>
    some ([.identifier label, .symbol '.', .identifier name], rest)
  | .symbol '-' :: t :: rest => if t.isOperand then some ([.symbol '-', t], rest) else none
  | t :: rest => if t.isOperand then some ([t], rest) else none
  | [] => none

theorem Operand.Form.read {ts rest : List Token} (h : Operand.Form ts)
    (apart : rest.head? ≠ some (.symbol '.')) : Operand.read (ts ++ rest) = some (ts, rest) := by
  cases h with
  | place label name => rfl
  | signed h => exact if_pos h
  | @single t h =>
    unfold Operand.read
    split
    · next eq =>
      obtain ⟨-, rfl⟩ := List.cons.inj eq
      exact absurd rfl apart
    · next eq =>
      obtain ⟨rfl, -⟩ := List.cons.inj eq
      cases h
    · next eq =>
      obtain ⟨rfl, rfl⟩ := List.cons.inj eq
      exact if_pos h
    · next eq => cases eq

/-- An operand begins with no symbol but a sign. -/
theorem Operand.Form.head?_ne {ts : List Token} (h : Operand.Form ts) (rest : List Token) {c : Char}
    (other : c ≠ '-') : (ts ++ rest).head? ≠ some (.symbol c) := by
  cases h with
  | place label name => simp
  | signed h => simpa using other.symm
  | single h =>
    rintro head
    cases head
    cases h

/-! ## Comparisons -/

/-- Whether an operator has one operand only. -/
def Operator.isUnary : Operator → Bool
  | .isNull | .isNotNull => true
  | .eq | .notEq | .lt | .ltEq | .gt | .gtEq | .like => false

/-- The tokens of an operator. -/
def Operator.tokens : Operator → List Token
  | .eq => [.symbol '=']
  | .notEq => [.symbol '<', .symbol '>']
  | .lt => [.symbol '<']
  | .ltEq => [.symbol '<', .symbol '=']
  | .gt => [.symbol '>']
  | .gtEq => [.symbol '>', .symbol '=']
  | .like => [.word "LIKE"]
  | .isNull => [.word "IS", .word "NULL"]
  | .isNotNull => [.word "IS", .word "NOT", .word "NULL"]

/-- The operator that tokens begin with, and what comes behind it. -/
def Operator.read : List Token → Option (Operator × List Token)
  | .symbol '<' :: .symbol '>' :: rest => some (.notEq, rest)
  | .symbol '<' :: .symbol '=' :: rest => some (.ltEq, rest)
  | .symbol '>' :: .symbol '=' :: rest => some (.gtEq, rest)
  | .symbol '=' :: rest => some (.eq, rest)
  | .symbol '<' :: rest => some (.lt, rest)
  | .symbol '>' :: rest => some (.gt, rest)
  | .word "LIKE" :: rest => some (.like, rest)
  | .word "IS" :: .word "NULL" :: rest => some (.isNull, rest)
  | .word "IS" :: .word "NOT" :: .word "NULL" :: rest => some (.isNotNull, rest)
  | _ => none

theorem Operator.read_tokens (op : Operator) {rest : List Token}
    (apart : rest.head? ≠ some (.symbol '>') ∧ rest.head? ≠ some (.symbol '=')) :
    Operator.read (op.tokens ++ rest) = some (op, rest) := by
  obtain ⟨greater, equal⟩ := apart
  cases op with
  | lt | gt =>
    -- only here might the next token belong to the operator
    unfold Operator.read tokens
    split <;> simp_all
  | _ => rfl

/-- A comparison: the operands and the operator between them or behind the only one. -/
structure Comparison where
  left : List Token
  op : Operator
  right : Option (List Token)
  deriving DecidableEq

/-- The comparison that tokens begin with, and what comes behind it. -/
def Comparison.read (ts : List Token) : Option (Comparison × List Token) := do
  let (left, ts) ← Operand.read ts
  let (op, ts) ← Operator.read ts
  if op.isUnary then return (⟨left, op, none⟩, ts)
  let (right, ts) ← Operand.read ts
  return (⟨left, op, some right⟩, ts)

/-- The tokens of a comparison. -/
def Comparison.tokens (c : Comparison) : List Token := c.left ++ (c.op.tokens ++ c.right.getD [])

/-- A comparison with the operands that its operator asks for. -/
inductive Comparison.Form : Comparison → Prop
  | unary {left : List Token} {op : Operator} (operand : Operand.Form left)
    (behind : op.isUnary = true) : Form ⟨left, op, none⟩
  | binary {left right : List Token} {op : Operator} (first : Operand.Form left)
    (between : op.isUnary = false) (second : Operand.Form right) : Form ⟨left, op, some right⟩

theorem Operator.head?_tokens_ne (op : Operator) (rest : List Token) :
    (op.tokens ++ rest).head? ≠ some (.symbol '.') := by
  cases op <;> simp [tokens]

theorem Comparison.Form.read {c : Comparison} (h : c.Form) {rest : List Token}
    (apart : ∀ x, rest.head? = some (.symbol x) → x = ')') :
    Comparison.read (c.tokens ++ rest) = some (c, rest) := by
  have next : ∀ x ≠ ')', rest.head? ≠ some (.symbol x) := fun x hx head => hx (apart x head)
  cases h with
  | @unary left op operand behind =>
    have first := operand.read (op.head?_tokens_ne rest)
    have middle := op.read_tokens ⟨next '>' (by decide), next '=' (by decide)⟩
    simp [Comparison.read, tokens, first, middle, behind]
  | @binary left right op first between second =>
    have left_read := first.read (op.head?_tokens_ne (right ++ rest))
    have middle := op.read_tokens
      ⟨second.head?_ne rest (show '>' ≠ '-' by decide), second.head?_ne rest (by decide)⟩
    have right_read := second.read (next '.' (by decide))
    simp [Comparison.read, tokens, left_read, middle, between, right_read]

/-- A comparison begins with no symbol but a sign, so with no parenthesis. -/
theorem Comparison.Form.head?_ne {c : Comparison} (h : c.Form) (rest : List Token) :
    (c.tokens ++ rest).head? ≠ some (.symbol '(') := by
  unfold tokens
  rw [List.append_assoc]
  cases h with
  | unary operand behind => exact operand.head?_ne _ (by decide)
  | binary first between second => exact first.head?_ne _ (by decide)

/-! ## Formulas -/

/-- The keyword of a connective. -/
def Connective.keyword : Connective → String
  | .and => "AND"
  | .or => "OR"

/-- Comparisons that are joined by connectives. -/
inductive Formula where
  | comparison (c : Comparison)
  | connect (k : Connective) (left right : Formula)

namespace Formula

/-- How loosely a connective binds. -/
def looseness : Connective → Nat
  | .and => 0
  | .or => 1

mutual

/-- The formula that tokens begin with whose parts are joined by the connective, and what
    comes behind it. -/
def readChain (k : Connective) (ts : List Token) : Option (Formula × List Token) :=
  match readLink k ts with
  | some (a, .word w :: behind) =>
    if _h : w = k.keyword ∧ behind.length < ts.length then
      (readChain k behind).map fun p => (.connect k a p.1, p.2)
    else some (a, .word w :: behind)
  | read => read
termination_by (ts.length, 2 * looseness k + 1)

/-- A part of such a formula: under `OR` a formula joined by `AND`, and under `AND` a
    comparison or a formula between parentheses. -/
def readLink (k : Connective) (ts : List Token) : Option (Formula × List Token) :=
  match k, ts with
  | .or, ts => readChain .and ts
  | .and, .symbol '(' :: inner =>
    match readChain .or inner with
    | some (a, .symbol ')' :: behind) => some (a, behind)
    | _ => none
  | .and, ts => (Comparison.read ts).map fun p => (.comparison p.1, p.2)
termination_by (ts.length, 2 * looseness k)
decreasing_by
  · exact Prod.Lex.right _ (by decide)
  · exact Prod.Lex.left _ _ (by simp)

end

/-- The rest of a text in which a comparison or a group ended. -/
def Ends (rest : List Token) : Prop :=
  ∀ t, rest.head? = some t → t ∈ [.symbol ')', .word "AND", .word "OR"]

/-- The rest of a text in which all of a group ended. -/
def Closes (rest : List Token) : Prop := ∀ t, rest.head? = some t → t = .symbol ')'

theorem Closes.ends {rest : List Token} (h : Closes rest) : Ends rest := by
  intro t head
  rw [h t head]
  decide

theorem Closes.head?_ne {rest : List Token} (h : Closes rest) (w : String) :
    rest.head? ≠ some (.word w) := by
  intro head
  cases h _ head

theorem ends_keyword (k : Connective) (rest : List Token) : Ends (.word k.keyword :: rest) := by
  rintro _ ⟨⟩
  cases k <;> decide

theorem closes_nil : Closes [] := by
  rintro _ ⟨⟩

theorem closes_parenthesis (rest : List Token) : Closes (.symbol ')' :: rest) := by
  rintro _ ⟨⟩
  rfl

variable {k : Connective} {ts rest behind inner : List Token} {a b : Formula}

theorem readChain_of_readLink (h : readLink k ts = some (a, rest))
    (last : rest.head? ≠ some (.word k.keyword)) : readChain k ts = some (a, rest) := by
  rw [readChain, h]
  split
  · next w behind eq =>
    cases eq
    rw [dif_neg]
    rintro ⟨rfl, -⟩
    exact last rfl
  · rfl

theorem readChain_connect (h : readLink k ts = some (a, .word k.keyword :: behind))
    (shorter : behind.length < ts.length) (later : readChain k behind = some (b, rest)) :
    readChain k ts = some (.connect k a b, rest) := by
  rw [readChain, h]
  dsimp only
  rw [dif_pos ⟨rfl, shorter⟩, later, Option.map_some]

theorem readLink_or (ts : List Token) : readLink .or ts = readChain .and ts := by rw [readLink]

theorem readLink_group (h : readChain .or inner = some (a, .symbol ')' :: rest)) :
    readLink .and (.symbol '(' :: inner) = some (a, rest) := by
  rw [readLink, h]
  rfl

theorem readLink_comparison {c : Comparison} (form : c.Form) (ends : Ends rest) :
    readLink .and (c.tokens ++ rest) = some (.comparison c, rest) := by
  have apart : ∀ x, rest.head? = some (.symbol x) → x = ')' := by
    intro x head
    simpa using ends _ head
  rw [readLink, form.read apart, Option.map_some]
  intro inner group
  apply form.head?_ne rest
  rw [group, List.head?_cons]

/-- Where `AND` does not go on, a comparison or a group may be joined by either. -/
theorem readLink_of_readLink_and (h : readLink .and ts = some (a, rest))
    (next : Closes rest ∨ rest.head? = some (.word k.keyword)) :
    readLink k ts = some (a, rest) := by
  cases k with
  | and => exact h
  | or =>
    rw [readLink_or]
    refine readChain_of_readLink h ?_
    rcases next with closes | head
    · exact closes.head?_ne _
    · rw [head]
      decide

/-- A group is read alike whatever joins it. -/
theorem readChain_or_of_closes (h : readChain k ts = some (a, rest)) (closes : Closes rest) :
    readChain .or ts = some (a, rest) := by
  cases k with
  | or => exact h
  | and => exact readChain_of_readLink ((readLink_or ts).trans h) (closes.head?_ne _)

/-! ## Truth -/

/-- The comparisons of a formula, from left to right. -/
def comparisons : Formula → List Comparison
  | .comparison c => [c]
  | .connect _ left right => left.comparisons ++ right.comparisons

end Formula

section Truth

variable {α : Type} [Lattice α]

/-- Two truth values joined by a connective: the lesser or the greater one. -/
def Connective.join : Connective → α → α → α
  | .and => (· ⊓ ·)
  | .or => (· ⊔ ·)

/-- The truth value of a formula whose comparisons, counted from the given number, have the
    given truth values. -/
def Formula.truth (v : Nat → α) (first : Nat) : Formula → α
  | .comparison _ => v first
  | .connect k left right =>
    k.join (left.truth v first) (right.truth v (first + left.comparisons.length))

end Truth

/-- The formula of a `WHERE` clause, if it has one, in the tokens of the clause. -/
def Formula.readClause : List Token → Option (Option Formula)
  | [] => some none
  | .word "WHERE" :: ts =>
    match readChain .or ts with
    | some (a, []) => some (some a)
    | _ => none
  | _ => none

theorem Formula.readClause_where {ts : List Token} {a : Formula}
    (h : readChain .or ts = some (a, [])) : readClause (.word "WHERE" :: ts) = some (some a) := by
  show (match readChain .or ts with | some (a, []) => _ | _ => _) = _
  rw [h]

end Bindery
