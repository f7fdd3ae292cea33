import Bindery.Text.Numeral
import Mathlib.Logic.Function.Defs

/-!
# Numerals that are written

The decimal numeral of a number is a nonempty list of digits and reads back as
the number, so different numbers have different numerals.

* `Text.readDigits?_decimal`: reading undoes writing.
* `Text.decimal_injective`: a numeral has one number.
-/

namespace Bindery.Text

theorem digitValue?_digitChar : ∀ d < 10, digitValue? (digitChar d) = some d := by decide

theorem isDigit_iff {c : Char} : isDigit c = true ↔ 48 ≤ c.toNat ∧ c.toNat ≤ 57 := by
  unfold isDigit digitValue?
  split <;> simp_all

theorem decimal_ne_nil (n : Nat) : decimal n ≠ [] := by
  rw [decimal]
  split <;> simp

theorem isDigit_of_mem_decimal {n : Nat} {c : Char} (h : c ∈ decimal n) : isDigit c = true := by
  fun_induction decimal n with
  | case1 n small =>
    rw [List.mem_singleton.1 h, isDigit, digitValue?_digitChar n small]
    rfl
  | case2 n large ih =>
    rcases List.mem_append.1 h with h | h
    · exact ih h
    · rw [List.mem_singleton.1 h, isDigit, digitValue?_digitChar _ (Nat.mod_lt n (by decide))]
      rfl

theorem readDigits?_append (acc : Nat) (cs ds : List Char) :
    readDigits? acc (cs ++ ds) = (readDigits? acc cs).bind (readDigits? · ds) := by
  induction cs generalizing acc with
  | nil => rfl
  | cons c cs ih =>
    rw [List.cons_append, readDigits?, readDigits?]
    cases digitValue? c with
    | none => rfl
    | some d => exact ih (10 * acc + d)

theorem readDigits?_decimal (n : Nat) : readDigits? 0 (decimal n) = some n := by
  fun_induction decimal n with
  | case1 n small => simp [readDigits?, digitValue?_digitChar n small]
  | case2 n large ih =>
    have last := digitValue?_digitChar (n % 10) (Nat.mod_lt n (by decide))
    rw [readDigits?_append, ih, Option.bind_some, readDigits?, last]
    show some (10 * (n / 10) + n % 10) = some n
    rw [Nat.div_add_mod]

theorem decimal_injective : Function.Injective decimal := by
  intro m n h
  have read := congrArg (readDigits? 0) h
  rw [readDigits?_decimal, readDigits?_decimal] at read
  exact Option.some.inj read

theorem ofNat_injective : Function.Injective ofNat := by
  intro m n h
  exact decimal_injective (String.ofList_injective h)

end Bindery.Text
