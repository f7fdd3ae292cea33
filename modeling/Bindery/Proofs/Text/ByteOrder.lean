import Mathlib.Algebra.Group.Nat.Defs
import Mathlib.Data.List.Lex

/-!
# The order of texts by bytes

Texts are compared by their characters, one after the other. In UTF-8 the first byte of
a character tells how many follow and holds the highest digits of its code in base 64,
and each of the others holds one digit. So a greater character has greater bytes, and
the order of texts is that of their bytes.

* `bytes`: the bytes of a text.
* `encode_eq`: the bytes of a character by the digits of its code.
* `encode_append_lt`: the bytes of a greater character are greater, whatever comes
  behind them.
* `bytes_lt_bytes`: the bytes of a greater text are greater.
-/

namespace Bindery.Text

/-- The bytes of a text in UTF-8. -/
def bytes (s : String) : List UInt8 := s.toByteArray.data.toList

theorem bytes_eq (s : String) : bytes s = s.toList.flatMap String.utf8EncodeChar := by
  unfold bytes
  rw [← String.utf8Encode_toList]
  exact List.toList_data_toByteArray

/-! ## Characters -/

/-- The bytes for the last `k` digits of a number in base 64. -/
def digitBytes : Nat → Nat → List UInt8
  | 0, _ => []
  | k + 1, n => digitBytes k (n / 64) ++ [UInt8.ofNat (n % 64 + 128)]

/-- How many bytes follow the first byte of the character with a code. -/
def following (code : Nat) : Nat :=
  if code ≤ 127 then 0 else if code ≤ 2047 then 1 else if code ≤ 65535 then 2 else 3

/-- The least first byte of a character that so many bytes follow. -/
def leastLead : Nat → Nat
  | 0 => 0
  | 1 => 192
  | 2 => 224
  | _ => 240

/-- The first byte of the character with a code. -/
def lead (code : Nat) : Nat := code / 64 ^ following code + leastLead (following code)

theorem toNat_val_lt (c : Char) : c.val.toNat < 1114112 := by
  rcases c.valid with low | high
  · omega
  · exact high.2

theorem encode_eq (c : Char) :
    String.utf8EncodeChar c =
      UInt8.ofNat (lead c.val.toNat) :: digitBytes (following c.val.toNat) c.val.toNat := by
  have bound := toNat_val_lt c
  unfold String.utf8EncodeChar lead following
  generalize c.val.toNat = n at bound ⊢
  have third : n / 4096 = n / 64 / 64 := by omega
  have fourth : n / 262144 = n / 64 / 64 / 64 := by omega
  dsimp only
  split_ifs with one two three
  · simp [digitBytes, leastLead]
  · have high : n / 64 % 32 = n / 64 := by omega
    simp [digitBytes, leastLead, high]
  · have high : n / 64 / 64 % 16 = n / 64 / 64 := by omega
    simp [digitBytes, leastLead, third, high]
  · have high : n / 64 / 64 / 64 % 8 = n / 64 / 64 / 64 := by omega
    simp [digitBytes, leastLead, third, fourth, high]

/-- The first byte decides between characters of different lengths. -/
theorem lead_lt_lead {v w : Nat} (h : v < w) (apart : following v ≠ following w) :
    lead v < lead w := by
  unfold lead
  unfold following at apart ⊢
  split_ifs at apart ⊢ <;> simp only [leastLead] <;> omega

theorem lead_lt {code : Nat} (bound : code < 1114112) : lead code < 256 := by
  unfold lead following
  split_ifs <;> simp only [leastLead] <;> omega

theorem byte_cons_lt {a b : Nat} (h : a < b) (bound : b < 256) (xs ys : List UInt8) :
    UInt8.ofNat a :: xs < UInt8.ofNat b :: ys := by
  refine List.cons_lt_cons_iff.2 (.inl ?_)
  rw [UInt8.lt_iff_toNat_lt, UInt8.toNat_ofNat', UInt8.toNat_ofNat']
  omega

theorem digitBytes_append_lt {k v w : Nat} (high : v / 64 ^ k = w / 64 ^ k) (h : v < w)
    (xs ys : List UInt8) : digitBytes k v ++ xs < digitBytes k w ++ ys := by
  induction k generalizing v w xs ys with
  | zero =>
    rw [Nat.pow_zero, Nat.div_one, Nat.div_one] at high
    omega
  | succ k ih =>
    unfold digitBytes
    rw [List.append_assoc, List.append_assoc]
    rcases Nat.lt_or_eq_of_le (Nat.div_le_div_right (c := 64) (Nat.le_of_lt h)) with less | same
    · rw [Nat.pow_succ', ← Nat.div_div_eq_div_mul, ← Nat.div_div_eq_div_mul] at high
      exact ih high less _ _
    · rw [same]
      exact List.append_left_lt (byte_cons_lt (by omega) (by omega) xs ys)

theorem encode_append_lt {c d : Char} (h : c < d) (xs ys : List UInt8) :
    String.utf8EncodeChar c ++ xs < String.utf8EncodeChar d ++ ys := by
  have codes : c.val.toNat < d.val.toNat := h
  have bound := lead_lt (toNat_val_lt d)
  rw [encode_eq, encode_eq, List.cons_append, List.cons_append]
  generalize c.val.toNat = v at codes ⊢
  generalize d.val.toNat = w at codes bound ⊢
  by_cases alike : following v = following w
  · -- Of characters of one length, the first byte decides or else the digits behind it.
    have highest : v / 64 ^ following v ≤ w / 64 ^ following v :=
      Nat.div_le_div_right (Nat.le_of_lt codes)
    rcases Nat.lt_or_eq_of_le highest with less | same
    · have leads : lead v < lead w := by
        unfold lead
        rw [← alike]
        omega
      exact byte_cons_lt leads bound _ _
    · have leads : lead v = lead w := by
        unfold lead
        rw [← alike, same]
      rw [leads, ← alike]
      exact List.cons_lt_cons_iff.2 (.inr ⟨rfl, digitBytes_append_lt same codes xs ys⟩)
  · exact byte_cons_lt (lead_lt_lead codes alike) bound _ _

/-! ## Texts -/

theorem flatMap_encode_lt {cs ds : List Char} (h : cs < ds) :
    cs.flatMap String.utf8EncodeChar < ds.flatMap String.utf8EncodeChar := by
  induction h with
  | @nil d ds =>
    rw [List.flatMap_nil, List.flatMap_cons, encode_eq]
    exact List.Lex.nil
  | @rel c cs d ds less =>
    rw [List.flatMap_cons, List.flatMap_cons]
    exact encode_append_lt less _ _
  | @cons c cs ds _ ih =>
    rw [List.flatMap_cons, List.flatMap_cons]
    exact List.append_left_lt ih

/-- The bytes of a greater text are greater. -/
theorem bytes_lt_bytes {s t : String} (h : s < t) : bytes s < bytes t := by
  rw [bytes_eq, bytes_eq]
  exact flatMap_encode_lt (String.lt_iff.1 h)

end Bindery.Text
