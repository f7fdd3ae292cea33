import Bindery.Proofs.Name.Words
import Bindery.Schema.Column
import Mathlib.Data.List.Basic

/-!
# Question marks in spelled texts

Numerals have no question mark, and the respelling of a text brings none into
it: where one stands, the text had it before.

* `Value.question_mem_literal`, `DefaultValue.question_mem_sql`: the question
  marks of literals.
* `Name.question_mem_apply`: the question marks of a name in another case.
-/

namespace Bindery

namespace Text

/-! ## Numerals and quotes -/

theorem digitChar_ne_question : ∀ d < 10, digitChar d ≠ '?' := by decide

theorem question_not_mem_decimal (n : Nat) : '?' ∉ decimal n := by
  fun_induction decimal n with
  | case1 n small =>
    rw [List.mem_singleton]
    exact (digitChar_ne_question n small).symm
  | case2 n large ih =>
    rw [List.mem_append, List.mem_singleton, not_or]
    exact ⟨ih, (digitChar_ne_question _ (Nat.mod_lt n (by decide))).symm⟩

theorem question_not_mem_signed (n : Int) : '?' ∉ signed n := by
  cases n with
  | ofNat n => exact question_not_mem_decimal n
  | negSucc n => simp [signed, question_not_mem_decimal]

theorem hexDigitUpper_ne_question : ∀ d < 16, hexDigitUpper d ≠ '?' := by decide

theorem question_not_mem_hexByte (b : UInt8) : '?' ∉ hexByte b := by
  have bound : b.toNat < 256 := b.toNat_lt
  have high := hexDigitUpper_ne_question (b.toNat / 16) (by omega)
  have low := hexDigitUpper_ne_question (b.toNat % 16) (by omega)
  simp [hexByte, high.symm, low.symm]

theorem question_mem_double {q : Char} (hq : q ≠ '?') (cs : List Char) :
    '?' ∈ double q cs ↔ '?' ∈ cs := by
  induction cs with
  | nil => simp [double]
  | cons c rest ih =>
    rw [double]
    split
    · next quote => simp [ih, hq.symm, quote]
    · simp [ih]

/-- Quotes around a text add no question mark. -/
theorem question_mem_quoted {q : Char} (hq : q ≠ '?') (s : String) :
    '?' ∈ (quoted q s).toList ↔ '?' ∈ s.toList := by
  simp [quoted, question_mem_double hq, hq.symm]

/-! ## Letter case -/

/-- Only the code of the question mark gives one. -/
theorem ofNat_ne_question {n : Nat} (h : 63 < n) : Char.ofNat n ≠ '?' := by
  intro eq
  rcases toNat_ofNat_or n with code | none
  · rw [eq] at code
    exact absurd code (Nat.ne_of_lt h)
  · rw [eq] at none
    exact absurd none (by decide)

/-- Whether the tables of a mapping lead to codes beyond that of the question
    mark. -/
def leadBeyond (shifts : List (Span × Int)) (sequences : List (Nat × List Nat)) : Bool :=
  shifts.all (fun x => decide (63 < x.1.first + x.2)) &&
    sequences.all fun x => x.2.all fun n => decide (63 < n)

theorem eq_of_question_mem_mapByTable {shifts : List (Span × Int)}
    {sequences : List (Nat × List Nat)} (beyond : leadBeyond shifts sequences = true) {c : Char}
    (h : '?' ∈ mapByTable shifts sequences c) : c = '?' := by
  simp only [leadBeyond, Bool.and_eq_true, List.all_eq_true, decide_eq_true_eq] at beyond
  rw [mapByTable] at h
  split at h
  · next codes found =>
    obtain ⟨n, hn, eq⟩ := List.mem_map.1 h
    exact absurd eq (ofNat_ne_question (beyond.2 _ (List.mem_of_find?_eq_some found) n hn))
  · split at h
    · next span shift found =>
      have first : 63 < span.first + shift := beyond.1 _ (List.mem_of_find?_eq_some found)
      have inside : span.contains c.toNat = true := by simpa using List.find?_some found
      simp only [Span.contains, Bool.and_eq_true, decide_eq_true_eq] at inside
      refine absurd (List.mem_singleton.1 h).symm (ofNat_ne_question ?_)
      omega
    · exact (List.mem_singleton.1 h).symm

theorem eq_of_question_mem_toLower {c : Char} (h : '?' ∈ toLower c) : c = '?' := by
  rw [toLower] at h
  split at h
  · next ascii =>
    exact forall_ascii (P := fun c => c.toLower = '?' → c = '?') (by decide) ascii
      (List.mem_singleton.1 h).symm
  · exact eq_of_question_mem_mapByTable (by decide) h

theorem eq_of_question_mem_toUpper {c : Char} (h : '?' ∈ toUpper c) : c = '?' := by
  rw [toUpper] at h
  split at h
  · next ascii =>
    exact forall_ascii (P := fun c => c.toUpper = '?' → c = '?') (by decide) ascii
      (List.mem_singleton.1 h).symm
  · exact eq_of_question_mem_mapByTable (by decide) h

theorem question_mem_intercalate {separator : List Char} (plain : '?' ∉ separator)
    {parts : List (List Char)} (h : '?' ∈ List.intercalate separator parts) :
    ∃ part ∈ parts, '?' ∈ part := by
  induction parts with
  | nil => simp [List.intercalate] at h
  | cons part rest ih =>
    cases rest with
    | nil => exact ⟨part, by simp, by simpa [List.intercalate] using h⟩
    | cons next rest =>
      have split : List.intercalate separator (part :: next :: rest) =
          part ++ (separator ++ List.intercalate separator (next :: rest)) := by
        simp [List.intercalate]
      rw [split, List.mem_append, List.mem_append] at h
      rcases h with h | h | h
      · exact ⟨part, by simp, h⟩
      · exact absurd h plain
      · obtain ⟨part', member, h'⟩ := ih h
        exact ⟨part', List.mem_cons_of_mem _ member, h'⟩

end Text

/-! ## Literals -/

open Text

namespace Number

theorem question_not_mem_positional {digits : List Char} (plain : '?' ∉ digits) (pointZero : Bool)
    (lead : Int) : '?' ∉ positional pointZero digits lead := by
  rw [positional]
  split
  · simp [plain]
  · dsimp only
    split
    · cases pointZero <;> simp [plain]
    · have front : '?' ∉ digits.take (lead.toNat + 1) := fun h => plain (List.mem_of_mem_take h)
      have back : '?' ∉ digits.drop (lead.toNat + 1) := fun h => plain (List.mem_of_mem_drop h)
      simp [front, back]

end Number

theorem Value.question_not_mem_layout (x : Number.Double) : '?' ∉ (Value.layout.text x).toList := by
  have magnitude : '?' ∉ Value.layout.magnitudeText x.magnitude := by
    rw [Number.Layout.magnitudeText]
    split
    · exact Number.question_not_mem_positional (by decide) _ _
    · -- The layout of SQL is always positional.
      dsimp only
      rw [if_pos (show Value.layout.isPositional _ = true from rfl)]
      exact Number.question_not_mem_positional (question_not_mem_decimal _) _ _
  rw [Number.Layout.text]
  split
  · decide
  · split
    · cases x.isNegative <;> simp [magnitude]
    · split <;> decide

theorem Value.question_not_mem_boolLiteral (b : Bool) : '?' ∉ (Value.boolLiteral b).toList := by
  cases b <;> decide

/-- A literal has a question mark only if it is a text with one. -/
theorem Value.question_mem_literal {v : Value} (h : '?' ∈ v.literal.toList) :
    ∃ s, v = .text s ∧ '?' ∈ s.toList := by
  cases v with
  | null => exact absurd h (by decide)
  | bool b => exact absurd h (Value.question_not_mem_boolLiteral b)
  | int n => exact absurd h (by simp [Value.literal, ofInt, question_not_mem_signed])
  | float x => exact absurd h (Value.question_not_mem_layout x)
  | text s => exact ⟨s, rfl, (question_mem_quoted (by decide) s).1 h⟩
  | blob bytes =>
    exact absurd h (by simp [Value.literal, question_not_mem_hexByte])

/-- A default has a question mark only if its text or its expression has one. -/
theorem DefaultValue.question_mem_sql {d : Dialect} {v : DefaultValue}
    (h : '?' ∈ (v.sql d).toList) :
    ∃ s, (v = .string s ∨ v = .expression s) ∧ '?' ∈ s.toList := by
  cases v with
  | null => exact absurd h (by cases d <;> decide)
  | bool b => exact absurd h (Value.question_not_mem_boolLiteral b)
  | int n => exact absurd h (by simp [DefaultValue.sql, ofInt, question_not_mem_signed])
  | float x => exact absurd h (Value.question_not_mem_layout x)
  | string s => exact ⟨s, .inl rfl, (question_mem_quoted (by decide) s).1 h⟩
  | expression s => exact ⟨s, .inr rfl, h⟩
  | currentDate => exact absurd h (by cases d <;> decide)
  | currentTime => exact absurd h (by cases d <;> decide)
  | currentDateTime => exact absurd h (by cases d <;> decide)

/-! ## Names -/

namespace Name

theorem question_mem_words {name : String} {word : List Char} (member : word ∈ words name)
    (h : '?' ∈ word) : '?' ∈ name.toList := by
  obtain ⟨c, hc, -, spelled⟩ := exists_of_mem_words member h
  rwa [eq_of_question_mem_toLower spelled] at hc

theorem question_mem_joinWords {ws : List (List Char)} (h : '?' ∈ (joinWords ws).toList) :
    ∃ word ∈ ws, '?' ∈ word := by
  rw [joinWords, String.toList_ofList] at h
  exact question_mem_intercalate (by decide) h

theorem question_mem_capitalize {word : List Char} (h : '?' ∈ capitalize word) : '?' ∈ word := by
  cases word with
  | nil => cases h
  | cons c rest =>
    rcases List.mem_append.1 h with h | h
    · rw [eq_of_question_mem_toUpper h]
      exact List.mem_cons_self
    · exact List.mem_cons_of_mem _ h

theorem question_mem_snake {name : String} (h : '?' ∈ (snake name).toList) : '?' ∈ name.toList := by
  obtain ⟨word, member, h'⟩ := question_mem_joinWords h
  exact question_mem_words member h'

theorem question_mem_camel {name : String} (h : '?' ∈ (camel name).toList) : '?' ∈ name.toList := by
  rw [camel] at h
  split at h
  · cases h
  · next first rest eq =>
    rw [String.toList_ofList, List.mem_append, List.mem_flatten] at h
    rcases h with h | ⟨_, member, h⟩
    · exact question_mem_words (eq ▸ List.mem_cons_self) h
    · obtain ⟨word, hword, rfl⟩ := List.mem_map.1 member
      exact question_mem_words (eq ▸ List.mem_cons_of_mem _ hword) (question_mem_capitalize h)

/-- The spelling of a name in a case brings no question mark into it. -/
theorem question_mem_apply {case : Case} {name : String} (h : '?' ∈ (case.apply name).toList) :
    '?' ∈ name.toList := by
  cases case with
  | snake => exact question_mem_snake h
  | camel => exact question_mem_camel h

theorem question_mem_stem {name : String} (h : '?' ∈ (stem name).toList) : '?' ∈ name.toList := by
  obtain ⟨word, member, h'⟩ := question_mem_joinWords h
  refine question_mem_words ?_ h'
  rw [dropKeyWord] at member
  split at member
  · exact List.dropLast_subset _ member
  · exact member

end Name

end Bindery
