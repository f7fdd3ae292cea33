import Bindery.Code.Literal
import Mathlib.Data.List.Basic

/-!
# String literals that are read back

A string literal of the emitted Rust code ends at the first quote that is no part of an
escape, and every escape of the language counts: by a letter, by a code in hexadecimal
digits, or of a line break and the blanks behind it. A text is escaped by replacements one
after the other. As none of them brings in what a later one replaces, they are one pass
over the text, which reading undoes character by character.

* `foldl_replaceChar`: replacements one after the other as one pass.
* `readText`: the text of a literal up to its closing quote.
* `readText_escape`: an escaped text is read back.
* `not_mem_escape`: the characters that an escaped text does not hold.
-/

namespace Bindery.Code

open Text (hexValue?)

/-! ## Replacements one after the other -/

/-- Replacements one after the other are one pass over the text if none of them brings
    in a character that a later one replaces. -/
theorem foldl_replaceChar {table : List (Char × List Char)}
    (apart : table.Pairwise fun e later => later.1 ∉ e.2) (cs : List Char) :
    table.foldl (fun cs e => replaceChar cs e.1 e.2) cs =
      cs.flatMap fun c => (table.lookup c).getD [c] := by
  induction table generalizing cs with
  | nil => simp
  | cons e table ih =>
    obtain ⟨later, others⟩ := List.pairwise_cons.1 apart
    -- The later replacements leave the text alone that this one brings in.
    have kept : e.2.flatMap (fun c => (table.lookup c).getD [c]) = e.2 := by
      have alone : ∀ c ∈ e.2, (table.lookup c).getD [c] = [c] := by
        intro c hc
        have unlisted : table.lookup c = none := by
          rw [List.lookup_eq_none_iff]
          intro p hp
          rw [bne_iff_ne]
          rintro rfl
          exact later p hp hc
        rw [unlisted]
        rfl
      rw [List.flatMap_congr alone, List.flatMap_singleton']
    rw [List.foldl_cons, ih others, replaceChar, List.flatMap_assoc]
    refine List.flatMap_congr fun c _ => ?_
    rw [List.lookup_cons]
    by_cases same : c = e.1
    · rw [if_pos same, kept, beq_iff_eq.2 same]
      rfl
    · rw [if_neg same, beq_eq_false_iff_ne.2 same, List.flatMap_singleton]

/-- A character inside a string literal. -/
def escapeChar (c : Char) : List Char := (escapes.lookup c).getD [c]

/-- A character has an escape of its own, or stands for itself. -/
theorem escapeChar_cases (c : Char) :
    (c, escapeChar c) ∈ escapes ∨ (∀ e ∈ escapes, c ≠ e.1) ∧ escapeChar c = [c] := by
  rw [escapeChar]
  cases found : escapes.lookup c with
  | some text =>
    obtain ⟨before, behind, listed, -⟩ := List.lookup_eq_some_iff.1 found
    left
    rw [listed]
    exact List.mem_append_right before List.mem_cons_self
  | none =>
    right
    refine ⟨fun e he => ?_, rfl⟩
    exact bne_iff_ne.1 (List.lookup_eq_none_iff.1 found e he)

theorem toList_escape (s : String) : (escape s).toList = s.toList.flatMap escapeChar := by
  rw [escape, String.toList_ofList]
  exact foldl_replaceChar (by decide) s.toList

/-- A character with an escape is not in an escaped text, unless an escape is spelled
    with it. -/
theorem not_mem_escape {c : Char} (listed : ∃ e ∈ escapes, e.1 = c)
    (unspelled : ∀ e ∈ escapes, c ∉ e.2) (s : String) : c ∉ (escape s).toList := by
  rw [toList_escape]
  intro member
  obtain ⟨d, -, hd⟩ := List.mem_flatMap.1 member
  rcases escapeChar_cases d with escaped | ⟨unlisted, alone⟩
  · exact unspelled _ escaped hd
  · obtain ⟨e, he, same⟩ := listed
    rw [alone, List.mem_singleton] at hd
    exact unlisted e he (by rw [same, hd])

/-! ## String literals -/

/-- The character that a letter behind a backslash stands for. -/
def letterEscape? (c : Char) : Option Char :=
  if c = 'n' then some '\n'
  else if c = 'r' then some '\r'
  else if c = 't' then some '\t'
  else if c = '0' then some '\x00'
  else if c = '\\' ∨ c = '"' ∨ c = '\'' then some c
  else none

/-- A character of ASCII by two hexadecimal digits, and what comes behind it. -/
def readByteEscape : List Char → Option (List Char × List Char)
  | high :: low :: behind =>
    match hexValue? high, hexValue? low with
    | some h, some l => if h < 8 then some ([Char.ofNat (16 * h + l)], behind) else none
    | _, _ => none
  | _ => none

/-- The number of up to six hexadecimal digits before a closing brace, and what comes
    behind it. Underscores between the digits do not count. -/
def readBraced (count value : Nat) : List Char → Option (Nat × List Char)
  | [] => none
  | c :: behind =>
    if c = '\x7d' then if count = 0 then none else some (value, behind)
    else if c = '_' then if count = 0 then none else readBraced count value behind
    else
      match hexValue? c with
      | some d => if count < 6 then readBraced (count + 1) (16 * value + d) behind else none
      | none => none

/-- A character by its code in braces, and what comes behind it. -/
def readCodeEscape : List Char → Option (List Char × List Char)
  | [] => none
  | c :: digits =>
    if c = '\x7b' then
      match readBraced 0 0 digits with
      | some (code, behind) =>
        if code.isValidChar then some ([Char.ofNat code], behind) else none
      | none => none
    else none

/-- What a backslash stands for with the text behind it, and what comes behind both. A
    line break is skipped with the blanks that begin the next line. -/
def readEscape : List Char → Option (List Char × List Char)
  | [] => none
  | c :: behind =>
    match letterEscape? c with
    | some x => some ([x], behind)
    | none =>
      if c = '\n' then some ([], behind.dropWhile Char.isWhitespace)
      else if c = 'x' then readByteEscape behind
      else if c = 'u' then readCodeEscape behind
      else none

theorem length_of_readByteEscape {cs x behind : List Char}
    (h : readByteEscape cs = some (x, behind)) : behind.length ≤ cs.length := by
  unfold readByteEscape at h
  split at h
  · split at h
    · split at h
      · cases h
        simp only [List.length_cons]
        omega
      · cases h
    · cases h
  · cases h

theorem length_of_readBraced {count value code : Nat} {cs behind : List Char}
    (h : readBraced count value cs = some (code, behind)) : behind.length ≤ cs.length := by
  fun_induction readBraced count value cs with
  | case1 => cases h
  | case2 => cases h
  | case3 =>
    cases h
    exact Nat.le_succ _
  | case4 => cases h
  | case5 count value behind' brace filled ih => exact Nat.le_succ_of_le (ih h)
  | case6 count value c behind' brace underscore d digit few ih => exact Nat.le_succ_of_le (ih h)
  | case7 => cases h
  | case8 => cases h

theorem length_of_readCodeEscape {cs x behind : List Char}
    (h : readCodeEscape cs = some (x, behind)) : behind.length ≤ cs.length := by
  unfold readCodeEscape at h
  split at h
  · cases h
  · split at h
    · split at h
      · next read =>
        split at h
        · cases h
          exact Nat.le_succ_of_le (length_of_readBraced read)
        · cases h
      · cases h
    · cases h

theorem length_of_readEscape {cs x behind : List Char} (h : readEscape cs = some (x, behind)) :
    behind.length < cs.length := by
  unfold readEscape at h
  split at h
  · cases h
  · next c rest =>
    refine Nat.lt_succ_of_le ?_
    split at h
    · cases h
      exact Nat.le_refl _
    · split at h
      · cases h
        exact (List.dropWhile_suffix _).length_le
      split at h
      · exact length_of_readByteEscape h
      split at h
      · exact length_of_readCodeEscape h
      · cases h

/-- The text up to the closing quote, and what comes behind it. Source text has line
    feeds only for line breaks, and no literal holds a carriage return. -/
def readText : List Char → Option (List Char × List Char)
  | [] => none
  | c :: rest =>
    if c = '"' then some ([], rest)
    else if c = '\r' then none
    else if c = '\\' then
      match _h : readEscape rest with
      | some (x, behind) => (readText behind).map fun p => (x ++ p.1, p.2)
      | none => none
    else (readText rest).map fun p => (c :: p.1, p.2)
termination_by cs => cs.length
decreasing_by
  · have := length_of_readEscape ‹_›
    simp only [List.length_cons]
    omega
  · simp

/-- The string literal at the front of a text, and what comes behind it. -/
def readString? : List Char → Option (String × List Char)
  | [] => none
  | c :: rest =>
    if c = '"' then (readText rest).map fun p => (String.ofList p.1, p.2) else none

example : readString? "\"\\x41\\u\x7be9\x7d\\\n  b\";".toList = some ("Aéb", [';']) := by
  decide +kernel

theorem length_of_readText {cs x behind : List Char} (h : readText cs = some (x, behind)) :
    behind.length ≤ cs.length := by
  fun_induction readText cs generalizing x behind with
  | case1 => cases h
  | case2 rest =>
    cases h
    exact Nat.le_succ _
  | case3 => cases h
  | case4 rest x' behind' escape quote feed ih =>
    obtain ⟨⟨text, behind⟩, read, same⟩ := Option.map_eq_some_iff.1 h
    cases same
    have shorter := length_of_readEscape escape
    have := ih read
    simp only [List.length_cons]
    omega
  | case5 => cases h
  | case6 c rest quote feed backslash ih =>
    obtain ⟨⟨text, behind⟩, read, same⟩ := Option.map_eq_some_iff.1 h
    cases same
    exact Nat.le_succ_of_le (ih read)

theorem readText_close (rest : List Char) : readText ('"' :: rest) = some ([], rest) := by
  rw [readText, if_pos rfl]

theorem readText_letter {letter x : Char} (h : letterEscape? letter = some x) (cs : List Char) :
    readText ('\\' :: letter :: cs) = (readText cs).map fun p => (x :: p.1, p.2) := by
  have read : readEscape (letter :: cs) = some ([x], cs) := by rw [readEscape, h]
  rw [readText, if_neg (by decide), if_neg (by decide), if_pos rfl]
  split
  · next x' behind some =>
    rw [read] at some
    cases some
    rfl
  · next none =>
    rw [read] at none
    cases none

theorem readText_raw {c : Char} (quote : c ≠ '"') (backslash : c ≠ '\\') (feed : c ≠ '\r')
    (cs : List Char) : readText (c :: cs) = (readText cs).map fun p => (c :: p.1, p.2) := by
  rw [readText, if_neg quote, if_neg feed, if_neg backslash]

/-- A character is read back, escaped or not. -/
theorem readText_escapeChar (c : Char) (cs : List Char) :
    readText (escapeChar c ++ cs) = (readText cs).map fun p => (c :: p.1, p.2) := by
  have letters : ∀ e ∈ escapes, ∃ letter, e.2 = ['\\', letter] ∧
      letterEscape? letter = some e.1 := by
    simp [escapes, letterEscape?]
  rcases escapeChar_cases c with listed | ⟨unlisted, alone⟩
  · obtain ⟨letter, spelled, stands⟩ := letters _ listed
    rw [show escapeChar c = ['\\', letter] from spelled]
    exact readText_letter stands cs
  · rw [alone]
    exact readText_raw (unlisted ('"', ['\\', '"']) (by decide))
      (unlisted ('\\', ['\\', '\\']) (by decide)) (unlisted ('\r', ['\\', 'r']) (by decide)) cs

/-- An escaped text is read back up to the quote behind it. -/
theorem readText_escape (s : String) (rest : List Char) :
    readText ((escape s).toList ++ '"' :: rest) = some (s.toList, rest) := by
  rw [toList_escape]
  induction s.toList with
  | nil => exact readText_close rest
  | cons c cs ih =>
    rw [List.flatMap_cons, List.append_assoc, readText_escapeChar, ih]
    rfl

theorem toList_stringLiteral (s : String) :
    (stringLiteral s).toList = '"' :: ((escape s).toList ++ ['"']) := by
  rw [stringLiteral, String.toList_append, String.toList_append]
  rfl

theorem readString?_stringLiteral (s : String) (rest : List Char) :
    readString? ((stringLiteral s).toList ++ rest) = some (s, rest) := by
  rw [toList_stringLiteral, List.cons_append, List.append_assoc, List.singleton_append,
    readString?, if_pos rfl, readText_escape, Option.map_some, String.ofList_toList]

end Bindery.Code
