import Bindery.Json.Printer
import Bindery.Json.Reader
import Bindery.Proofs.Text.Numeral
import Mathlib.Data.List.Basic

/-!
# Documents that read back

The text of a document denotes the document, as long as every string has a text and
every number is an integer that fits 64 bits. Each reader is shown to undo its
writer in front of any text that can follow; the fuel of the reader counts its
nesting and its items, so the length of the text is enough of it.

* `Json.readString?_stringText`: strings, with their escapes.
* `Json.readNumber?_signed`: integers.
* `Json.readValue?_chars`: documents.
* `Json.read?_render`: a text read as a whole.
-/

namespace Bindery

open Bindery.Text

namespace Json

/-! ## Strings -/

theorem hexValue?_hexDigit : ∀ d < 16, hexValue? (hexDigit d) = some d := by decide

/-- Four hexadecimal digits denote the number they were written for. -/
theorem hexUnit?_hex {n : Nat} (h : n < 65536) :
    ∃ a b c d, hex 4 n = [a, b, c, d] ∧ hexUnit? a b c d = some n := by
  have digit : ∀ m, hexValue? (hexDigit (m % 16)) = some (m % 16) :=
    fun m => hexValue?_hexDigit _ (Nat.mod_lt m (by decide))
  refine ⟨_, _, _, _, rfl, ?_⟩
  simp only [hexUnit?, digit, Option.bind_eq_bind, Option.bind_some, Option.pure_def,
    Option.some.injEq]
  omega

/-- The codes and the text behind, with a code before them. -/
def withCode (code : Nat) (read : List Nat × List Char) : List Nat × List Char :=
  (code :: read.1, read.2)

theorem readCodes?_short {e : Char} {code : Nat} (h : escaped? e = some code) (cs : List Char) :
    readCodes? ('\\' :: e :: cs) = (readCodes? cs).map (withCode code) := by
  have letter : e ≠ 'u' := by
    rintro rfl
    cases h
  rw [readCodes?, h]
  · cases readCodes? cs <;> rfl
  · intro a b c d rest unit
    exact absurd unit letter

theorem readCodes?_unit {a b c d : Char} {n : Nat} (h : hexUnit? a b c d = some n)
    (cs : List Char) :
    readCodes? ('\\' :: 'u' :: a :: b :: c :: d :: cs) = (readCodes? cs).map (withCode n) := by
  rw [readCodes?, h]
  cases readCodes? cs <;> rfl

theorem readCodes?_raw {c : Char} (quote : c ≠ '"') (backslash : c ≠ '\\')
    (control : ¬ c.toNat < 32) (cs : List Char) :
    readCodes? (c :: cs) = (readCodes? cs).map (withCode c.toNat) := by
  rw [readCodes?]
  · rw [if_neg quote, if_neg (not_or.2 ⟨backslash, control⟩)]
    cases readCodes? cs <;> rfl
  · intro a b c d rest first
    exact absurd first backslash
  · intro e rest first
    exact absurd first backslash

/-- A character reads as its code, escaped or not. -/
theorem readCodes?_escapeChar (c : Char) (cs : List Char) :
    readCodes? (escapeChar c ++ cs) = (readCodes? cs).map (withCode c.toNat) := by
  unfold escapeChar
  split
  · next quote =>
    subst quote
    exact readCodes?_short rfl cs
  split
  · next backslash =>
    subst backslash
    exact readCodes?_short rfl cs
  -- The other short escapes are told apart by the code alone.
  iterate 5
    split
    · next code =>
      rw [code]
      exact readCodes?_short rfl cs
  split
  · next control =>
    obtain ⟨_, _, _, _, digits, unit⟩ := hexUnit?_hex (show c.toNat < 65536 by omega)
    rw [digits]
    exact readCodes?_unit unit cs
  · next quote backslash _ _ _ _ _ control => exact readCodes?_raw quote backslash control cs

theorem readCodes?_flatMap (cs rest : List Char) :
    readCodes? (cs.flatMap escapeChar ++ '"' :: rest) = some (cs.map Char.toNat, rest) := by
  induction cs with
  | nil => simp [readCodes?]
  | cons c cs ih =>
    rw [List.flatMap_cons, List.append_assoc, readCodes?_escapeChar, ih]
    rfl

theorem surrogate_toNat (c : Char) :
    isHighSurrogate c.toNat = false ∧ isLowSurrogate c.toNat = false := by
  have valid : c.toNat < 0xD800 ∨ 0xDFFF < c.toNat ∧ c.toNat < 0x110000 := c.valid
  unfold isHighSurrogate isLowSurrogate
  simp only [Bool.and_eq_false_iff, decide_eq_false_iff_not]
  omega

/-- The codes of characters are no halves of pairs. -/
theorem pairCodes?_toNat (cs : List Char) : pairCodes? (cs.map Char.toNat) = some cs := by
  induction cs with
  | nil => rfl
  | cons c cs ih =>
    obtain ⟨high, low⟩ := surrogate_toNat c
    cases cs with
    | nil => simp [pairCodes?, high, low]
    | cons d cs =>
      rw [List.map_cons, List.map_cons, pairCodes?, high, low, ← List.map_cons, ih]
      simp

/-- A string reads as the text it was written for. -/
theorem readString?_stringText (s : String) (rest : List Char) :
    ∃ cs, stringText s = '"' :: cs ∧ readString? (cs ++ rest) = some (some s, rest) := by
  refine ⟨_, rfl, ?_⟩
  rw [List.append_assoc, List.singleton_append, readString?, readCodes?_flatMap]
  simp [pairCodes?_toNat]

/-! ## Numbers -/

/-- What can follow a value: nothing, a comma or a closing bracket. -/
def Follows (rest : List Char) : Prop :=
  ∀ c, rest.head? = some c → c ∈ [',', ']', '\x7d']

theorem Follows.ne {rest : List Char} (follows : Follows rest) {c : Char}
    (other : c ∉ [',', ']', '\x7d']) : rest.head? ≠ some c :=
  fun head => other (follows c head)

theorem Follows.isDigit {rest : List Char} (follows : Follows rest) :
    ∀ c, rest.head? = some c → isDigit c = false := by
  intro c head
  have known : c = ',' ∨ c = ']' ∨ c = '\x7d' := by simpa using follows c head
  rcases known with rfl | rfl | rfl <;> rfl

/-- A numeral has no leading zero. -/
theorem head?_decimal_ne_zero {n : Nat} (h : 0 < n) : (decimal n).head? ≠ some '0' := by
  fun_induction decimal n with
  | case1 n small =>
    have digit : ∀ d < 10, 0 < d → digitChar d ≠ '0' := by decide
    simpa using digit n small h
  | case2 n large ih =>
    obtain ⟨c, cs, split⟩ := List.exists_cons_of_ne_nil (decimal_ne_nil (n / 10))
    have first := ih (by omega)
    rw [split] at first ⊢
    exact first

theorem readWhole?_decimal (n : Nat) {rest : List Char} (follows : Follows rest) :
    readWhole? (decimal n ++ rest) = some (decimal n, rest) := by
  have digits : ∀ c ∈ decimal n, isDigit c = true := fun c => isDigit_of_mem_decimal
  have stops : rest.takeWhile isDigit = [] ∧ rest.dropWhile isDigit = rest := by
    cases rest with
    | nil => exact ⟨rfl, rfl⟩
    | cons c rest => simp [follows.isDigit c rfl]
  have leading : ¬ (decimal n = [] ∨ (decimal n).head? = some '0' ∧ (decimal n).length ≠ 1) := by
    rintro (none | ⟨zero, several⟩)
    · exact decimal_ne_nil n none
    · rcases Nat.eq_zero_or_pos n with rfl | positive
      · exact several (by simp [decimal])
      · exact head?_decimal_ne_zero positive zero
  rw [readWhole?, List.takeWhile_append_of_pos digits, List.dropWhile_append_of_pos digits, stops.1,
    stops.2, List.append_nil]
  exact if_neg leading

theorem readFraction?_of_follows {rest : List Char} (follows : Follows rest) :
    readFraction? rest = some (none, rest) := by
  cases rest with
  | nil => rfl
  | cons c rest =>
    rw [readFraction?]
    intro rest' point
    exact follows.ne (c := '.') (by decide) (by rw [point]; rfl)

theorem readPower?_of_follows {rest : List Char} (follows : Follows rest) :
    readPower? rest = some (none, rest) := by
  cases rest with
  | nil => rfl
  | cons c rest =>
    have lower := follows.ne (c := 'e') (by decide)
    have upper := follows.ne (c := 'E') (by decide)
    rw [readPower?, if_neg]
    rintro (rfl | rfl)
    · exact lower rfl
    · exact upper rfl

theorem readDecimal?_decimal (n : Nat) : readDecimal? (decimal n) = some n := by
  have read := readDigits?_decimal n
  obtain ⟨c, cs, split⟩ := List.exists_cons_of_ne_nil (decimal_ne_nil n)
  rw [split] at read ⊢
  exact read

/-- An integer that fits 64 bits reads as itself. -/
theorem readNumber?_signed {n : Int} (low : -9223372036854775808 ≤ n)
    (high : n ≤ 18446744073709551615) {rest : List Char} (follows : Follows rest) :
    readNumber? (signed n ++ rest) = some (.int n, rest) := by
  cases n with
  | ofNat m =>
    have bound : m ≤ significandLimit := Int.ofNat_le.1 high
    have whole : integerOf false (decimal m) = .int m := by
      simp [integerOf, readDecimal?_decimal, bound]
    obtain ⟨c, cs, split⟩ := List.exists_cons_of_ne_nil (decimal_ne_nil m)
    have sign : c ≠ '-' := by
      rintro rfl
      have digit : isDigit '-' = true := isDigit_of_mem_decimal (n := m) (by simp [split])
      cases digit
    show readNumber? (decimal m ++ rest) = _
    rw [readNumber?]
    · simp [readWhole?_decimal m follows, readFraction?_of_follows follows,
        readPower?_of_follows follows, whole]
    · intro rest' minus
      rw [split, List.cons_append] at minus
      exact sign (List.cons.inj minus).1
  | negSucc m =>
    have bound : m + 1 ≤ 9223372036854775808 := by omega
    have whole : integerOf true (decimal (m + 1)) = .int (.negSucc m) := by
      rw [integerOf, readDecimal?_decimal, Option.getD_some, if_pos rfl,
        if_pos ⟨Nat.succ_pos m, bound⟩]
      rfl
    show readNumber? ('-' :: (decimal (m + 1) ++ rest)) = _
    simp [readNumber?, readWhole?_decimal (m + 1) follows, readFraction?_of_follows follows,
      readPower?_of_follows follows, whole]

end Json

/-! ## Documents -/

/-- An integer that fits 64 bits. -/
def JsonNumber.IsExact : JsonNumber → Prop
  | .int n => -9223372036854775808 ≤ n ∧ n ≤ 18446744073709551615
  | .real _ | .huge => False

namespace Json

mutual

/-- Every string of a document has a text, and every number is an integer that fits
    64 bits. -/
def Exact : Json → Prop
  | .null | .bool _ => True
  | .number n => n.IsExact
  | .string s => s.isSome = true
  | .array items => ExactItems items
  | .object members => ExactMembers members

/-- Every item is exact. -/
def ExactItems : List Json → Prop
  | [] => True
  | j :: rest => j.Exact ∧ ExactItems rest

/-- Every key has a text and every value is exact. -/
def ExactMembers : List (Option String × Json) → Prop
  | [] => True
  | (key, j) :: rest => key.isSome = true ∧ j.Exact ∧ ExactMembers rest

end

/-- An integer starts with a minus sign or a digit. -/
theorem signed_eq_cons (n : Int) :
    ∃ c cs, signed n = c :: cs ∧ ∀ d, isDigit d = false → d ≠ '-' → c ≠ d := by
  cases n with
  | ofNat m =>
    obtain ⟨c, cs, split⟩ := List.exists_cons_of_ne_nil (decimal_ne_nil m)
    refine ⟨c, cs, split, ?_⟩
    rintro d other - rfl
    have digit : isDigit c = true := isDigit_of_mem_decimal (n := m) (by simp [split])
    rw [other] at digit
    cases digit
  | negSucc m => exact ⟨'-', decimal (m + 1), rfl, fun d _ other => other.symm⟩

/-- The text of a document starts with no blank and no closing bracket. -/
theorem chars_eq_cons {j : Json} (exact : j.Exact) :
    ∃ c cs, j.chars = c :: cs ∧ isSpace c = false ∧ c ≠ ']' := by
  cases j with
  | null => exact ⟨'n', ['u', 'l', 'l'], rfl, rfl, by decide⟩
  | bool b =>
    cases b with
    | true => exact ⟨'t', ['r', 'u', 'e'], rfl, rfl, by decide⟩
    | false => exact ⟨'f', ['a', 'l', 's', 'e'], rfl, rfl, by decide⟩
  | number n =>
    cases n with
    | int n =>
      obtain ⟨c, cs, split, start⟩ := signed_eq_cons n
      refine ⟨c, cs, split, ?_, start ']' (by decide) (by decide)⟩
      simp [isSpace, start ' ' (by decide) (by decide), start '\n' (by decide) (by decide),
        start '\t' (by decide) (by decide), start '\r' (by decide) (by decide)]
    | real x => cases exact
    | huge => cases exact
  | string s => exact ⟨'"', _, rfl, rfl, by decide⟩
  | array items => exact ⟨'[', _, rfl, rfl, by decide⟩
  | object members => exact ⟨'\x7b', _, rfl, rfl, by decide⟩

theorem skipSpace_of_head {c : Char} (blank : isSpace c = false) (cs : List Char) :
    skipSpace (c :: cs) = c :: cs := by
  rw [skipSpace, List.dropWhile_cons_of_neg (by simp [blank])]

theorem skipSpace_chars {j : Json} (exact : j.Exact) (rest : List Char) :
    skipSpace (j.chars ++ rest) = j.chars ++ rest := by
  obtain ⟨c, cs, split, blank, -⟩ := chars_eq_cons exact
  rw [split, List.cons_append, skipSpace_of_head blank]

theorem readValue?_int {n : Int} (exact : JsonNumber.IsExact (.int n)) (fuel : Nat)
    {rest : List Char} (follows : Follows rest) :
    readValue? (fuel + 1) (signed n ++ rest) = some (.number (.int n), rest) := by
  have read := readNumber?_signed exact.1 exact.2 follows
  obtain ⟨c, cs, split, start⟩ := signed_eq_cons n
  rw [split, List.cons_append] at read ⊢
  rw [readValue?, if_neg (start '"' rfl (by decide)), if_neg (start '[' rfl (by decide)),
    if_neg (start '\x7b' rfl (by decide)), if_neg (start 'n' rfl (by decide)),
    if_neg (start 't' rfl (by decide)), if_neg (start 'f' rfl (by decide)), read]
  rfl

theorem readValue?_string (s : String) (fuel : Nat) (rest : List Char) :
    readValue? (fuel + 1) (stringText s ++ rest) = some (.string (some s), rest) := by
  obtain ⟨cs, split, read⟩ := readString?_stringText s rest
  rw [split, List.cons_append, readValue?, if_pos rfl, read]
  rfl

theorem readItems?_of_last {fuel : Nat} {cs rest : List Char} {j : Json}
    (read : readValue? fuel cs = some (j, ']' :: rest)) :
    readItems? (fuel + 1) cs = some ([j], rest) := by
  rw [readItems?, read]
  rfl

theorem readItems?_of_comma {fuel : Nat} {cs rest rest' : List Char} {j : Json}
    {items : List Json} (read : readValue? fuel cs = some (j, ',' :: rest))
    (more : readItems? fuel (skipSpace rest) = some (items, rest')) :
    readItems? (fuel + 1) cs = some (j :: items, rest') := by
  rw [readItems?, read]
  show (readItems? fuel (skipSpace rest)).bind _ = _
  rw [more]
  rfl

theorem readMembers?_of_last {fuel : Nat} {cs rest rest' : List Char} {key : Option String}
    {j : Json} (name : readString? cs = some (key, ':' :: rest))
    (read : readValue? fuel (skipSpace rest) = some (j, '\x7d' :: rest')) :
    readMembers? (fuel + 1) ('"' :: cs) = some ([(key, j)], rest') := by
  rw [readMembers?, name]
  show (readValue? fuel (skipSpace rest)).bind _ = _
  rw [read]
  rfl

theorem readMembers?_of_comma {fuel : Nat} {cs rest rest' rest'' : List Char}
    {key : Option String} {j : Json} {members : List (Option String × Json)}
    (name : readString? cs = some (key, ':' :: rest))
    (read : readValue? fuel (skipSpace rest) = some (j, ',' :: rest'))
    (more : readMembers? fuel (skipSpace rest') = some (members, rest'')) :
    readMembers? (fuel + 1) ('"' :: cs) = some ((key, j) :: members, rest'') := by
  rw [readMembers?, name]
  show (readValue? fuel (skipSpace rest)).bind _ = _
  rw [read]
  show (readMembers? fuel (skipSpace rest')).bind _ = _
  rw [more]
  rfl

theorem readValue?_array {fuel : Nat} {c : Char} {cs rest : List Char} {items : List Json}
    (blank : isSpace c = false) (closing : c ≠ ']')
    (read : readItems? fuel (c :: cs) = some (items, rest)) :
    readValue? (fuel + 1) ('[' :: c :: cs) = some (.array items, rest) := by
  rw [readValue?, if_neg (by decide), if_pos rfl, skipSpace_of_head blank]
  split
  · next closed => exact absurd (List.cons.inj closed).1 closing
  · rw [read]
    rfl

theorem readValue?_object {fuel : Nat} {cs rest : List Char}
    {members : List (Option String × Json)}
    (read : readMembers? fuel ('"' :: cs) = some (members, rest)) :
    readValue? (fuel + 1) ('\x7b' :: '"' :: cs) = some (.object members, rest) := by
  rw [readValue?, if_neg (by decide), if_neg (by decide), if_pos rfl, skipSpace_of_head rfl]
  show (readMembers? fuel ('"' :: cs)).map _ = _
  rw [read]
  rfl

theorem follows_cons (c : Char) (rest : List Char) (h : c ∈ [',', ']', '\x7d']) :
    Follows (c :: rest) := by
  rintro _ ⟨⟩
  exact h

theorem exists_fuel {n fuel : Nat} (h : n + 1 ≤ fuel) : ∃ f, fuel = f + 1 ∧ n ≤ f :=
  ⟨fuel - 1, by omega, by omega⟩

theorem itemChars_cons_cons (j k : Json) (items : List Json) :
    itemChars (j :: k :: items) = j.chars ++ ',' :: itemChars (k :: items) := rfl

/-- The items of an array start with the first of them. -/
theorem itemChars_eq_append (j : Json) (items : List Json) :
    ∃ cs, itemChars (j :: items) = j.chars ++ cs := by
  cases items with
  | nil => exact ⟨_, rfl⟩
  | cons k items => exact ⟨_, itemChars_cons_cons j k items⟩

theorem memberChars_singleton (key : String) (j : Json) :
    memberChars [(some key, j)] = stringText key ++ ':' :: (j.chars ++ ['\x7d']) := rfl

theorem memberChars_cons_cons (key : String) (j : Json) (m : Option String × Json)
    (members : List (Option String × Json)) :
    memberChars ((some key, j) :: m :: members) =
      stringText key ++ ':' :: (j.chars ++ ',' :: memberChars (m :: members)) := rfl

/-- The members of an object start with a quote. -/
theorem memberChars_eq_cons (m : Option String × Json) (members : List (Option String × Json)) :
    ∃ cs, memberChars (m :: members) = '"' :: cs := by
  obtain ⟨key, j⟩ := m
  cases members with
  | nil => exact ⟨_, rfl⟩
  | cons _ _ => exact ⟨_, rfl⟩

theorem skipSpace_itemChars {j : Json} (exact : j.Exact) (items : List Json) (rest : List Char) :
    skipSpace (itemChars (j :: items) ++ rest) = itemChars (j :: items) ++ rest := by
  obtain ⟨cs, split⟩ := itemChars_eq_append j items
  rw [split, List.append_assoc, skipSpace_chars exact]

theorem skipSpace_memberChars (m : Option String × Json) (members : List (Option String × Json))
    (rest : List Char) :
    skipSpace (memberChars (m :: members) ++ rest) = memberChars (m :: members) ++ rest := by
  obtain ⟨cs, split⟩ := memberChars_eq_cons m members
  rw [split, List.cons_append, skipSpace_of_head rfl]

mutual

/-- A document reads as itself in front of what can follow it. -/
theorem readValue?_chars (j : Json) (exact : j.Exact) {fuel : Nat} (enough : j.chars.length ≤ fuel)
    {rest : List Char} (follows : Follows rest) :
    readValue? fuel (j.chars ++ rest) = some (j, rest) := by
  -- The first character pays for this call, so the rest of the text covers the parts.
  obtain ⟨c, cs, start, -⟩ := chars_eq_cons exact
  rw [start, List.length_cons] at enough
  obtain ⟨f, rfl, within⟩ := exists_fuel enough
  match j with
  | .null => rfl
  | .bool true => rfl
  | .bool false => rfl
  | .number (.int n) => exact readValue?_int exact f follows
  | .string (some s) => exact readValue?_string s f rest
  | .array [] => rfl
  | .array (j :: items) =>
    obtain ⟨rfl, rfl⟩ := List.cons.inj start
    have read := readItems?_itemChars (j :: items) (List.cons_ne_nil _ _) exact within rest
    obtain ⟨c, cs, first, blank, closing⟩ := chars_eq_cons exact.1
    obtain ⟨tail, split⟩ := itemChars_eq_append j items
    show readValue? (f + 1) ('[' :: (itemChars (j :: items) ++ rest)) = _
    rw [split, first] at read ⊢
    exact readValue?_array blank closing read
  | .object [] => rfl
  | .object (m :: members) =>
    obtain ⟨rfl, rfl⟩ := List.cons.inj start
    have read := readMembers?_memberChars (m :: members) (List.cons_ne_nil _ _) exact within rest
    obtain ⟨tail, split⟩ := memberChars_eq_cons m members
    show readValue? (f + 1) ('\x7b' :: (memberChars (m :: members) ++ rest)) = _
    rw [split] at read ⊢
    exact readValue?_object read

/-- The items of an array read as themselves. -/
theorem readItems?_itemChars (items : List Json) (filled : items ≠ []) (exact : ExactItems items)
    {fuel : Nat} (enough : (itemChars items).length ≤ fuel) (rest : List Char) :
    readItems? fuel (itemChars items ++ rest) = some (items, rest) := by
  match items with
  | [] => exact absurd rfl filled
  | [j] =>
    rw [itemChars, List.length_append, List.length_singleton] at enough
    obtain ⟨f, rfl, within⟩ := exists_fuel enough
    have read := readValue?_chars j exact.1 within (follows_cons ']' rest (by decide))
    rw [itemChars, List.append_assoc]
    exact readItems?_of_last read
  | j :: k :: items =>
    rw [itemChars_cons_cons, List.length_append, List.length_cons, ← Nat.add_assoc] at enough
    obtain ⟨f, rfl, within⟩ := exists_fuel enough
    have first : j.chars.length ≤ f := by omega
    have later : (itemChars (k :: items)).length ≤ f := by omega
    have read := readValue?_chars j exact.1 first
      (follows_cons ',' (itemChars (k :: items) ++ rest) (by decide))
    have more := readItems?_itemChars (k :: items) (List.cons_ne_nil _ _) exact.2 later rest
    rw [← skipSpace_itemChars exact.2.1] at more
    rw [itemChars_cons_cons, List.append_assoc, List.cons_append]
    exact readItems?_of_comma read more

/-- The members of an object read as themselves. -/
theorem readMembers?_memberChars (members : List (Option String × Json)) (filled : members ≠ [])
    (exact : ExactMembers members) {fuel : Nat} (enough : (memberChars members).length ≤ fuel)
    (rest : List Char) :
    readMembers? fuel (memberChars members ++ rest) = some (members, rest) := by
  match members with
  | [] => exact absurd rfl filled
  | [(some key, j)] =>
    rw [memberChars_singleton] at enough ⊢
    rw [List.length_append, List.length_cons, List.length_append, ← Nat.add_assoc] at enough
    obtain ⟨f, rfl, within⟩ := exists_fuel enough
    have first : j.chars.length ≤ f := by omega
    have read := readValue?_chars j exact.2.1 first (follows_cons '\x7d' rest (by decide))
    obtain ⟨cs, split, name⟩ := readString?_stringText key (':' :: (j.chars ++ '\x7d' :: rest))
    rw [split]
    simp only [List.cons_append, List.append_assoc, List.nil_append]
    rw [← skipSpace_chars exact.2.1] at read
    exact readMembers?_of_last name read
  | (some key, j) :: m :: members =>
    rw [memberChars_cons_cons] at enough ⊢
    rw [List.length_append, List.length_cons, List.length_append, List.length_cons,
      ← Nat.add_assoc] at enough
    obtain ⟨f, rfl, within⟩ := exists_fuel enough
    have first : j.chars.length ≤ f := by omega
    have later : (memberChars (m :: members)).length ≤ f := by omega
    have read := readValue?_chars j exact.2.1 first
      (follows_cons ',' (memberChars (m :: members) ++ rest) (by decide))
    have more := readMembers?_memberChars (m :: members) (List.cons_ne_nil _ _) exact.2.2 later rest
    obtain ⟨cs, split, name⟩ := readString?_stringText key
      (':' :: (j.chars ++ ',' :: (memberChars (m :: members) ++ rest)))
    rw [split]
    simp only [List.cons_append, List.append_assoc]
    rw [← skipSpace_chars exact.2.1] at read
    rw [← skipSpace_memberChars] at more
    exact readMembers?_of_comma name read more

end

/-- The text of a document denotes the document. -/
theorem read?_render {j : Json} (exact : j.Exact) : read? j.render = some j := by
  have enough : j.chars.length ≤ j.render.length + 1 := by simp [render]
  have follows : Follows [] := fun c none => by cases none
  have skipped := skipSpace_chars exact []
  have read := readValue?_chars j exact enough follows
  rw [List.append_nil] at skipped read
  rw [read?, show j.render.toList = j.chars from String.toList_ofList, skipped, read]
  rfl

end Json

end Bindery
