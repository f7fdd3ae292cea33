import Bindery.Proofs.Code.StringLiteral
import Bindery.Proofs.Name.Words
import Bindery.Proofs.Text.Numeral
import Bindery.Proofs.Text.Token
import Mathlib.Data.List.Chain

/-!
# Values that emitted code denotes

The expression of a value is a row of words, numbers, strings and marks. A word, number
or string goes on until a character that cannot belong to it, so two of them need a mark
between them, while a mark stands for itself. The constructor of a value says which type
its argument has, and with it what a number or string stands for.

* `lex`: the lexemes of a text.
* `Legible.lex_texts`: lexemes in a row are read one by one.
* `readValue`: the value of an expression.
* `readValue_lexemes`: expressions of values are read back.
* `literals_denote`: literals denote the texts and values they are written for.
-/

namespace Bindery.Code

open Text (isDigit decimal readDecimal? forall_ascii)
open Name (startsIdentifier continuesIdentifier isIdentifier)

/-! ## Lexemes -/

/-- What the text of emitted code is made of. -/
inductive Lexeme where
  /-- An identifier or keyword. -/
  | word (letters : String)
  | number (n : Nat)
  | string (s : String)
  | mark (c : Char)
  /-- The two colons between the parts of a path. -/
  | path
  deriving DecidableEq

/-- The marks of one character. -/
def marks : List Char := ['(', ')', '[', ']', ',', '!', '-']

/-- Whether a character right behind a word, number or string belongs to it, or makes
    something else of it. -/
def joins (c : Char) : Bool :=
  continuesIdentifier c || c == '.' || c == '"' || c == '\'' || c == '#' || decide (128 ≤ c.toNat)

/-- The word, number or string that begins with `c`, and what comes behind it. -/
def readRun (c : Char) (rest : List Char) : Option (Lexeme × List Char) :=
  if c = '"' then (readText rest).map fun p => (.string (String.ofList p.1), p.2)
  else if isDigit c then
    (readDecimal? (c :: rest.takeWhile isDigit)).map fun n => (.number n, rest.dropWhile isDigit)
  else if startsIdentifier c then
    some (.word (String.ofList (c :: rest.takeWhile continuesIdentifier)),
      rest.dropWhile continuesIdentifier)
  else none

/-- The lexeme that begins with `c`, and what comes behind it. -/
def readLexeme (c : Char) (rest : List Char) : Option (Lexeme × List Char) :=
  if c ∈ marks then some (.mark c, rest)
  else if c = ':' then if rest.head? = some ':' then some (.path, rest.tail) else none
  else
    match readRun c rest with
    | some (l, behind) => if behind.head?.any joins then none else some (l, behind)
    | none => none

theorem length_of_readRun {c : Char} {rest behind : List Char} {l : Lexeme}
    (h : readRun c rest = some (l, behind)) : behind.length ≤ rest.length := by
  rw [readRun] at h
  split at h
  · obtain ⟨⟨text, behind⟩, read, same⟩ := Option.map_eq_some_iff.1 h
    cases same
    exact length_of_readText read
  split at h
  · obtain ⟨n, -, same⟩ := Option.map_eq_some_iff.1 h
    cases same
    exact (List.dropWhile_suffix _).length_le
  split at h
  · cases h
    exact (List.dropWhile_suffix _).length_le
  · cases h

theorem length_of_readLexeme {c : Char} {rest behind : List Char} {l : Lexeme}
    (h : readLexeme c rest = some (l, behind)) : behind.length ≤ rest.length := by
  rw [readLexeme] at h
  split at h
  · cases h
    exact Nat.le_refl _
  split at h
  · split at h
    · cases h
      rw [List.length_tail]
      omega
    · cases h
  split at h
  · next l' behind' run =>
    split at h
    · cases h
    · cases h
      exact length_of_readRun run
  · cases h

/-- The lexemes of a text; blanks belong to none. -/
def lex : List Char → Option (List Lexeme)
  | [] => some []
  | c :: rest =>
    if c.isWhitespace then lex rest
    else
      match _h : readLexeme c rest with
      | some (l, behind) => (lex behind).map (l :: ·)
      | none => none
termination_by cs => cs.length
decreasing_by
  · simp
  · have := length_of_readLexeme ‹_›
    simp only [List.length_cons]
    omega

theorem lex_of_readLexeme {c : Char} {rest behind : List Char} {l : Lexeme}
    (visible : c.isWhitespace = false) (h : readLexeme c rest = some (l, behind)) :
    lex (c :: rest) = (lex behind).map (l :: ·) := by
  rw [lex, if_neg (by simp [visible])]
  split
  · next l' behind' some =>
    rw [h] at some
    cases some
    rfl
  · next none =>
    rw [h] at none
    cases none

/-! ## Lexemes in a row -/

namespace Lexeme

/-- The text that is written for a lexeme; a blank follows a comma. -/
def text : Lexeme → List Char
  | .word letters => letters.toList
  | .number n => decimal n
  | .string s => (stringLiteral s).toList
  | .mark c => if c = ',' then [',', ' '] else [c]
  | .path => [':', ':']

/-- Whether the letters of a word make an identifier, and a mark is one. -/
def isValid : Lexeme → Bool
  | .word letters => isIdentifier letters.toList
  | .mark c => decide (c ∈ marks)
  | _ => true

/-- Whether a lexeme is the same whatever stands next to it. -/
def isMark : Lexeme → Bool
  | .mark _ | .path => true
  | _ => false

/-- Whether two lexemes can stand next to each other. -/
def Apart (l m : Lexeme) : Prop := l.isMark = true ∨ m.isMark = true

/-- No mark goes on with what stands before it. -/
theorem head?_text_of_isMark {l : Lexeme} (valid : l.isValid = true) (mark : l.isMark = true)
    (rest : List Char) : (l.text ++ rest).head?.any joins = false := by
  have free : marks.all (fun c => !joins c) = true := by decide
  cases l with
  | mark c =>
    have member : c ∈ marks := by simpa [isValid] using valid
    have head : (text (.mark c) ++ rest).head? = some c := by
      rw [text]
      split
      · next comma =>
        rw [comma]
        rfl
      · rfl
    rw [head]
    simpa using List.all_eq_true.1 free c member
  | path => rfl
  | _ => cases mark

end Lexeme

theorem lex_mark {c : Char} (member : c ∈ marks) (rest : List Char) :
    lex (Lexeme.text (.mark c) ++ rest) = (lex rest).map (.mark c :: ·) := by
  have unblank : marks.all (fun c => !c.isWhitespace) = true := by decide
  have visible : c.isWhitespace = false := by simpa using List.all_eq_true.1 unblank c member
  have read : ∀ behind, readLexeme c behind = some (.mark c, behind) := by
    intro behind
    rw [readLexeme, if_pos member]
  rw [Lexeme.text]
  split
  · next comma =>
    -- The blank behind a comma belongs to no lexeme.
    have blank : lex (' ' :: rest) = lex rest := by
      rw [lex, if_pos (by decide)]
    rw [← comma, ← blank]
    exact lex_of_readLexeme visible (read _)
  · exact lex_of_readLexeme visible (read rest)

theorem lex_path (rest : List Char) :
    lex (Lexeme.text .path ++ rest) = (lex rest).map (.path :: ·) := by
  refine lex_of_readLexeme (by decide) ?_
  rw [readLexeme, if_neg (by decide), if_pos rfl]
  rfl

/-- A run of characters of a kind that no character behind it joins. -/
theorem takeWhile_run {p : Char → Bool} {cs rest : List Char} (run : ∀ c ∈ cs, p c = true)
    (within : ∀ c, p c = true → joins c = true) (ends : rest.head?.any joins = false) :
    (cs ++ rest).takeWhile p = cs ∧ (cs ++ rest).dropWhile p = rest := by
  have stops : ∀ c, rest.head? = some c → p c = false := by
    intro c head
    rw [head, Option.any_some] at ends
    by_contra member
    have joined := within c (by simpa using member)
    rw [ends] at joined
    cases joined
  obtain ⟨taken, dropped⟩ := Token.takeWhile_append_of_head cs stops
  rw [taken, dropped, List.takeWhile_eq_self_iff.2 run, List.dropWhile_eq_nil_iff.2 run]
  exact ⟨rfl, rfl⟩

/-- A lexeme whose first character starts a run is read as far as the run goes. -/
theorem lex_of_readRun {c : Char} {rest behind : List Char} {l : Lexeme}
    (visible : c.isWhitespace = false) (unmarked : c ∉ marks) (colon : c ≠ ':')
    (h : readRun c rest = some (l, behind)) (ends : behind.head?.any joins = false) :
    lex (c :: rest) = (lex behind).map (l :: ·) := by
  refine lex_of_readLexeme visible ?_
  rw [readLexeme, if_neg unmarked, if_neg colon, h]
  simp [ends]

theorem joins_of_continuesIdentifier {c : Char} (h : continuesIdentifier c = true) :
    joins c = true := by
  simp [joins, h]

theorem lex_word {letters : String} (valid : isIdentifier letters.toList = true)
    {rest : List Char} (ends : rest.head?.any joins = false) :
    lex (Lexeme.text (.word letters) ++ rest) = (lex rest).map (.word letters :: ·) := by
  have all := Name.forall_of_isIdentifier valid
  rw [Lexeme.text]
  cases split : letters.toList with
  | nil =>
    rw [split] at valid
    cases valid
  | cons c cs =>
    rw [split] at valid all
    rw [isIdentifier, Bool.and_eq_true] at valid
    obtain ⟨continues, others⟩ := List.forall_mem_cons.1 all
    obtain ⟨visible, unmarked, colon, quote, digit⟩ :=
      forall_ascii (P := fun c => startsIdentifier c = true → c.isWhitespace = false ∧ c ∉ marks ∧
        c ≠ ':' ∧ c ≠ '"' ∧ isDigit c = false) (by decide)
        (Name.toNat_lt_of_continuesIdentifier continues) valid.1
    obtain ⟨taken, dropped⟩ := takeWhile_run others (fun _ => joins_of_continuesIdentifier) ends
    refine lex_of_readRun visible unmarked colon ?_ ends
    show readRun c (cs ++ rest) = some (.word letters, rest)
    rw [readRun, if_neg quote, if_neg (by simp [digit]), if_pos valid.1, taken, dropped, ← split,
      String.ofList_toList]

theorem lex_number (n : Nat) {rest : List Char} (ends : rest.head?.any joins = false) :
    lex (Lexeme.text (.number n) ++ rest) = (lex rest).map (.number n :: ·) := by
  have ascii : ∀ {c : Char}, isDigit c = true → c.toNat < 128 := by
    intro c digit
    have := Text.isDigit_iff.1 digit
    omega
  have joined : ∀ c, isDigit c = true → joins c = true := fun c digit =>
    forall_ascii (P := fun c => isDigit c = true → joins c = true) (by decide) (ascii digit) digit
  have digits : ∀ c ∈ decimal n, isDigit c = true := fun _ => Text.isDigit_of_mem_decimal
  have value : readDecimal? (decimal n) = some n := by
    have read := Text.readDigits?_decimal n
    cases written : decimal n with
    | nil => exact absurd written (Text.decimal_ne_nil n)
    | cons c cs =>
      rw [written] at read
      exact read
  rw [Lexeme.text]
  cases written : decimal n with
  | nil => exact absurd written (Text.decimal_ne_nil n)
  | cons c cs =>
    rw [written] at digits value
    obtain ⟨digit, others⟩ := List.forall_mem_cons.1 digits
    obtain ⟨visible, unmarked, colon, quote⟩ :=
      forall_ascii (P := fun c => isDigit c = true → c.isWhitespace = false ∧ c ∉ marks ∧
        c ≠ ':' ∧ c ≠ '"') (by decide) (ascii digit) digit
    obtain ⟨taken, dropped⟩ := takeWhile_run others joined ends
    refine lex_of_readRun visible unmarked colon ?_ ends
    show readRun c (cs ++ rest) = some (.number n, rest)
    rw [readRun, if_neg quote, if_pos digit, taken, dropped, value]
    rfl

theorem lex_string (s : String) {rest : List Char} (ends : rest.head?.any joins = false) :
    lex (Lexeme.text (.string s) ++ rest) = (lex rest).map (.string s :: ·) := by
  rw [Lexeme.text, toList_stringLiteral, List.cons_append, List.append_assoc,
    List.singleton_append]
  refine lex_of_readRun (by decide) (by decide) (by decide) ?_ ends
  rw [readRun, if_pos rfl, readText_escape, Option.map_some, String.ofList_toList]

theorem lex_text {l : Lexeme} (valid : l.isValid = true) {rest : List Char}
    (ends : l.isMark = true ∨ rest.head?.any joins = false) :
    lex (l.text ++ rest) = (lex rest).map (l :: ·) := by
  cases l with
  | word letters => exact lex_word valid (ends.resolve_left Bool.false_ne_true)
  | number n => exact lex_number n (ends.resolve_left Bool.false_ne_true)
  | string s => exact lex_string s (ends.resolve_left Bool.false_ne_true)
  | mark c => exact lex_mark (by simpa [Lexeme.isValid] using valid) rest
  | path => exact lex_path rest

/-- Lexemes that can stand next to each other in a row. -/
structure Legible (ls : List Lexeme) : Prop where
  valid : ∀ l ∈ ls, l.isValid = true
  apart : ls.IsChain Lexeme.Apart

/-- Lexemes in a row are read one by one. -/
theorem Legible.lex_texts {ls : List Lexeme} (h : Legible ls) :
    lex (ls.flatMap Lexeme.text) = some ls := by
  induction ls with
  | nil => rw [List.flatMap_nil, lex]
  | cons l rest ih =>
    obtain ⟨valid, others⟩ := List.forall_mem_cons.1 h.valid
    obtain ⟨next, chain⟩ := List.isChain_cons.1 h.apart
    have ends : l.isMark = true ∨ (rest.flatMap Lexeme.text).head?.any joins = false := by
      cases rest with
      | nil => exact .inr rfl
      | cons m rest =>
        refine (next m rfl).imp_right fun mark => ?_
        exact Lexeme.head?_text_of_isMark (others m List.mem_cons_self) mark _
    rw [List.flatMap_cons, lex_text valid ends, ih ⟨others, chain⟩]
    rfl

/-! ## Expressions of values -/

/-- The truth value of a keyword, and what comes behind it. -/
def readBool : List Lexeme → Option (Bool × List Lexeme)
  | .word letters :: rest =>
    if letters = "true" then some (true, rest)
    else if letters = "false" then some (false, rest)
    else none
  | _ => none

/-- A number as an integer of 64 bits, unless it is too large for one. -/
def fitInt? (n : Int) : Option Int64 :=
  if (Int64.ofInt n).toInt = n then some (Int64.ofInt n) else none

/-- An integer with an optional sign, and what comes behind it. -/
def readInt : List Lexeme → Option (Int64 × List Lexeme)
  | .number n :: rest => (fitInt? n).map fun k => (k, rest)
  | .mark '-' :: .number n :: rest => (fitInt? (-n)).map fun k => (k, rest)
  | _ => none

/-- A number as a byte, unless it is too large for one. -/
def fitByte? (n : Nat) : Option UInt8 :=
  if (UInt8.ofNat n).toNat = n then some (UInt8.ofNat n) else none

/-- Bytes with commas between them up to a closing bracket, and what comes behind it. A
    comma may follow the last one. -/
def readBytes : List Lexeme → Option (List UInt8 × List Lexeme)
  | .mark ']' :: rest => some ([], rest)
  | .number n :: .mark ']' :: rest => (fitByte? n).map fun b => ([b], rest)
  | .number n :: .mark ',' :: rest =>
    match fitByte? n, readBytes rest with
    | some b, some (bytes, behind) => some (b :: bytes, behind)
    | _, _ => none
  | _ => none

/-- What stands between parentheses, and what comes behind them. -/
def readArgument {α : Type} (read : List Lexeme → Option (α × List Lexeme)) :
    List Lexeme → Option (α × List Lexeme)
  | .mark '(' :: rest =>
    match read rest with
    | some (x, .mark ')' :: behind) => some (x, behind)
    | _ => none
  | _ => none

/-- A string literal, and what comes behind it. -/
def readLiteral : List Lexeme → Option (String × List Lexeme)
  | .string s :: rest => some (s, rest)
  | _ => none

/-- An owned string that is made from a literal, and what comes behind it. -/
def readOwned (ls : List Lexeme) : Option (String × List Lexeme) :=
  (List.isPrefixOf? [.word "String", .path, .word "from"] ls).bind (readArgument readLiteral)

/-- A list of bytes, and what comes behind it. -/
def readBlob (ls : List Lexeme) : Option (List UInt8 × List Lexeme) :=
  (List.isPrefixOf? [.word "vec", .mark '!', .mark '['] ls).bind readBytes

/-- The value of an expression that starts with the constructor `variant`, and what
    comes behind it. -/
def readVariant (variant : String) (ls : List Lexeme) : Option (Value × List Lexeme) :=
  if variant = "Null" then some (.null, ls)
  else if variant = "Bool" then (readArgument readBool ls).map (Prod.map .bool id)
  else if variant = "Int" then (readArgument readInt ls).map (Prod.map .int id)
  else if variant = "Text" then (readArgument readOwned ls).map (Prod.map .text id)
  else if variant = "Blob" then (readArgument readBlob ls).map (Prod.map .blob id)
  else none

/-- The value of an expression, and what comes behind it. Expressions of doubles are not
    read. -/
def readValue : List Lexeme → Option (Value × List Lexeme)
  | .word type :: .path :: .word variant :: rest =>
    if type = "SqlValue" then readVariant variant rest else none
  | _ => none

/-- The value that a text denotes as an expression. -/
def denoted? (code : List Char) : Option Value :=
  match (lex code).bind readValue with
  | some (v, []) => some v
  | _ => none

/-! ## Lexemes of values -/

/-- The lexemes of an integer. -/
def intLexemes : Int → List Lexeme
  | .ofNat n => [.number n]
  | .negSucc n => [.mark '-', .number (n + 1)]

/-- The lexemes of bytes with commas between them. -/
def byteLexemes : List UInt8 → List Lexeme
  | [] => []
  | [b] => [.number b.toNat]
  | b :: b' :: rest => .number b.toNat :: .mark ',' :: byteLexemes (b' :: rest)

/-- The lexemes of a constructor that is applied to an argument. -/
def variantLexemes (variant : String) (argument : List Lexeme) : List Lexeme :=
  .word "SqlValue" :: .path :: .word variant :: .mark '(' :: argument ++ [.mark ')']

/-- The lexemes of the expression of a value that is no double. -/
def valueLexemes : Value → List Lexeme
  | .null => [.word "SqlValue", .path, .word "Null"]
  | .bool b => variantLexemes "Bool" [.word (boolLiteral b)]
  | .int n => variantLexemes "Int" (intLexemes n.toInt)
  | .float _ => []
  | .text s =>
    variantLexemes "Text"
      [.word "String", .path, .word "from", .mark '(', .string s, .mark ')']
  | .blob bytes =>
    variantLexemes "Blob"
      (.word "vec" :: .mark '!' :: .mark '[' :: byteLexemes bytes ++ [.mark ']'])

theorem flatMap_text_intLexemes (n : Int) :
    (intLexemes n).flatMap Lexeme.text = (Text.ofInt n).toList := by
  rw [Text.ofInt, String.toList_ofList]
  cases n with
  | ofNat n => simp [intLexemes, Lexeme.text, Text.signed]
  | negSucc n => simp [intLexemes, Lexeme.text, Text.signed]

theorem flatMap_text_byteLexemes (bytes : List UInt8) :
    (byteLexemes bytes).flatMap Lexeme.text =
      (String.intercalate ", " (bytes.map fun b => Text.ofNat b.toNat)).toList := by
  fun_induction byteLexemes bytes with
  | case1 => rfl
  | case2 b => simp [Lexeme.text, Text.ofNat]
  | case3 b b' rest ih =>
    rw [List.flatMap_cons, List.flatMap_cons, ih]
    simp only [List.map_cons, String.intercalate_cons_cons]
    simp [Lexeme.text, Text.ofNat]

theorem toList_valueLiteral {v : Value} (whole : ∀ x, v ≠ .float x) :
    (valueLiteral v).toList = (valueLexemes v).flatMap Lexeme.text := by
  cases v with
  | null =>
    show "SqlValue::Null".toList = _
    simp [valueLexemes, Lexeme.text]
  | bool b =>
    show ("SqlValue::Bool(" ++ boolLiteral b ++ ")").toList = _
    simp [valueLexemes, variantLexemes, Lexeme.text]
  | int n =>
    show ("SqlValue::Int(" ++ Text.ofInt n.toInt ++ ")").toList = _
    simp [valueLexemes, variantLexemes, Lexeme.text, flatMap_text_intLexemes]
  | float x => exact absurd rfl (whole x)
  | text s =>
    show ("SqlValue::Text(String::from(" ++ stringLiteral s ++ "))").toList = _
    simp [valueLexemes, variantLexemes, Lexeme.text]
  | blob bytes =>
    show ("SqlValue::Blob(vec![" ++ String.intercalate ", " (bytes.map fun b => Text.ofNat b.toNat)
      ++ "])").toList = _
    simp [valueLexemes, variantLexemes, Lexeme.text, flatMap_text_byteLexemes]

/-! ## Rows of lexemes -/

theorem legible_singleton {l : Lexeme} (valid : l.isValid = true) : Legible [l] :=
  ⟨by simpa using valid, List.isChain_singleton l⟩

/-- A mark can stand before any lexemes. -/
theorem Legible.mark_cons {c : Char} {ls : List Lexeme} (h : Legible ls) (member : c ∈ marks) :
    Legible (.mark c :: ls) :=
  ⟨List.forall_mem_cons.2 ⟨by simpa [Lexeme.isValid] using member, h.valid⟩,
    h.apart.cons fun _ _ => .inl rfl⟩

/-- A mark can stand behind any lexemes. -/
theorem Legible.append_mark {c : Char} {ls : List Lexeme} (h : Legible ls) (member : c ∈ marks) :
    Legible (ls ++ [.mark c]) := by
  refine ⟨?_, List.isChain_append.2 ⟨h.apart, List.isChain_singleton _, ?_⟩⟩
  · rw [List.forall_mem_append]
    exact ⟨h.valid, by simpa [Lexeme.isValid] using member⟩
  · intro l _ m hm
    cases hm
    exact .inr rfl

/-- A word can stand before a mark. -/
theorem Legible.word_cons {c : Char} {ls : List Lexeme} (h : Legible (.mark c :: ls))
    {letters : String} (valid : isIdentifier letters.toList = true) :
    Legible (.word letters :: .mark c :: ls) :=
  ⟨List.forall_mem_cons.2 ⟨valid, h.valid⟩, List.isChain_cons_cons.2 ⟨.inr rfl, h.apart⟩⟩

/-- A word with colons behind it can stand before any lexemes. -/
theorem Legible.path_cons {ls : List Lexeme} (h : Legible ls) {letters : String}
    (valid : isIdentifier letters.toList = true) : Legible (.word letters :: .path :: ls) :=
  ⟨List.forall_mem_cons.2 ⟨valid, List.forall_mem_cons.2 ⟨rfl, h.valid⟩⟩,
    List.isChain_cons_cons.2 ⟨.inr rfl, h.apart.cons fun _ _ => .inl rfl⟩⟩

theorem legible_intLexemes (n : Int) : Legible (intLexemes n) := by
  cases n with
  | ofNat n => exact legible_singleton rfl
  | negSucc n => exact (legible_singleton rfl).mark_cons (by decide)

theorem legible_byteLexemes (bytes : List UInt8) : Legible (byteLexemes bytes) := by
  fun_induction byteLexemes bytes with
  | case1 => exact ⟨by simp, List.isChain_nil⟩
  | case2 b => exact legible_singleton rfl
  | case3 b b' rest ih =>
    have behind : Legible (.mark ',' :: byteLexemes (b' :: rest)) := ih.mark_cons (by decide)
    refine ⟨List.forall_mem_cons.2 ⟨rfl, behind.valid⟩, ?_⟩
    rw [List.isChain_cons_cons]
    exact ⟨.inr rfl, behind.apart⟩

theorem Legible.variant {argument : List Lexeme} (h : Legible argument) {variant : String}
    (valid : isIdentifier variant.toList = true) : Legible (variantLexemes variant argument) :=
  (((h.append_mark (by decide)).mark_cons (by decide)).word_cons valid).path_cons (by decide)

theorem legible_valueLexemes (v : Value) : Legible (valueLexemes v) := by
  cases v with
  | null => exact (legible_singleton (by decide)).path_cons (by decide)
  | bool b =>
    refine (legible_singleton ?_).variant (by decide)
    cases b <;> decide
  | int n => exact (legible_intLexemes n.toInt).variant (by decide)
  | float x => exact ⟨by simp [valueLexemes], List.isChain_nil⟩
  | text s =>
    have literal : Legible [.mark '(', .string s, .mark ')'] :=
      ((legible_singleton rfl).append_mark (by decide)).mark_cons (by decide)
    exact ((literal.word_cons (by decide)).path_cons (by decide)).variant (by decide)
  | blob bytes =>
    have list : Legible (.mark '!' :: .mark '[' :: byteLexemes bytes ++ [.mark ']']) :=
      (((legible_byteLexemes bytes).append_mark (by decide)).mark_cons (by decide)).mark_cons
        (by decide)
    exact (list.word_cons (by decide)).variant (by decide)

/-! ## Values that are read back -/

theorem readArgument_enclosed {α : Type} {read : List Lexeme → Option (α × List Lexeme)} {x : α}
    {argument : List Lexeme} (h : ∀ rest, read (argument ++ rest) = some (x, rest))
    (rest : List Lexeme) :
    readArgument read (.mark '(' :: (argument ++ .mark ')' :: rest)) = some (x, rest) := by
  rw [readArgument, h]
  rfl

theorem fitInt?_toInt (n : Int64) : fitInt? n.toInt = some n := by
  rw [fitInt?, Int64.ofInt_toInt, if_pos rfl]

theorem fitByte?_toNat (b : UInt8) : fitByte? b.toNat = some b := by
  rw [fitByte?, UInt8.ofNat_toNat, if_pos rfl]

theorem readInt_intLexemes (n : Int64) (rest : List Lexeme) :
    readInt (intLexemes n.toInt ++ rest) = some (n, rest) := by
  have fits := fitInt?_toInt n
  cases signed : n.toInt with
  | ofNat m =>
    rw [signed] at fits
    show (fitInt? (Int.ofNat m)).map _ = _
    rw [fits]
    rfl
  | negSucc m =>
    have minus : -((m + 1 : Nat) : Int) = Int.negSucc m := rfl
    rw [signed, ← minus] at fits
    rw [intLexemes, List.cons_append, List.singleton_append, readInt, fits]
    rfl

theorem readBytes_byteLexemes (bytes : List UInt8) (rest : List Lexeme) :
    readBytes (byteLexemes bytes ++ .mark ']' :: rest) = some (bytes, rest) := by
  fun_induction byteLexemes bytes with
  | case1 => rfl
  | case2 b =>
    show (fitByte? b.toNat).map _ = _
    rw [fitByte?_toNat]
    rfl
  | case3 b b' others ih =>
    rw [List.cons_append, List.cons_append, readBytes, fitByte?_toNat, ih]

theorem readValue_lexemes {v : Value} (whole : ∀ x, v ≠ .float x) :
    readValue (valueLexemes v) = some (v, []) := by
  cases v with
  | null => rfl
  | bool b =>
    have argument : ∀ rest, readBool ([.word (boolLiteral b)] ++ rest) = some (b, rest) := by
      intro rest
      cases b <;> rfl
    show (readArgument readBool (.mark '(' :: ([.word (boolLiteral b)] ++ [.mark ')']))).map _ = _
    rw [readArgument_enclosed argument]
    rfl
  | int n =>
    show (readArgument readInt (.mark '(' :: (intLexemes n.toInt ++ [.mark ')']))).map _ = _
    rw [readArgument_enclosed (readInt_intLexemes n)]
    rfl
  | float x => exact absurd rfl (whole x)
  | text s =>
    have argument : ∀ rest, readOwned ([.word "String", .path, .word "from", .mark '(', .string s,
        .mark ')'] ++ rest) = some (s, rest) := by
      intro rest
      rfl
    show (readArgument readOwned (.mark '(' :: ([.word "String", .path, .word "from", .mark '(',
      .string s, .mark ')'] ++ [.mark ')']))).map _ = _
    rw [readArgument_enclosed argument]
    rfl
  | blob bytes =>
    have argument : ∀ rest, readBlob (.word "vec" :: .mark '!' :: .mark '[' :: byteLexemes bytes ++
        [.mark ']'] ++ rest) = some (bytes, rest) := by
      intro rest
      rw [List.append_assoc]
      exact readBytes_byteLexemes bytes rest
    show (readArgument readBlob (.mark '(' :: (.word "vec" :: .mark '!' :: .mark '[' ::
      byteLexemes bytes ++ [.mark ']'] ++ [.mark ')']))).map _ = _
    rw [readArgument_enclosed argument]
    rfl

/-- Literals denote what they are written for. The literal of a text is read as the text
    and ends at its own quote, whatever comes behind it, and no line break stands in it.
    The expression of a value that is no double denotes the value. -/
theorem literals_denote (s : String) :
    (∀ rest, readString? ((stringLiteral s).toList ++ rest) = some (s, rest)) ∧
      '\n' ∉ (escape s).toList ∧ '\r' ∉ (escape s).toList ∧
      ∀ v : Value, (∀ x, v ≠ .float x) → denoted? (valueLiteral v).toList = some v := by
  refine ⟨readString?_stringLiteral s, not_mem_escape (by decide) (by decide) s,
    not_mem_escape (by decide) (by decide) s, fun v whole => ?_⟩
  rw [denoted?, toList_valueLiteral whole, (legible_valueLexemes v).lex_texts, Option.bind_some,
    readValue_lexemes whole]

/-- A backslash before a quote and a line break, and the least integer. -/
theorem leastKey_denoted :
    stringLiteral "\\\"\n" = "\"\\\\\\\"\\n\"" ∧
      readString? (stringLiteral "\\\"\n").toList = some ("\\\"\n", []) ∧
      (∀ x, Value.int Int64.minValue ≠ .float x) ∧
      valueLiteral (.int Int64.minValue) = "SqlValue::Int(-9223372036854775808)" ∧
      denoted? (valueLiteral (.int Int64.minValue)).toList = some (.int Int64.minValue) := by
  have whole : ∀ x, Value.int Int64.minValue ≠ .float x := by
    intro x h
    cases h
  obtain ⟨reads, -, -, denotes⟩ := literals_denote "\\\"\n"
  have read := reads []
  rw [List.append_nil] at read
  have written : "SqlValue::Int(" ++ Text.ofInt Int64.minValue.toInt ++ ")" =
      "SqlValue::Int(-9223372036854775808)" := by decide +kernel
  exact ⟨by decide +kernel, read, whole, written, denotes _ whole⟩

end Bindery.Code
