import Bindery.Dialect
import Bindery.Proofs.Text.Ascii
import Mathlib.Data.List.TakeWhile

/-!
# Tokens of SQL

How a database reads the text of a statement. An identifier stands between the
quotes of the dialect and a string between single quotes; inside, the quote
character is written twice. Everything else is a word, a number, a symbol, a
binary literal or a placeholder, and each is read as far as it goes. A text that
opens a quote and never closes it cannot be read, nor one that opens a comment,
which would hide what comes behind it.

* `Dialect.lex`: the tokens of a text.
* `Dialect.lex_quoted_append`, `Dialect.lex_string_append`: a quoted text is one
  token, whatever it holds.
* `Dialect.lex_append`: texts with a break between them are read one by one.
-/

namespace Bindery

/-- A token of SQL. -/
inductive Token where
  /-- A keyword, or another name without quotes. -/
  | word (letters : String)
  | number (digits : String)
  | symbol (c : Char)
  /-- A name between the quotes of the dialect. -/
  | identifier (name : String)
  | string (s : String)
  /-- Bytes in hexadecimal digits. -/
  | binary (digits : String)
  | placeholder
  deriving DecidableEq

namespace Token

/-- Whether a character may start a word. -/
def startsWord (c : Char) : Bool := c.isAlpha || c == '_'

/-- Whether a character may stand in a word. -/
def continuesWord (c : Char) : Bool := c.isAlphanum || c == '_'

/-- Whether a character may stand in a number behind its first digit. -/
def continuesNumber (c : Char) : Bool := Text.isDigit c || c == '.'

/-- The characters that are tokens of their own. -/
def symbols : List Char :=
  ['(', ')', ',', '.', ';', ':', '=', '<', '>', '+', '-', '*', '/', '%', '!', '|', '&']

/-- Whether a character and the one behind it open a comment. -/
def opensComment (c : Char) (behind : Option Char) : Bool :=
  (c == '-' && behind == some '-') || (c == '/' && behind == some '*')

/-- The text up to the closing quote `q`, a doubled quote read as one, and what
    comes behind it. -/
def readQuoted (q : Char) : List Char → Option (List Char × List Char)
  | [] => none
  | [c] => if c = q then some ([], []) else none
  | c :: c' :: rest =>
    if c = q then
      if c' = q then (readQuoted q rest).map fun (s, behind) => (q :: s, behind)
      else some ([], c' :: rest)
    else (readQuoted q (c' :: rest)).map fun (s, behind) => (c :: s, behind)

/-- A quoted text as a token of the given kind. -/
def readAs (kind : String → Token) (q : Char) (cs : List Char) : Option (Token × List Char) :=
  (readQuoted q cs).map fun p => (kind (String.ofList p.1), p.2)

/-- The token that begins with `c`, and what comes behind it. -/
def readToken (d : Dialect) (c : Char) (rest : List Char) : Option (Token × List Char) :=
  if c = d.quoteChar then readAs .identifier c rest
  else if c = '\'' then readAs .string c rest
  else if c = '?' then some (.placeholder, rest)
  else if (c = 'X' ∨ c = 'x') ∧ rest.head? = some '\'' then readAs .binary '\'' rest.tail
  else if Text.isDigit c then
    some (.number (String.ofList (c :: rest.takeWhile continuesNumber)),
      rest.dropWhile continuesNumber)
  else if startsWord c then
    some (.word (String.ofList (c :: rest.takeWhile continuesWord)), rest.dropWhile continuesWord)
  else if opensComment c rest.head? then none
  else if c ∈ symbols then some (.symbol c, rest)
  else none

/-! ## Progress -/

theorem length_of_readQuoted {q : Char} {cs s behind : List Char}
    (h : readQuoted q cs = some (s, behind)) : behind.length < cs.length := by
  fun_induction readQuoted q cs generalizing s behind with
  | case1 => cases h
  | case2 =>
    cases h
    simp
  | case3 c other => cases h
  | case4 rest ih =>
    obtain ⟨⟨s', behind'⟩, hread, heq⟩ := Option.map_eq_some_iff.1 h
    cases heq
    have := ih hread
    simp only [List.length_cons]
    omega
  | case5 c' rest other =>
    cases h
    simp
  | case6 c c' rest other ih =>
    obtain ⟨⟨s', behind'⟩, hread, heq⟩ := Option.map_eq_some_iff.1 h
    cases heq
    have := ih hread
    simp only [List.length_cons] at this ⊢
    omega

theorem readAs_eq_some_iff {kind : String → Token} {q : Char} {cs behind : List Char} {t : Token} :
    readAs kind q cs = some (t, behind) ↔
      ∃ s, readQuoted q cs = some (s, behind) ∧ kind (String.ofList s) = t := by
  simp [readAs]

theorem length_of_readToken {d : Dialect} {c : Char} {rest behind : List Char} {t : Token}
    (h : readToken d c rest = some (t, behind)) : behind.length ≤ rest.length := by
  have quoted : ∀ {kind : String → Token} {q : Char} {cs : List Char}, cs.length ≤ rest.length →
      readAs kind q cs = some (t, behind) → behind.length ≤ rest.length := by
    intro kind q cs hcs h
    obtain ⟨s, hread, -⟩ := readAs_eq_some_iff.1 h
    have := length_of_readQuoted hread
    omega
  rw [readToken] at h
  split at h
  · exact quoted (Nat.le_refl _) h
  split at h
  · exact quoted (Nat.le_refl _) h
  split at h
  · cases h
    exact Nat.le_refl _
  split at h
  · refine quoted ?_ h
    rw [List.length_tail]
    omega
  split at h
  · cases h
    exact (List.dropWhile_suffix _).length_le
  split at h
  · cases h
    exact (List.dropWhile_suffix _).length_le
  split at h
  · cases h
  split at h
  · cases h
    exact Nat.le_refl _
  · cases h

end Token

open Token

/-- The tokens of a text; blanks belong to none. -/
def Dialect.lex (d : Dialect) : List Char → Option (List Token)
  | [] => some []
  | c :: rest =>
    if c.isWhitespace then d.lex rest
    else
      match _h : readToken d c rest with
      | none => none
      | some (t, behind) => (d.lex behind).map (t :: ·)
termination_by cs => cs.length
decreasing_by
  · simp
  · have := length_of_readToken ‹_›
    simp only [List.length_cons]
    omega

namespace Token

/-! ## Breaks -/

/-- Characters that end every token before them. -/
def breaks : List Char := [' ', ',', '(', ')']

/-- The text goes on with a break, or ends. -/
def Breaks (rest : List Char) : Prop := ∀ c, rest.head? = some c → c ∈ breaks

theorem readQuoted_append {q : Char} {cs s behind rest : List Char}
    (h : readQuoted q cs = some (s, behind)) (apart : rest.head? ≠ some q) :
    readQuoted q (cs ++ rest) = some (s, behind ++ rest) := by
  fun_induction readQuoted q cs generalizing s behind with
  | case1 => cases h
  | case2 =>
    cases h
    cases rest with
    | nil => simp [readQuoted]
    | cons c' rest =>
      have other : c' ≠ q := by simpa using apart
      simp [readQuoted, other]
  | case3 c other => cases h
  | case4 rest' ih =>
    obtain ⟨⟨s', behind'⟩, hread, heq⟩ := Option.map_eq_some_iff.1 h
    cases heq
    simp [readQuoted, ih hread]
  | case5 c' rest' other =>
    cases h
    simp [readQuoted, other]
  | case6 c c' rest' other ih =>
    obtain ⟨⟨s', behind'⟩, hread, heq⟩ := Option.map_eq_some_iff.1 h
    cases heq
    have := ih hread
    simp only [List.cons_append] at this
    simp [readQuoted, other, this]

theorem readAs_append {kind : String → Token} {q : Char} {cs behind rest : List Char} {t : Token}
    (h : readAs kind q cs = some (t, behind)) (apart : rest.head? ≠ some q) :
    readAs kind q (cs ++ rest) = some (t, behind ++ rest) := by
  obtain ⟨s, hread, kind_eq⟩ := readAs_eq_some_iff.1 h
  exact readAs_eq_some_iff.2 ⟨s, readQuoted_append hread apart, kind_eq⟩

/-- A run of characters ends where it ended alone if the next character is not
    one of its kind. -/
theorem takeWhile_append_of_head {p : Char → Bool} (cs : List Char) {rest : List Char}
    (apart : ∀ c, rest.head? = some c → p c = false) :
    (cs ++ rest).takeWhile p = cs.takeWhile p ∧
      (cs ++ rest).dropWhile p = cs.dropWhile p ++ rest := by
  induction cs with
  | nil =>
    cases rest with
    | nil => simp
    | cons c rest => simp [apart c rfl]
  | cons c cs ih =>
    cases h : p c with
    | true => simp [h, ih]
    | false => simp [h]

theorem Breaks.head?_ne {rest : List Char} (h : Breaks rest) {c : Char} (hc : c ∉ breaks) :
    rest.head? ≠ some c := fun eq => hc (h c eq)

theorem Breaks.all_head? {rest : List Char} (h : Breaks rest) {p : Char → Bool}
    (hp : breaks.all (!p ·) = true) : ∀ c, rest.head? = some c → p c = false := by
  intro c hc
  have := List.all_eq_true.1 hp c (h c hc)
  simpa using this

/-- What is at the head of a text decides as before when a break comes behind
    the text. -/
theorem Breaks.head?_append {rest : List Char} (h : Breaks rest) {c : Char} (hc : c ∉ breaks)
    (cs : List Char) : (cs ++ rest).head? = some c ↔ cs.head? = some c := by
  cases cs with
  | nil => simp [h.head?_ne hc]
  | cons c' cs => simp

theorem quoteChar_not_mem_breaks (d : Dialect) : d.quoteChar ∉ breaks := by cases d <;> decide

/-- A token that is read in front of a break is the token that is read alone. -/
theorem readToken_append {d : Dialect} {c : Char} {cs behind rest : List Char} {t : Token}
    (h : readToken d c cs = some (t, behind)) (hrest : Breaks rest) :
    readToken d c (cs ++ rest) = some (t, behind ++ rest) := by
  have comment : opensComment c (cs ++ rest).head? = opensComment c cs.head? := by
    cases cs with
    | nil =>
      have minus := hrest.head?_ne (show '-' ∉ breaks by decide)
      have star := hrest.head?_ne (show '*' ∉ breaks by decide)
      simp [opensComment, minus, star]
    | cons c' cs => simp
  have string_apart := hrest.head?_ne (show '\'' ∉ breaks by decide)
  have binary := hrest.head?_append (show '\'' ∉ breaks by decide) cs
  obtain ⟨number_run, number_behind⟩ := takeWhile_append_of_head cs
    (hrest.all_head? (show breaks.all (!continuesNumber ·) = true by decide))
  obtain ⟨word_run, word_behind⟩ := takeWhile_append_of_head cs
    (hrest.all_head? (show breaks.all (!continuesWord ·) = true by decide))
  rw [readToken] at h ⊢
  rw [comment, number_run, number_behind, word_run, word_behind]
  simp only [binary]
  by_cases quote : c = d.quoteChar
  · rw [if_pos quote] at h ⊢
    exact readAs_append h (hrest.head?_ne (quote ▸ quoteChar_not_mem_breaks d))
  rw [if_neg quote] at h ⊢
  by_cases single : c = '\''
  · rw [if_pos single] at h ⊢
    exact readAs_append h (single ▸ string_apart)
  rw [if_neg single] at h ⊢
  by_cases question : c = '?'
  · rw [if_pos question] at h ⊢
    cases h
    rfl
  rw [if_neg question] at h ⊢
  by_cases hex : (c = 'X' ∨ c = 'x') ∧ cs.head? = some '\''
  · rw [if_pos hex] at h ⊢
    have nonempty : cs ≠ [] := by
      rintro rfl
      cases hex.2
    rw [List.tail_append_of_ne_nil nonempty]
    exact readAs_append h string_apart
  rw [if_neg hex] at h ⊢
  by_cases digit : Text.isDigit c = true
  · rw [if_pos digit] at h ⊢
    cases h
    rfl
  rw [if_neg digit] at h ⊢
  by_cases letter : startsWord c = true
  · rw [if_pos letter] at h ⊢
    cases h
    rfl
  rw [if_neg letter] at h ⊢
  by_cases hidden : opensComment c cs.head? = true
  · rw [if_pos hidden] at h
    cases h
  rw [if_neg hidden] at h ⊢
  by_cases symbol : c ∈ symbols
  · rw [if_pos symbol] at h ⊢
    cases h
    rfl
  · rw [if_neg symbol] at h
    cases h

end Token

namespace Dialect

variable {d : Dialect}

@[simp] theorem lex_nil : d.lex [] = some [] := by rw [lex]

theorem lex_blank {c : Char} (h : c.isWhitespace = true) (rest : List Char) :
    d.lex (c :: rest) = d.lex rest := by
  rw [lex, if_pos h]

theorem lex_of_readToken {c : Char} {rest behind : List Char} {t : Token}
    (visible : c.isWhitespace = false) (h : readToken d c rest = some (t, behind)) :
    d.lex (c :: rest) = (d.lex behind).map (t :: ·) := by
  rw [lex, if_neg (by simp [visible])]
  split
  · next none => rw [h] at none; cases none
  · next t' behind' some =>
    rw [h] at some
    cases some
    rfl

/-- Texts with a break between them are read one after the other. -/
theorem lex_append {cs rest : List Char} {ts : List Token} (h : d.lex cs = some ts)
    (hrest : Breaks rest) : d.lex (cs ++ rest) = (d.lex rest).map (ts ++ ·) := by
  fun_induction lex d cs generalizing ts with
  | case1 =>
    cases h
    simp
  | case2 c cs blank ih =>
    rw [List.cons_append, lex_blank blank, ih h]
  | case3 c cs visible none => cases h
  | case4 c cs visible t behind hread ih =>
    obtain ⟨ts', hbehind, rfl⟩ := Option.map_eq_some_iff.1 h
    rw [List.cons_append, lex_of_readToken (by simpa using visible) (readToken_append hread hrest),
      ih hbehind, Option.map_map]
    rfl

/-! ## Symbols -/

/-- Characters that are no part of a longer token. -/
def separators : List Char := ['(', ')', ',', '.']

theorem forall_mem_separators {P : Char → Prop} (h : P '(' ∧ P ')' ∧ P ',' ∧ P '.') :
    ∀ c ∈ separators, P c := by
  simpa [separators] using h

theorem readToken_separator {c : Char} (h : c ∈ separators) (rest : List Char) :
    readToken d c rest = some (.symbol c, rest) := by
  have quote : ∀ c ∈ separators, c ≠ d.quoteChar :=
    forall_mem_separators (by cases d <;> decide)
  have plain : ∀ c ∈ separators, c ≠ '\'' ∧ c ≠ '?' ∧ ¬ (c = 'X' ∨ c = 'x') ∧
      ¬ Text.isDigit c = true ∧ ¬ startsWord c = true ∧ c ≠ '-' ∧ c ≠ '/' ∧ c ∈ symbols :=
    forall_mem_separators (by decide)
  obtain ⟨single, question, hex, digit, letter, minus, slash, symbol⟩ := plain c h
  have comment : ¬ opensComment c rest.head? = true := by simp [opensComment, minus, slash]
  rw [readToken, if_neg (quote c h), if_neg single, if_neg question, if_neg (fun x => hex x.1),
    if_neg digit, if_neg letter, if_neg comment, if_pos symbol]

/-- A break is read on its own, and so is a point. -/
theorem lex_break_cons {c : Char} (h : c ∈ '.' :: breaks) :
    ∃ ts, ∀ rest, d.lex (c :: rest) = (d.lex rest).map (ts ++ ·) := by
  have visible : ∀ c ∈ separators, c.isWhitespace = false := forall_mem_separators (by decide)
  have blank_or_symbol : c = ' ' ∨ c ∈ separators := by
    simp only [breaks, List.mem_cons, List.not_mem_nil, or_false] at h
    rcases h with rfl | rfl | rfl | rfl | rfl
    · exact .inr (by decide)
    · exact .inl rfl
    all_goals exact .inr (by decide)
  rcases blank_or_symbol with rfl | symbol
  · refine ⟨[], fun rest => ?_⟩
    rw [lex_blank (by decide)]
    simp
  · refine ⟨[.symbol c], fun rest => ?_⟩
    rw [lex_of_readToken (visible c symbol) (readToken_separator symbol rest)]
    rfl

/-! ## Quoted texts -/

theorem readQuoted_cons_of_ne {q c : Char} (h : c ≠ q) (cs : List Char) :
    readQuoted q (c :: cs) = (readQuoted q cs).map fun p => (c :: p.1, p.2) := by
  cases cs with
  | nil => simp [readQuoted, h]
  | cons c' cs => simp [readQuoted, h]

/-- A quoted text ends at its own closing quote and reads back as what it
    quotes. -/
theorem readQuoted_double {q : Char} (s : List Char) {rest : List Char}
    (apart : rest.head? ≠ some q) :
    readQuoted q (Text.double q s ++ q :: rest) = some (s, rest) := by
  induction s with
  | nil =>
    cases rest with
    | nil => simp [Text.double, readQuoted]
    | cons c rest =>
      have other : c ≠ q := by simpa using apart
      simp [Text.double, readQuoted, other]
  | cons c s ih =>
    rw [Text.double]
    split
    · next quote => simp [readQuoted, ih, quote]
    · next other => rw [List.cons_append, readQuoted_cons_of_ne other, ih, Option.map_some]

theorem readAs_double {kind : String → Token} {q : Char} (s : String) {rest : List Char}
    (apart : rest.head? ≠ some q) :
    readAs kind q (Text.double q s.toList ++ q :: rest) = some (kind s, rest) := by
  rw [readAs, readQuoted_double s.toList apart]
  simp

theorem toList_quoted_append (q : Char) (s : String) (rest : List Char) :
    (Text.quoted q s).toList ++ rest = q :: (Text.double q s.toList ++ q :: rest) := by
  simp [Text.quoted]

theorem isWhitespace_quoteChar (d : Dialect) : d.quoteChar.isWhitespace = false := by
  cases d <;> decide

/-- A quoted name is one token, whatever it holds. -/
theorem lex_quoted_append (s : String) {rest : List Char}
    (apart : rest.head? ≠ some d.quoteChar) :
    d.lex ((Text.quoted d.quoteChar s).toList ++ rest) =
      (d.lex rest).map (.identifier s :: ·) := by
  rw [toList_quoted_append, lex_of_readToken (isWhitespace_quoteChar d)]
  rw [readToken, if_pos rfl]
  exact readAs_double s apart

/-- A string is one token, whatever it holds. -/
theorem lex_string_append (s : String) {rest : List Char} (apart : rest.head? ≠ some '\'') :
    d.lex ((Text.quoted '\'' s).toList ++ rest) = (d.lex rest).map (.string s :: ·) := by
  have single : '\'' ≠ d.quoteChar := by cases d <;> decide
  rw [toList_quoted_append, lex_of_readToken (by decide)]
  rw [readToken, if_neg single, if_pos rfl]
  exact readAs_double s apart

example : Dialect.mysql.lex "`a``b` = 'it''s' -- '".toList = none := by cbv

example : Dialect.mysql.lex "`a``b` = 'it''s'".toList =
    some [.identifier "a`b", .symbol '=', .string "it's"] := by cbv

theorem lex_quoted (s : String) :
    d.lex (Text.quoted d.quoteChar s).toList = some [.identifier s] := by
  have alone : ([] : List Char).head? ≠ some d.quoteChar := by simp
  have := lex_quoted_append s alone
  rwa [List.append_nil, lex_nil, Option.map_some] at this

theorem lex_string (s : String) : d.lex (Text.quoted '\'' s).toList = some [.string s] := by
  have alone : ([] : List Char).head? ≠ some '\'' := by simp
  have := lex_string_append (d := d) s alone
  rwa [List.append_nil, lex_nil, Option.map_some] at this

/-! ## Texts without quotes -/

end Dialect

namespace Token

/-- Whether a text is a single word or number. -/
def isRun : List Char → Bool
  | [] => false
  | c :: rest =>
    (Text.isDigit c && rest.all continuesNumber) || (startsWord c && rest.all continuesWord)

/-- The token of a word or number. -/
def run (cs : List Char) : Token :=
  if cs.head?.any Text.isDigit then .number (String.ofList cs) else .word (String.ofList cs)

/-- The tokens of a word or number that may have a sign. -/
def signedRun : List Char → List Token
  | '-' :: cs => [.symbol '-', run cs]
  | cs => [run cs]

/-- The first character of a word or number has no other meaning. -/
theorem plain_of_starts {c : Char} (h : Text.isDigit c = true ∨ startsWord c = true)
    (d : Dialect) :
    c.isWhitespace = false ∧ c ≠ d.quoteChar ∧ c ≠ '\'' ∧ c ≠ '?' ∧ c ≠ '-' := by
  refine ⟨?_, ?_, ?_, ?_, ?_⟩
  · rw [Bool.eq_false_iff]
    intro blank
    simp only [Char.isWhitespace, Bool.or_eq_true, decide_eq_true_eq] at blank
    rcases blank with ((rfl | rfl) | rfl) | rfl <;> revert h <;> decide
  · rintro rfl
    cases d <;> revert h <;> decide
  · rintro rfl
    revert h
    decide
  · rintro rfl
    revert h
    decide
  · rintro rfl
    revert h
    decide

theorem isDigit_eq_false_of_startsWord {c : Char} (h : startsWord c = true) :
    Text.isDigit c = false := by
  rw [startsWord, Bool.or_eq_true] at h
  rcases h with letter | underscore
  · have codes := Text.toNat_of_isAlpha letter
    have range : ¬ (48 ≤ c.toNat ∧ c.toNat ≤ 57) := by omega
    rw [Text.isDigit, Text.digitValue?, if_neg range]
    rfl
  · rw [eq_of_beq underscore]
    decide

theorem readToken_run {d : Dialect} {c : Char} {rest : List Char} (h : isRun (c :: rest) = true) :
    readToken d c rest = some (run (c :: rest), []) := by
  rw [isRun, Bool.or_eq_true, Bool.and_eq_true, Bool.and_eq_true] at h
  obtain ⟨-, quote, single, question, -⟩ := plain_of_starts (h.imp And.left And.left) d
  have unquoted : ¬ ((c = 'X' ∨ c = 'x') ∧ rest.head? = some '\'') := by
    rintro ⟨-, head⟩
    have member := List.mem_of_mem_head? head
    rcases h with ⟨-, all⟩ | ⟨-, all⟩
    · exact absurd (List.all_eq_true.1 all _ member) (by decide)
    · exact absurd (List.all_eq_true.1 all _ member) (by decide)
  rw [readToken, if_neg quote, if_neg single, if_neg question, if_neg unquoted]
  rcases h with ⟨digit, all⟩ | ⟨letter, all⟩
  · have whole := List.takeWhile_eq_self_iff.2 (List.all_eq_true.1 all)
    have none := List.dropWhile_eq_nil_iff.2 (List.all_eq_true.1 all)
    rw [if_pos digit, whole, none, run, List.head?_cons, Option.any_some, if_pos digit]
  · have whole := List.takeWhile_eq_self_iff.2 (List.all_eq_true.1 all)
    have none := List.dropWhile_eq_nil_iff.2 (List.all_eq_true.1 all)
    have digit : ¬ Text.isDigit c = true := by simp [isDigit_eq_false_of_startsWord letter]
    rw [if_neg digit, if_pos letter, whole, none, run, List.head?_cons, Option.any_some,
      if_neg digit]

end Token

namespace Dialect

variable {d : Dialect}

theorem lex_run {cs : List Char} (h : isRun cs = true) : d.lex cs = some [run cs] := by
  cases cs with
  | nil => cases h
  | cons c rest =>
    have starts : Text.isDigit c = true ∨ startsWord c = true := by
      rw [isRun, Bool.or_eq_true, Bool.and_eq_true, Bool.and_eq_true] at h
      exact h.imp And.left And.left
    rw [lex_of_readToken (plain_of_starts starts d).1 (readToken_run h), lex_nil, Option.map_some]

/-- A word or number is one token, and its sign another. -/
theorem lex_signedRun {cs : List Char} (negative : Bool) (h : isRun cs = true) :
    d.lex ((if negative then ['-'] else []) ++ cs) =
      some (signedRun ((if negative then ['-'] else []) ++ cs)) := by
  cases cs with
  | nil => cases h
  | cons c rest =>
    have starts : Text.isDigit c = true ∨ startsWord c = true := by
      rw [isRun, Bool.or_eq_true, Bool.and_eq_true, Bool.and_eq_true] at h
      exact h.imp And.left And.left
    obtain ⟨-, -, -, -, minus⟩ := plain_of_starts starts d
    cases negative with
    | false =>
      simp only [Bool.false_eq_true, ↓reduceIte, List.nil_append, lex_run h]
      rw [signedRun]
      exact fun cs' eq => minus (List.cons.inj eq).1
    | true =>
      have comment : opensComment '-' (c :: rest).head? = false := by simp [opensComment, minus]
      have sign : readToken d '-' (c :: rest) = some (.symbol '-', c :: rest) := by
        have quote : '-' ≠ d.quoteChar := by cases d <;> decide
        rw [readToken, if_neg quote, comment]
        simp [symbols, show Text.isDigit '-' = false by decide, show startsWord '-' = false by decide]
      simp only [↓reduceIte, List.singleton_append]
      rw [lex_of_readToken (by decide) sign, lex_run h, Option.map_some, signedRun]

end Dialect

end Bindery
