import Bindery.Proofs.Statement.Placeholders
import Bindery.Proofs.Text.Token

/-!
# Literals and backslashes

By the default rules of MySQL a backslash in a string escapes the character behind
it, and a quote may be written twice as well. The literal of a text doubles its quotes
and leaves its backslashes alone. What such a literal is read as therefore depends on
the backslashes of the text: the literal ends at its own closing quote unless one of
them takes a quote, or the end, for the character it escapes, and it means its text
only if all of them stand before a wildcard of patterns, where a backslash stays.

* `readString?`: the string at the front of a text, and what comes behind it.
* `leavesQuotes`, `keepsBackslashes`: the conditions on the backslashes of a text.
* `textLiterals_read_iff`: they decide where the literal ends and whether it is
  read as its text.
-/

namespace Bindery

open Text (double)

/-! ## Strings with escapes -/

/-- Whether a character is a wildcard of patterns. -/
def isWildcard (c : Char) : Bool := c == '%' || c == '_'

/-- The character that a backslash makes of the one behind it. -/
def escapedChar (c : Char) : Char :=
  if c = '0' then '\x00'
  else if c = 'b' then '\x08'
  else if c = 't' then '\t'
  else if c = 'n' then '\n'
  else if c = 'r' then '\r'
  else if c = 'Z' then '\x1a'
  else c

/-- What a backslash and the character behind it stand for. Before a wildcard the
    backslash stays, so that a pattern can tell the character from the wildcard. -/
def escaped (c : Char) : List Char := if isWildcard c then ['\\', c] else [escapedChar c]

/-- The characters up to the closing quote, and what comes behind it. -/
def readEscaped : List Char → Option (List Char × List Char)
  | [] => none
  | [c] => if c = '\'' then some ([], []) else none
  | c :: c' :: rest =>
    if c = '\\' then (readEscaped rest).map fun p => (escaped c' ++ p.1, p.2)
    else if c = '\'' then
      if c' = '\'' then (readEscaped rest).map fun p => ('\'' :: p.1, p.2)
      else some ([], c' :: rest)
    else (readEscaped (c' :: rest)).map fun p => (c :: p.1, p.2)

/-- The string at the front of a text, and what comes behind it. -/
def readString? : List Char → Option (String × List Char)
  | [] => none
  | c :: rest =>
    if c = '\'' then (readEscaped rest).map fun p => (String.ofList p.1, p.2) else none

theorem readEscaped_backslash (c : Char) (cs : List Char) :
    readEscaped ('\\' :: c :: cs) = (readEscaped cs).map fun p => (escaped c ++ p.1, p.2) := by
  simp [readEscaped]

theorem readEscaped_quotes (cs : List Char) :
    readEscaped ('\'' :: '\'' :: cs) = (readEscaped cs).map fun p => ('\'' :: p.1, p.2) := by
  simp [readEscaped]

theorem readEscaped_close {rest : List Char} (apart : rest.head? ≠ some '\'') :
    readEscaped ('\'' :: rest) = some ([], rest) := by
  cases rest with
  | nil => simp [readEscaped]
  | cons c rest =>
    have other : c ≠ '\'' := by simpa using apart
    simp [readEscaped, other]

theorem readEscaped_plain {c : Char} (backslash : c ≠ '\\') (quote : c ≠ '\'') (cs : List Char) :
    readEscaped (c :: cs) = (readEscaped cs).map fun p => (c :: p.1, p.2) := by
  cases cs with
  | nil => simp [readEscaped, quote]
  | cons c' cs => simp [readEscaped, backslash, quote]

theorem length_of_readEscaped {cs v behind : List Char}
    (h : readEscaped cs = some (v, behind)) : behind.length < cs.length := by
  fun_induction readEscaped cs generalizing v behind with
  | case1 => cases h
  | case2 =>
    cases h
    simp
  | case3 c other => cases h
  | case4 c' rest ih =>
    obtain ⟨⟨v', behind'⟩, read, same⟩ := Option.map_eq_some_iff.1 h
    cases same
    have shorter := ih read
    simp only [List.length_cons]
    omega
  | case5 rest backslash ih =>
    obtain ⟨⟨v', behind'⟩, read, same⟩ := Option.map_eq_some_iff.1 h
    cases same
    have shorter := ih read
    simp only [List.length_cons]
    omega
  | case6 c' rest backslash other =>
    cases h
    simp
  | case7 c c' rest backslash quote ih =>
    obtain ⟨⟨v', behind'⟩, read, same⟩ := Option.map_eq_some_iff.1 h
    cases same
    have shorter := ih read
    simp only [List.length_cons] at shorter ⊢
    omega

/-! ## Conditions on a text -/

/-- No backslash escapes a quote of the text, and none escapes its end. -/
def leavesQuotes : List Char → Bool
  | [] => true
  | [c] => c != '\\'
  | c :: c' :: rest =>
    if c = '\\' then c' != '\'' && leavesQuotes rest else leavesQuotes (c' :: rest)

/-- Every backslash of the text stands before a wildcard. -/
def keepsBackslashes : List Char → Bool
  | [] => true
  | c :: rest => (c != '\\' || rest.head?.any isWildcard) && keepsBackslashes rest

/-- What a text means in which the backslashes are escapes. -/
def meaning : List Char → List Char
  | [] => []
  | [c] => [c]
  | c :: c' :: rest => if c = '\\' then escaped c' ++ meaning rest else c :: meaning (c' :: rest)

theorem leavesQuotes_cons_of_ne {c : Char} (h : c ≠ '\\') (cs : List Char) :
    leavesQuotes (c :: cs) = leavesQuotes cs := by
  cases cs with
  | nil => simp [leavesQuotes, h]
  | cons c' cs => rw [leavesQuotes, if_neg h]

theorem length_escaped_le (c : Char) : (escaped c).length ≤ 2 := by
  unfold escaped
  split <;> simp

theorem length_meaning_le (s : List Char) : (meaning s).length ≤ s.length := by
  fun_induction meaning s with
  | case1 => simp
  | case2 c => simp
  | case3 c' rest ih =>
    have two := length_escaped_le c'
    simp only [List.length_append, List.length_cons]
    omega
  | case4 c c' rest other ih =>
    simp only [List.length_cons] at ih ⊢
    omega

/-- A text means itself if every backslash of it stays. -/
theorem meaning_eq_self_iff (s : List Char) :
    leavesQuotes s = true ∧ meaning s = s ↔ keepsBackslashes s = true := by
  fun_induction meaning s with
  | case1 => simp [leavesQuotes, keepsBackslashes]
  | case2 c => simp [leavesQuotes, keepsBackslashes]
  | case3 c' rest ih =>
    by_cases wildcard : isWildcard c' = true
    · have other : c' ≠ '\\' ∧ c' ≠ '\'' := by
        constructor <;> (rintro rfl; cases wildcard)
      simp [leavesQuotes, keepsBackslashes, escaped, wildcard, other, ih]
    · -- An escape that does not stay makes the text shorter.
      have shorter : escaped c' ++ meaning rest ≠ '\\' :: c' :: rest := by
        intro same
        have lengths := congrArg List.length same
        have short := length_meaning_le rest
        simp only [escaped, wildcard, List.length_append, List.length_cons, List.length_nil,
          Bool.false_eq_true, if_false] at lengths
        omega
      simp [keepsBackslashes, wildcard, shorter]
  | case4 c c' rest other ih =>
    have kept : keepsBackslashes (c :: c' :: rest) = keepsBackslashes (c' :: rest) := by
      rw [keepsBackslashes]
      simp [other]
    rw [leavesQuotes_cons_of_ne other, kept, ← ih, List.cons_inj_right]

/-! ## Literals -/

/-- A character other than a backslash is read as itself, a quote from two. -/
theorem readEscaped_double_cons {c : Char} (other : c ≠ '\\') (s rest : List Char) :
    readEscaped (double '\'' (c :: s) ++ rest) =
      (readEscaped (double '\'' s ++ rest)).map fun p => (c :: p.1, p.2) := by
  rw [double]
  split
  · next quote =>
    rw [quote]
    exact readEscaped_quotes _
  · next plain => exact readEscaped_plain other plain _

/-- A literal of which no quote is escaped is read up to its closing quote. -/
theorem readEscaped_double {s rest : List Char} (apart : rest.head? ≠ some '\'')
    (leaves : leavesQuotes s = true) :
    readEscaped (double '\'' s ++ '\'' :: rest) = some (meaning s, rest) := by
  fun_induction meaning s with
  | case1 => exact readEscaped_close apart
  | case2 c =>
    have other : c ≠ '\\' := by simpa [leavesQuotes] using leaves
    have closed : readEscaped (double '\'' [] ++ '\'' :: rest) = some ([], rest) :=
      readEscaped_close apart
    rw [readEscaped_double_cons other, closed, Option.map_some]
  | case3 c' rest' ih =>
    rw [leavesQuotes, if_pos rfl, Bool.and_eq_true, bne_iff_ne] at leaves
    rw [double, if_neg (by decide), double, if_neg leaves.1, List.cons_append, List.cons_append,
      readEscaped_backslash, ih leaves.2, Option.map_some]
  | case4 c c' rest' other ih =>
    rw [leavesQuotes_cons_of_ne other] at leaves
    rw [readEscaped_double_cons other, ih leaves, Option.map_some]

/-- Behind an escaped quote the other one of its pair closes the string, or is the first
    of a pair that goes on past the closing quote. -/
theorem length_ne_of_misread {s rest v behind : List Char}
    (h : readEscaped ('\'' :: (double '\'' s ++ '\'' :: rest)) = some (v, behind)) :
    behind.length ≠ rest.length := by
  induction s generalizing v with
  | nil =>
    have paired : readEscaped ('\'' :: '\'' :: rest) = some (v, behind) := h
    rw [readEscaped_quotes] at paired
    obtain ⟨⟨v', behind'⟩, read, same⟩ := Option.map_eq_some_iff.1 paired
    cases same
    exact Nat.ne_of_lt (length_of_readEscaped read)
  | cons c s ih =>
    rw [double] at h
    split at h
    · rw [List.cons_append, List.cons_append, readEscaped_quotes] at h
      obtain ⟨⟨v', behind'⟩, read, same⟩ := Option.map_eq_some_iff.1 h
      cases same
      exact ih read
    · next plain =>
      have apart : (c :: (double '\'' s ++ '\'' :: rest)).head? ≠ some '\'' := by simpa using plain
      rw [List.cons_append, readEscaped_close apart] at h
      cases h
      simp only [List.length_cons, List.length_append]
      omega

/-- A literal that ends at its closing quote has no quote escaped. -/
theorem leavesQuotes_of_readEscaped {s rest v : List Char}
    (h : readEscaped (double '\'' s ++ '\'' :: rest) = some (v, rest)) :
    leavesQuotes s = true := by
  fun_induction leavesQuotes s generalizing v with
  | case1 => rfl
  | case2 c =>
    rw [bne_iff_ne]
    rintro rfl
    -- The closing quote is escaped, so the string goes on behind it.
    have past : readEscaped ('\\' :: '\'' :: rest) = some (v, rest) := h
    rw [readEscaped_backslash] at past
    obtain ⟨⟨v', behind'⟩, read, same⟩ := Option.map_eq_some_iff.1 past
    cases same
    exact absurd (length_of_readEscaped read) (Nat.lt_irrefl _)
  | case3 c' rest' ih =>
    rw [double, if_neg (by decide), double] at h
    rw [Bool.and_eq_true, bne_iff_ne]
    split at h
    · rw [List.cons_append, List.cons_append, readEscaped_backslash] at h
      obtain ⟨⟨v', behind'⟩, read, same⟩ := Option.map_eq_some_iff.1 h
      cases same
      exact absurd rfl (length_ne_of_misread read)
    · next plain =>
      rw [List.cons_append, List.cons_append, readEscaped_backslash] at h
      obtain ⟨⟨v', behind'⟩, read, same⟩ := Option.map_eq_some_iff.1 h
      cases same
      exact ⟨plain, ih read⟩
  | case4 c c' rest' other ih =>
    rw [readEscaped_double_cons other] at h
    obtain ⟨⟨v', behind'⟩, read, same⟩ := Option.map_eq_some_iff.1 h
    cases same
    exact ih read

/-- A literal ends at its closing quote if and only if no quote of its text is escaped;
    it is then read as what the text means. -/
theorem readString?_quoted_iff {s v : String} {rest : List Char}
    (apart : rest.head? ≠ some '\'') :
    readString? ((Text.quoted '\'' s).toList ++ rest) = some (v, rest) ↔
      leavesQuotes s.toList = true ∧ v.toList = meaning s.toList := by
  rw [Dialect.toList_quoted_append, readString?, if_pos rfl]
  constructor
  · intro h
    obtain ⟨⟨v', behind'⟩, read, same⟩ := Option.map_eq_some_iff.1 h
    cases same
    have leaves := leavesQuotes_of_readEscaped read
    rw [readEscaped_double apart leaves] at read
    cases read
    exact ⟨leaves, String.toList_ofList⟩
  · rintro ⟨leaves, value⟩
    rw [readEscaped_double apart leaves, ← value, Option.map_some, String.ofList_toList]

/-- The literals of a text: that of the value, and that of the default of a column. -/
def textLiterals (s : String) : List String :=
  [(Value.text s).literal, (DefaultValue.string s).sql .mysql]

/-- In front of anything but a quote, a literal of a text is read as a string with
    exactly this text if and only if every backslash of the text stands before a
    wildcard; and the string ends where the literal does if and only if no backslash
    escapes a quote of the text or its end. -/
theorem textLiterals_read_iff (s : String) {rest : List Char}
    (apart : rest.head? ≠ some '\'') :
    ∀ literal ∈ textLiterals s,
      (readString? (literal.toList ++ rest) = some (s, rest) ↔
        keepsBackslashes s.toList = true) ∧
      ((∃ v, readString? (literal.toList ++ rest) = some (v, rest)) ↔
        leavesQuotes s.toList = true) := by
  intro literal member
  have written : literal = Text.quoted '\'' s := by
    rcases List.mem_cons.1 member with rfl | member
    · rfl
    · exact List.mem_singleton.1 member
  rw [written]
  constructor
  · rw [readString?_quoted_iff apart, ← meaning_eq_self_iff]
    exact and_congr_right fun _ => eq_comm
  · constructor
    · rintro ⟨v, read⟩
      exact ((readString?_quoted_iff apart).1 read).1
    · intro leaves
      exact ⟨String.ofList (meaning s.toList),
        (readString?_quoted_iff apart).2 ⟨leaves, String.toList_ofList⟩⟩

theorem discount_read :
    (")".toList).head? ≠ some '\'' ∧ "it's 5\\% off".toList.contains '\\' = true ∧
    readString? ((Value.text "it's 5\\% off").literal.toList ++ ")".toList) =
      some ("it's 5\\% off", ")".toList) := by
  have apart : (")".toList).head? ≠ some '\'' := by decide
  have both := textLiterals_read_iff "it's 5\\% off" apart _ List.mem_cons_self
  exact ⟨apart, by decide, both.1.2 (by decide)⟩

/-- A text that closes its literal: of the condition on the name nothing is left but a
    quote, and what comes behind it is true of every row. -/
theorem clearNames_breaksOut :
    ∃ c, (Action.perform "clear" accounts (.delete { filter := { conditions :=
        [.byValue (.ofMain "name") .eq (.text "\\' OR 1=1 -- ")] } })).compile {} = .ok c ∧
      c.sql = "DELETE FROM \x60accounts\x60 WHERE \x60name\x60 = " ++ "'\\'' OR 1=1 -- '" ∧
      readString? "'\\'' OR 1=1 -- '".toList = some ("'", " OR 1=1 -- '".toList) :=
  ⟨_, rfl, by decide, by decide⟩

end Bindery
