import Bindery.Name.Identifier
import Bindery.Proofs.Text.Ascii
import Mathlib.Data.List.Basic

/-!
# Spellings of the same words

The characters of a word are lower case and no separators. A word that starts with
a digit has no capital, so the Pascal case of a name does not tell where it starts,
while the snake case does: two names have one Pascal case if and only if their snake
cases agree but for underscores before digits.

* `Name.exists_of_mem_words`: where the characters of a word come from.
* `Name.closeDigits`: a text without the underscores before digits.
* `Name.pascal_eq_iff`: the names with one Pascal case.
* `Name.typeName_eq_iff`: the names with one type name.
-/

namespace Bindery.Name

open Bindery.Text

/-! ## Characters of words -/

/-- A character of a segment is the lower case of a character that separates
    nothing. -/
theorem exists_of_mem_segments {before : Char} {cs segment : List Char}
    (member : segment ∈ segments before cs) {x : Char} (h : x ∈ segment) :
    ∃ c ∈ cs, isSeparator c = false ∧ x ∈ toLower c := by
  induction cs generalizing before segment with
  | nil =>
    rw [segments, List.mem_singleton] at member
    rw [member] at h
    cases h
  | cons c behind ih =>
    have from_behind : ∀ s ∈ segments c behind, x ∈ s →
        ∃ c' ∈ c :: behind, isSeparator c' = false ∧ x ∈ toLower c' := by
      intro s hs hx
      obtain ⟨c', hc', spelled⟩ := ih hs hx
      exact ⟨c', List.mem_cons_of_mem _ hc', spelled⟩
    rw [segments] at member
    split at member
    · rcases List.mem_cons.1 member with rfl | member
      · cases h
      · exact from_behind segment member h
    · next inside =>
      have from_ahead : segment ∈ (segments c behind).modifyHead (toLower c ++ ·) →
          ∃ c' ∈ c :: behind, isSeparator c' = false ∧ x ∈ toLower c' := by
        intro member
        cases ahead : segments c behind with
        | nil =>
          rw [ahead] at member
          cases member
        | cons first others =>
          rw [ahead] at member from_behind
          rcases List.mem_cons.1 member with rfl | member
          · rcases List.mem_append.1 h with h | h
            · exact ⟨c, List.mem_cons_self, by simpa using inside, h⟩
            · exact from_behind first List.mem_cons_self h
          · exact from_behind segment (List.mem_cons_of_mem _ member) h
      dsimp only at member
      split at member
      · rcases List.mem_cons.1 member with rfl | member
        · cases h
        · exact from_ahead member
      · exact from_ahead member

theorem exists_of_mem_words {name : String} {word : List Char} (member : word ∈ words name)
    {x : Char} (h : x ∈ word) : ∃ c ∈ name.toList, isSeparator c = false ∧ x ∈ toLower c :=
  exists_of_mem_segments (List.mem_filter.1 member).1 h

theorem ne_nil_of_mem_words {name : String} {word : List Char} (member : word ∈ words name) :
    word ≠ [] := by
  have kept := (List.mem_filter.1 member).2
  rintro rfl
  cases kept

/-- Whether a character is a lower case letter or a digit of ASCII. -/
def isPlain (c : Char) : Bool := c.isLower || c.isDigit

theorem toNat_lt_of_continuesIdentifier {c : Char} (h : continuesIdentifier c = true) :
    c.toNat < 128 := by
  simp only [continuesIdentifier, Char.isAlphanum, Char.isDigit, Bool.or_eq_true,
    Bool.and_eq_true, decide_eq_true_eq, beq_iff_eq, UInt32.le_iff_toNat_le, ge_iff_le] at h
  rcases h with (letter | ⟨-, below⟩) | rfl
  · have codes := toNat_of_isAlpha letter
    omega
  · have code : c.toNat ≤ 57 := below
    omega
  · decide

theorem toNat_lt_of_isPlain {c : Char} (h : isPlain c = true) : c.toNat < 128 := by
  refine toNat_lt_of_continuesIdentifier ?_
  rw [isPlain, Bool.or_eq_true] at h
  rcases h with h | h <;> simp [continuesIdentifier, Char.isAlphanum, isAlpha_eq, h]

theorem isPlain_of_isLower {c : Char} (h : c.isLower = true) : isPlain c = true := by
  simp [isPlain, h]

/-- A code beyond ASCII gives no character of an identifier. -/
theorem lt_of_continuesIdentifier_ofNat {n : Nat} (h : continuesIdentifier (Char.ofNat n) = true) :
    n < 128 := by
  rcases toNat_ofNat_or n with code | none
  · rw [← code]
    exact toNat_lt_of_continuesIdentifier h
  · rw [none] at h
    exact absurd h (by decide)

/-- Whether the tables of a mapping lead beyond ASCII, but for single characters
    with a plain image. -/
def leadsToPlain (shifts : List (Span × Int)) (sequences : List (Nat × List Nat)) : Bool :=
  shifts.all (fun x => decide (128 ≤ x.1.first + x.2) ||
    x.1.first == x.1.last && isPlain (Char.ofNat (x.1.first + x.2).toNat)) &&
  sequences.all fun x => x.2.all fun n => decide (128 ≤ n) || isPlain (Char.ofNat n)

theorem isPlain_of_mem_mapByTable {shifts : List (Span × Int)} {sequences : List (Nat × List Nat)}
    (table : leadsToPlain shifts sequences = true) {c x : Char} (beyond : ¬ c.toNat < 128)
    (h : x ∈ mapByTable shifts sequences c) (valid : continuesIdentifier x = true) :
    isPlain x = true := by
  simp only [leadsToPlain, Bool.and_eq_true, List.all_eq_true, Bool.or_eq_true,
    decide_eq_true_eq, beq_iff_eq] at table
  rw [mapByTable] at h
  split at h
  · next codes found =>
    obtain ⟨n, hn, rfl⟩ := List.mem_map.1 h
    rcases table.2 _ (List.mem_of_find?_eq_some found) n hn with large | plain
    · exact absurd (lt_of_continuesIdentifier_ofNat valid) (Nat.not_lt.2 large)
    · exact plain
  · split at h
    · next span shift found =>
      have inside : span.contains c.toNat = true := by simpa using List.find?_some found
      simp only [Span.contains, Bool.and_eq_true, decide_eq_true_eq] at inside
      obtain rfl := List.mem_singleton.1 h
      have small := lt_of_continuesIdentifier_ofNat valid
      -- A span that leads beyond ASCII does so from its first character on.
      rcases table.1 _ (List.mem_of_find?_eq_some found) with large | ⟨single, plain⟩
      · dsimp only at large
        omega
      · have same : c.toNat = span.first := by
          dsimp only at single
          omega
        rw [same]
        exact plain
    · rw [List.mem_singleton.1 h] at valid
      exact absurd (toNat_lt_of_continuesIdentifier valid) beyond

/-- The lower case of a character that separates nothing is plain, if it may stand in
    an identifier. -/
theorem isPlain_of_mem_toLower {c x : Char} (h : x ∈ toLower c) (inside : isSeparator c = false)
    (valid : continuesIdentifier x = true) : isPlain x = true := by
  rw [toLower] at h
  split at h
  · next ascii =>
    rw [List.mem_singleton] at h
    subst h
    exact forall_ascii (P := fun c => isSeparator c = false →
      continuesIdentifier c.toLower = true → isPlain c.toLower = true) (by decide) ascii inside
      valid
  · next beyond => exact isPlain_of_mem_mapByTable (by decide) beyond h valid

/-- Words of plain characters, the first of which starts with a letter. -/
structure PlainWords (ws : List (List Char)) : Prop where
  filled : ∀ w ∈ ws, w ≠ []
  plain : ∀ w ∈ ws, ∀ c ∈ w, isPlain c = true
  starts : ∃ c w rest, ws = (c :: w) :: rest ∧ c.isLower = true

theorem intercalate_underscore (w : List Char) (rest : List (List Char)) :
    List.intercalate ['_'] (w :: rest) = w ++ rest.flatMap ('_' :: ·) := by
  induction rest generalizing w with
  | nil => simp [List.intercalate]
  | cons v rest ih =>
    have next := ih v
    simp_all [List.intercalate]

theorem toList_snake {name : String} {w : List Char} {rest : List (List Char)}
    (split : words name = w :: rest) :
    (snake name).toList = w ++ rest.flatMap ('_' :: ·) := by
  rw [snake, joinWords, String.toList_ofList, split, intercalate_underscore]

theorem forall_of_isIdentifier {cs : List Char} (h : isIdentifier cs = true) :
    ∀ c ∈ cs, continuesIdentifier c = true := by
  cases cs with
  | nil => simp
  | cons c rest =>
    rw [isIdentifier, Bool.and_eq_true, List.all_eq_true] at h
    rw [List.forall_mem_cons]
    refine ⟨?_, h.2⟩
    have start := h.1
    rw [startsIdentifier, Bool.or_eq_true] at start
    rcases start with letter | underscore
    · simp [continuesIdentifier, Char.isAlphanum, letter]
    · simp [continuesIdentifier, underscore]

/-- A name whose snake case is an identifier has plain words. -/
theorem plainWords_words {name : String} (valid : isIdentifier (snake name).toList = true) :
    PlainWords (words name) := by
  cases split : words name with
  | nil =>
    rw [snake, split] at valid
    cases valid
  | cons w rest =>
    have member : ∀ v ∈ w :: rest, v ∈ words name := fun v hv => split ▸ hv
    rw [toList_snake split] at valid
    have filled : ∀ v ∈ w :: rest, v ≠ [] := fun v hv => ne_nil_of_mem_words (member v hv)
    have plain : ∀ v ∈ w :: rest, ∀ c ∈ v, isPlain c = true := by
      intro v hv c hc
      obtain ⟨c', -, inside, spelled⟩ := exists_of_mem_words (member v hv) hc
      refine isPlain_of_mem_toLower spelled inside (forall_of_isIdentifier valid c ?_)
      rcases List.mem_cons.1 hv with rfl | hv
      · exact List.mem_append_left _ hc
      · exact List.mem_append_right _ (List.mem_flatMap.2 ⟨v, hv, List.mem_cons_of_mem _ hc⟩)
    obtain ⟨c, w, rfl⟩ := List.exists_cons_of_ne_nil (filled w List.mem_cons_self)
    refine ⟨filled, plain, c, w, rest, rfl, ?_⟩
    have first := plain _ List.mem_cons_self c List.mem_cons_self
    rw [List.cons_append, isIdentifier, Bool.and_eq_true] at valid
    exact forall_ascii (P := fun c => isPlain c = true → startsIdentifier c = true →
      c.isLower = true) (by decide)
      (toNat_lt_of_isPlain first) first valid.1

/-! ## Pascal case -/

/-- A text without the underscores that stand right before a digit. -/
def closeDigits : List Char → List Char
  | [] => []
  | c :: rest =>
    if c = '_' ∧ rest.head?.any isDigit then closeDigits rest else c :: closeDigits rest

/-- A text with its capitals in lower case behind underscores. -/
def lowerCapitals (cs : List Char) : List Char :=
  cs.flatMap fun c => if c.isUpper then ['_', c.toLower] else [c]

theorem lowerCapitals_append (cs ds : List Char) :
    lowerCapitals (cs ++ ds) = lowerCapitals cs ++ lowerCapitals ds :=
  List.flatMap_append

theorem lowerCapitals_of_plain {w : List Char} (plain : ∀ c ∈ w, isPlain c = true) :
    lowerCapitals w = w := by
  induction w with
  | nil => rfl
  | cons c rest ih =>
    obtain ⟨first, others⟩ := List.forall_mem_cons.1 plain
    have ascii := toNat_lt_of_isPlain first
    have small : c.isUpper = false :=
      forall_ascii (P := fun c => isPlain c = true → c.isUpper = false) (by decide) ascii first
    rw [← List.singleton_append, lowerCapitals_append, ih others]
    simp [lowerCapitals, small]

theorem closeDigits_plain_append {w : List Char} (plain : ∀ c ∈ w, isPlain c = true)
    (cs : List Char) : closeDigits (w ++ cs) = w ++ closeDigits cs := by
  induction w with
  | nil => rfl
  | cons c rest ih =>
    obtain ⟨first, others⟩ := List.forall_mem_cons.1 plain
    have inside : c ≠ '_' := by
      rintro rfl
      cases first
    rw [List.cons_append, closeDigits, ih others]
    simp [inside]

/-- A capital shows where a word starts, unless the word starts with a digit. -/
theorem lowerCapitals_capitalize {w : List Char} (filled : w ≠ [])
    (plain : ∀ c ∈ w, isPlain c = true) (cs : List Char) :
    lowerCapitals (capitalize w) ++ closeDigits cs = closeDigits ('_' :: w ++ cs) := by
  obtain ⟨c, rest, rfl⟩ := List.exists_cons_of_ne_nil filled
  obtain ⟨first, others⟩ := List.forall_mem_cons.1 plain
  have ascii := toNat_lt_of_isPlain first
  have capital : lowerCapitals [c.toUpper] = if isDigit c then [c] else ['_', c] :=
    forall_ascii (P := fun c => isPlain c = true →
      lowerCapitals [c.toUpper] = if isDigit c then [c] else ['_', c]) (by decide) ascii first
  have behind : closeDigits (c :: (rest ++ cs)) = c :: rest ++ closeDigits cs :=
    closeDigits_plain_append plain cs
  rw [capitalize, toUpper, if_pos ascii, lowerCapitals_append, capital,
    lowerCapitals_of_plain others, List.cons_append, List.cons_append, closeDigits, behind]
  cases digit : isDigit c <;> simp [digit]

theorem lowerCapitals_flatten_capitalize {ws : List (List Char)} (filled : ∀ w ∈ ws, w ≠ [])
    (plain : ∀ w ∈ ws, ∀ c ∈ w, isPlain c = true) :
    lowerCapitals (ws.map capitalize).flatten = closeDigits (ws.flatMap ('_' :: ·)) := by
  induction ws with
  | nil => rfl
  | cons w rest ih =>
    obtain ⟨filled_w, filled_rest⟩ := List.forall_mem_cons.1 filled
    obtain ⟨plain_w, plain_rest⟩ := List.forall_mem_cons.1 plain
    rw [List.map_cons, List.flatten_cons, lowerCapitals_append, ih filled_rest plain_rest,
      lowerCapitals_capitalize filled_w plain_w, List.flatMap_cons]

/-- The Pascal case of a name with its capitals in lower case is its snake case
    without the underscores before digits. -/
theorem lowerCapitals_pascal {name : String} (plain_words : PlainWords (words name)) :
    lowerCapitals (pascal name).toList = '_' :: closeDigits (snake name).toList := by
  obtain ⟨c, w, rest, split, letter⟩ := plain_words.starts
  have ascii := toNat_lt_of_isPlain (isPlain_of_isLower letter)
  have digit : isDigit c = false :=
    forall_ascii (P := fun c => c.isLower = true → isDigit c = false) (by decide) ascii letter
  rw [pascal, String.toList_ofList,
    lowerCapitals_flatten_capitalize plain_words.filled plain_words.plain, toList_snake split,
    split, List.flatMap_cons, List.cons_append, List.cons_append, closeDigits]
  simp [digit]

/-- A text with the letter behind an underscore as a capital in its place. -/
def raiseLetters : List Char → List Char
  | '_' :: c :: rest => c.toUpper :: raiseLetters rest
  | c :: rest => c :: raiseLetters rest
  | [] => []

theorem raiseLetters_lowerCapitals {cs : List Char} (valid : ∀ c ∈ cs, c ≠ '_') :
    raiseLetters (lowerCapitals cs) = cs := by
  induction cs with
  | nil => rfl
  | cons c rest ih =>
    obtain ⟨inside, others⟩ := List.forall_mem_cons.1 valid
    rw [← List.singleton_append, lowerCapitals_append]
    cases capital : c.isUpper with
    | true =>
      have ascii : c.toNat < 128 := by
        refine toNat_lt_of_continuesIdentifier ?_
        simp [continuesIdentifier, Char.isAlphanum, isAlpha_eq, capital]
      have raised : c.toLower.toUpper = c :=
        forall_ascii (P := fun c => c.isUpper = true → c.toLower.toUpper = c) (by decide) ascii
          capital
      have lowered : lowerCapitals [c] = ['_', c.toLower] := by simp [lowerCapitals, capital]
      rw [lowered, List.cons_append, List.singleton_append, raiseLetters, raised, ih others]
      rfl
    | false =>
      have kept : lowerCapitals [c] = [c] := by simp [lowerCapitals, capital]
      rw [kept, List.singleton_append, raiseLetters, ih others]
      · rfl
      · intro _ _ underscore
        exact absurd underscore inside

theorem isAlphanum_of_mem_pascal {name : String} (plain_words : PlainWords (words name)) {x : Char}
    (h : x ∈ (pascal name).toList) : x.isAlphanum = true := by
  rw [pascal, String.toList_ofList, List.mem_flatten] at h
  obtain ⟨_, member, hx⟩ := h
  obtain ⟨w, hw, rfl⟩ := List.mem_map.1 member
  have alnum : ∀ c, isPlain c = true → c.isAlphanum = true ∧ toUpper c = [c.toUpper] ∧
      c.toUpper.isAlphanum = true := by
    intro c plain
    have ascii := toNat_lt_of_isPlain plain
    refine ⟨?_, if_pos ascii, ?_⟩
    · exact forall_ascii (P := fun c => isPlain c = true → c.isAlphanum = true) (by decide) ascii
        plain
    · exact forall_ascii (P := fun c => isPlain c = true → c.toUpper.isAlphanum = true) (by decide)
        ascii plain
  obtain ⟨c, rest, rfl⟩ := List.exists_cons_of_ne_nil (plain_words.filled w hw)
  obtain ⟨first, others⟩ := List.forall_mem_cons.1 (plain_words.plain _ hw)
  rw [capitalize, (alnum c first).2.1, List.singleton_append] at hx
  rcases List.mem_cons.1 hx with rfl | hx
  · exact (alnum c first).2.2
  · exact (alnum x (others x hx)).1

/-- Names with identifiers have one Pascal case if and only if their snake cases agree
    but for underscores before digits. -/
theorem pascal_eq_iff {a b : String} (ha : PlainWords (words a)) (hb : PlainWords (words b)) :
    pascal a = pascal b ↔ closeDigits (snake a).toList = closeDigits (snake b).toList := by
  have inside : ∀ {name : String}, PlainWords (words name) → ∀ c ∈ (pascal name).toList,
      c ≠ '_' := by
    rintro name plain_words c hc rfl
    exact absurd (isAlphanum_of_mem_pascal plain_words hc) (by decide)
  constructor
  · intro same
    have lowered := congrArg (fun s => lowerCapitals s.toList) same
    rw [lowerCapitals_pascal ha, lowerCapitals_pascal hb] at lowered
    exact List.tail_eq_of_cons_eq lowered
  · intro same
    have lowered : lowerCapitals (pascal a).toList = lowerCapitals (pascal b).toList := by
      rw [lowerCapitals_pascal ha, lowerCapitals_pascal hb, same]
    have raised := congrArg raiseLetters lowered
    rw [raiseLetters_lowerCapitals (inside ha), raiseLetters_lowerCapitals (inside hb)] at raised
    exact String.toList_injective raised

/-! ## Type names -/

theorem pascal_not_mem_keywords {name : String} (plain_words : PlainWords (words name)) :
    pascal name ∉ keywords := by
  obtain ⟨c, w, rest, split, letter⟩ := plain_words.starts
  have ascii := toNat_lt_of_isPlain (isPlain_of_isLower letter)
  have capital : c.toUpper.isLower = false :=
    forall_ascii (P := fun c => c.toUpper.isLower = false) (by decide) ascii
  have head : (pascal name).toList.head? = some c.toUpper := by
    rw [pascal, String.toList_ofList, split, List.map_cons, capitalize, toUpper, if_pos ascii]
    rfl
  have lower : ∀ k ∈ keywords, k.toList.head?.any (·.isLower) = true := by decide
  intro taken
  have start := lower _ taken
  rw [head, Option.any_some, capital] at start
  cases start

/-- Escaping leaves the letters of what is no keyword. -/
theorem filter_escapeReserved {s : String} (letters : ∀ c ∈ s.toList, c.isAlphanum = true)
    (free : s ∉ keywords) : (escapeReserved s).toList.filter Char.isAlphanum = s.toList := by
  have kept : s.toList.filter Char.isAlphanum = s.toList := List.filter_eq_self.2 letters
  rw [escapeReserved]
  split
  · rw [String.toList_append, List.filter_append, kept]
    exact List.append_nil _
  · exact kept

theorem checked_eq_ok_iff {spelled name ident : String} :
    checked spelled name = .ok ident ↔
      isIdentifier spelled.toList = true ∧ ident = escapeReserved spelled := by
  rw [checked]
  split
  · next valid => simp [valid, eq_comm]
  · next invalid => simp [invalid]

/-- Names with identifiers have one type name if and only if their snake cases agree
    but for underscores before digits. -/
theorem typeName_eq_iff {a b ident_a ident_b type_a type_b : String}
    (ha : identifier a = .ok ident_a) (hb : identifier b = .ok ident_b)
    (hta : typeName a = .ok type_a) (htb : typeName b = .ok type_b) :
    type_a = type_b ↔ closeDigits (snake a).toList = closeDigits (snake b).toList := by
  have plain_a := plainWords_words (checked_eq_ok_iff.1 ha).1
  have plain_b := plainWords_words (checked_eq_ok_iff.1 hb).1
  rw [← pascal_eq_iff plain_a plain_b, (checked_eq_ok_iff.1 hta).2, (checked_eq_ok_iff.1 htb).2]
  constructor
  · intro same
    -- A name may have got an underscore as an escape, but its letters are those of its case.
    have letters := congrArg (fun s => s.toList.filter Char.isAlphanum) same
    rw [filter_escapeReserved (fun c => isAlphanum_of_mem_pascal plain_a)
        (pascal_not_mem_keywords plain_a),
      filter_escapeReserved (fun c => isAlphanum_of_mem_pascal plain_b)
        (pascal_not_mem_keywords plain_b)] at letters
    exact String.toList_injective letters
  · intro same
    rw [same]

end Bindery.Name
