import Bindery.Proofs.Name.Words

/-!
# Words read back

A separator ends a word and belongs to none, so the words of names with a separator
between them are those of each. Words of ASCII characters are in lower case already
and are found again in their snake case. In camel case a word is found again if its
capital shows: it starts with a letter, and the character in front of it is a lower
case letter or a digit, or else a capital with a lower case letter to come. A letter
alone is a capital in front of the next word, and a digit has no capital.

* `Name.words_intercalate`: the words of names with underscores between them.
* `Name.words_snake`: the words of the snake case of a name.
* `Name.legible`: whether the capitals of a list of words show.
* `Name.words_camel_iff`: the names whose words are found again in their camel case.
-/

namespace Bindery.Name

open Bindery.Text

/-! ## Separators -/

theorem segments_ne_nil (before : Char) (cs : List Char) : segments before cs ≠ [] := by
  cases cs with
  | nil => simp [segments]
  | cons c behind =>
    have rest := segments_ne_nil c behind
    rw [segments]
    split
    · simp
    · dsimp only
      split
      · simp
      · simpa using rest

theorem modifyHead_append {α : Type} {xs : List α} (filled : xs ≠ []) (ys : List α) (f : α → α) :
    (xs ++ ys).modifyHead f = xs.modifyHead f ++ ys := by
  cases xs with
  | nil => exact absurd rfl filled
  | cons x xs => rfl

/-- A separator ahead is no lower case letter, as little as the end of the text. -/
theorem startsWord_append_separator {separator : Char} (h : isSeparator separator = true)
    (before : Char) (cs ds : List Char) :
    startsWord before (cs ++ separator :: ds) = startsWord before cs := by
  cases cs with
  | cons c cs => rfl
  | nil =>
    have small : isLower separator = false := by
      rw [isSeparator, Bool.or_eq_true, Bool.or_eq_true, beq_iff_eq, beq_iff_eq, beq_iff_eq] at h
      rcases h with (rfl | rfl) | rfl <;> decide
    simp [startsWord, small]

theorem segments_append_separator {separator : Char} (h : isSeparator separator = true)
    (before : Char) (cs ds : List Char) :
    segments before (cs ++ separator :: ds) = segments before cs ++ segments separator ds := by
  induction cs generalizing before with
  | nil =>
    have cut : segments before (separator :: ds) = [] :: segments separator ds := by
      rw [segments, if_pos h]
    exact cut
  | cons c cs ih =>
    rw [List.cons_append, segments, segments, ih, startsWord_append_separator h,
      modifyHead_append (segments_ne_nil c cs)]
    split
    · rfl
    · dsimp only
      split
      · rfl
      · rfl

/-- Names with an underscore between them have the words of both. -/
theorem words_append_underscore (a b : String) : words (a ++ "_" ++ b) = words a ++ words b := by
  have letters : (a ++ "_" ++ b).toList = a.toList ++ '_' :: b.toList := by simp
  unfold words
  rw [letters, segments_append_separator (by decide), List.filter_append]

theorem words_intercalate (names : List String) :
    words (String.intercalate "_" names) = names.flatMap words := by
  induction names with
  | nil =>
    rw [String.intercalate_nil]
    rfl
  | cons name rest ih =>
    cases rest with
    | nil => simp
    | cons next rest =>
      rw [String.intercalate_cons_cons, words_append_underscore, ih]
      exact List.flatMap_cons.symm

/-! ## Words of ASCII characters -/

/-- All characters of a name are of ASCII. -/
def IsAscii (name : String) : Prop := ∀ c ∈ name.toList, c.toNat < 128

instance (name : String) : Decidable (IsAscii name) :=
  List.decidableBAll (fun c : Char => c.toNat < 128) name.toList

/-- Whether a character is of ASCII, separates nothing and is no capital. -/
def isSmall (c : Char) : Bool := decide (c.toNat < 128) && !isSeparator c && !isUpper c

/-- A word in lower case. -/
structure IsWord (w : List Char) : Prop where
  filled : w ≠ []
  small : ∀ c ∈ w, isSmall c = true

theorem toNat_lt_of_isSmall {c : Char} (h : isSmall c = true) : c.toNat < 128 := by
  rw [isSmall, Bool.and_eq_true, Bool.and_eq_true, decide_eq_true_iff] at h
  exact h.1.1

/-- What holds of the small characters among the codes of ASCII holds of all of them. -/
theorem forall_small {P : Char → Prop} (h : ∀ n < 128, isSmall (Char.ofNat n) = true →
    P (Char.ofNat n)) {c : Char} (small : isSmall c = true) : P c :=
  forall_ascii (P := fun c => isSmall c = true → P c) h (toNat_lt_of_isSmall small) small

theorem isSmall_toLower {c : Char} (ascii : c.toNat < 128) (inside : isSeparator c = false) :
    isSmall c.toLower = true :=
  forall_ascii (P := fun c => isSeparator c = false → isSmall c.toLower = true) (by decide) ascii
    inside

theorem isWord_of_mem_words {name : String} (ascii : IsAscii name) {w : List Char}
    (member : w ∈ words name) : IsWord w := by
  refine ⟨ne_nil_of_mem_words member, fun x hx => ?_⟩
  obtain ⟨c, hc, inside, lowered⟩ := exists_of_mem_words member hx
  rw [toLower, if_pos (ascii c hc), List.mem_singleton] at lowered
  rw [lowered]
  exact isSmall_toLower (ascii c hc) inside

/-- Small characters go on with the word before them. -/
theorem segments_small_append {w : List Char} (small : ∀ c ∈ w, isSmall c = true) (before : Char)
    (cs : List Char) :
    segments before (w ++ cs) = (segments (w.getLastD before) cs).modifyHead (w ++ ·) := by
  induction w generalizing before with
  | nil =>
    rw [List.nil_append, List.getLastD_nil]
    cases segments before cs with
    | nil => rfl
    | cons segment rest => rfl
  | cons c w ih =>
    obtain ⟨first, others⟩ := List.forall_mem_cons.1 small
    have plain : isSeparator c = false ∧ isUpper c = false ∧ toLower c = [c] :=
      forall_small (P := fun c => isSeparator c = false ∧ isUpper c = false ∧ toLower c = [c])
        (by decide) first
    obtain ⟨inside, lower, same⟩ := plain
    rw [List.cons_append, segments, ih others c, List.getLastD_cons]
    simp [inside, lower, same, List.modifyHead_modifyHead, Function.comp_def]

theorem words_ofList {w : List Char} (word : IsWord w) : words (String.ofList w) = [w] := by
  have whole := segments_small_append word.small '_' []
  rw [List.append_nil] at whole
  unfold words
  rw [String.toList_ofList, whole]
  simp [segments, word.filled]

theorem joinWords_eq (ws : List (List Char)) :
    joinWords ws = String.intercalate "_" (ws.map String.ofList) := by
  refine String.toList_injective ?_
  rw [joinWords, String.toList_ofList, String.toList_intercalate]
  simp [List.map_map, Function.comp_def]

/-- Words are found again in their snake case. -/
theorem words_joinWords {ws : List (List Char)} (each : ∀ w ∈ ws, IsWord w) :
    words (joinWords ws) = ws := by
  rw [joinWords_eq, words_intercalate]
  induction ws with
  | nil => rfl
  | cons w ws ih =>
    obtain ⟨word, others⟩ := List.forall_mem_cons.1 each
    rw [List.map_cons, List.flatMap_cons, words_ofList word, ih others, List.singleton_append]

theorem words_snake {name : String} (ascii : IsAscii name) : words (snake name) = words name :=
  words_joinWords fun _ member => isWord_of_mem_words ascii member

/-- Names have one snake case if and only if they have the same words. -/
theorem snake_eq_iff {a b : String} (ha : IsAscii a) (hb : IsAscii b) :
    snake a = snake b ↔ words a = words b := by
  constructor
  · intro same
    rw [← words_snake ha, ← words_snake hb, same]
  · intro same
    rw [snake, snake, same]

/-! ## Camel case -/

/-- Whether a word is a letter alone, which is a capital and nothing else behind other
    words. -/
def isLetter (w : List Char) : Bool := w.length == 1 && w.all isLower

/-- Whether a word shows behind another one in camel case. It has to start with a
    letter, and this capital has to stand out from the end of the other word: from a
    lower case letter or a digit as it is, from a capital by the letter behind it. -/
def showsBehind (capital : Bool) (v w : List Char) : Bool :=
  w.head?.any isLower &&
    if capital then w.tail.head?.any isLower else v.getLast?.any fun c => isLower c || isDigit c

/-- Whether each word shows behind the one before it in camel case. The first of these
    words is a capitalized one if it comes later in a name. -/
def legible (later : Bool) : List (List Char) → Bool
  | v :: w :: rest => showsBehind (later && isLetter v) v w && legible true (w :: rest)
  | _ => true

/-- The last character of a word as it is spelled in camel case. -/
def lastSpelled (later : Bool) (v : List Char) : Char :=
  (if later then capitalize v else v).getLastD '_'

theorem capitalize_cons {c : Char} (small : isSmall c = true) (w : List Char) :
    capitalize (c :: w) = c.toUpper :: w := by
  rw [capitalize, toUpper, if_pos (toNat_lt_of_isSmall small), List.singleton_append]

/-- The capital of a small character is one if the character is a letter. -/
theorem isUpper_toUpper {c : Char} (small : isSmall c = true) :
    isSeparator c.toUpper = false ∧ isUpper c.toUpper = isLower c ∧
      toLower c.toUpper = [c] ∧ isLower c.toUpper = false ∧
      (isLower c = false → c.toUpper = c) ∧ (isLower c = true → isDigit c.toUpper = false) :=
  forall_small (P := fun c => isSeparator c.toUpper = false ∧ isUpper c.toUpper = isLower c ∧
    toLower c.toUpper = [c] ∧ isLower c.toUpper = false ∧
    (isLower c = false → c.toUpper = c) ∧ (isLower c = true → isDigit c.toUpper = false))
    (by decide) small

/-- A capitalized word starts a segment if its capital shows. -/
theorem segments_capitalize_append {w : List Char} (word : IsWord w) (before : Char)
    {cs : List Char} (ahead : cs.head?.any isLower = false) :
    segments before (capitalize w ++ cs) =
      if w.head?.any isLower && startsWord before w.tail then
        [] :: (segments (lastSpelled true w) cs).modifyHead (w ++ ·)
      else (segments (lastSpelled true w) cs).modifyHead (w ++ ·) := by
  obtain ⟨c, v, rfl⟩ := List.exists_cons_of_ne_nil word.filled
  obtain ⟨small, others⟩ := List.forall_mem_cons.1 word.small
  obtain ⟨inside, upper, lowered, -⟩ := isUpper_toUpper small
  have starts : startsWord before (v ++ cs) = startsWord before v := by
    cases v with
    | nil => simp [startsWord, ahead]
    | cons d v => rfl
  have last : lastSpelled true (c :: v) = v.getLastD c.toUpper := by
    rw [lastSpelled, if_pos rfl, capitalize_cons small, List.getLastD_cons]
  have rest : (segments c.toUpper (v ++ cs)).modifyHead (toLower c.toUpper ++ ·) =
      (segments (lastSpelled true (c :: v)) cs).modifyHead ((c :: v) ++ ·) := by
    rw [last, lowered, segments_small_append others, List.modifyHead_modifyHead]
    rfl
  rw [capitalize_cons small, List.cons_append, segments, rest, inside, upper, starts]
  rfl

theorem startsWord_of_isSmall {c : Char} (small : isSmall c = true) (behind : List Char) :
    startsWord c behind = (isLower c || isDigit c) := by
  have lower : isUpper c = false :=
    forall_small (P := fun c => isUpper c = false) (by decide) small
  simp [startsWord, lower]

/-- A capital shows behind a word that ends in a lower case letter or a digit; behind a
    letter alone, which is a capital itself, it takes a letter behind it to show. -/
theorem startsWord_lastSpelled {v : List Char} (word : IsWord v) (later : Bool)
    (behind : List Char) :
    startsWord (lastSpelled later v) behind =
      if later && isLetter v then behind.head?.any isLower
      else v.getLast?.any fun c => isLower c || isDigit c := by
  have uncapitalized : startsWord (lastSpelled false v) behind =
      v.getLast?.any fun c => isLower c || isDigit c := by
    have last := List.getLast?_eq_some_getLast word.filled
    rw [lastSpelled, if_neg Bool.false_ne_true, List.getLastD_eq_getLast?, last, Option.getD_some,
      Option.any_some]
    exact startsWord_of_isSmall (word.small _ (List.getLast_mem word.filled)) behind
  cases later with
  | false => exact uncapitalized
  | true =>
    obtain ⟨c, u, rfl⟩ := List.exists_cons_of_ne_nil word.filled
    have small := word.small c List.mem_cons_self
    obtain ⟨-, upper, -, lower, same, digit⟩ := isUpper_toUpper small
    cases u with
    | nil =>
      have alone : lastSpelled true [c] = c.toUpper := by
        rw [lastSpelled, if_pos rfl, capitalize_cons small]
        rfl
      cases letter : isLower c with
      | true =>
        rw [letter] at upper
        simp [alone, isLetter, letter, startsWord, lower, upper, digit letter]
      | false =>
        rw [alone, same letter, startsWord_of_isSmall small]
        simp [isLetter, letter]
    | cons d u =>
      -- Only the first character of a longer word is capitalized, and not its last one.
      have inner : lastSpelled true (c :: d :: u) = lastSpelled false (c :: d :: u) := by
        rw [lastSpelled, if_pos rfl, capitalize_cons small]
        rfl
      rw [inner, uncapitalized]
      rfl

theorem modifyHead_eq_cons_iff {w : List Char} {segments rest : List (List Char)} :
    segments.modifyHead (w ++ ·) = w :: rest ↔ segments = [] :: rest := by
  cases segments with
  | nil => simp
  | cons segment others => simp

/-- Capitalized words do not start with a lower case letter. -/
theorem head?_flatten_capitalize {ws : List (List Char)} (each : ∀ w ∈ ws, IsWord w) :
    (ws.map capitalize).flatten.head?.any isLower = false := by
  cases ws with
  | nil => rfl
  | cons w ws =>
    obtain ⟨word, -⟩ := List.forall_mem_cons.1 each
    obtain ⟨c, v, rfl⟩ := List.exists_cons_of_ne_nil word.filled
    have small := word.small c List.mem_cons_self
    obtain ⟨-, -, -, lower, -⟩ := isUpper_toUpper small
    rw [List.map_cons, List.flatten_cons, capitalize_cons small]
    exact lower

/-- A word behind others is a segment of its own if it shows, and else goes on with the
    one before it. -/
theorem segments_flatten_capitalize {w : List Char} {ws : List (List Char)}
    (each : ∀ u ∈ w :: ws, IsWord u) (before : Char) :
    segments before ((w :: ws).map capitalize).flatten =
      if w.head?.any isLower && startsWord before w.tail then
        [] :: (segments (lastSpelled true w) (ws.map capitalize).flatten).modifyHead (w ++ ·)
      else (segments (lastSpelled true w) (ws.map capitalize).flatten).modifyHead (w ++ ·) := by
  obtain ⟨word, others⟩ := List.forall_mem_cons.1 each
  rw [List.map_cons, List.flatten_cons]
  exact segments_capitalize_append word before (head?_flatten_capitalize others)

theorem length_segments_le {ws : List (List Char)} (each : ∀ w ∈ ws, IsWord w) (before : Char) :
    (segments before (ws.map capitalize).flatten).length ≤ ws.length + 1 := by
  induction ws generalizing before with
  | nil => exact Nat.le_refl 1
  | cons w ws ih =>
    have later := ih (List.forall_mem_cons.1 each).2 (lastSpelled true w)
    rw [segments_flatten_capitalize each]
    split
    · simp only [List.length_cons, List.length_modifyHead]
      omega
    · simp only [List.length_cons, List.length_modifyHead]
      omega

/-- Words behind another one are the segments of their camel case if each of them
    shows. -/
theorem segments_eq_iff_legible {v : List Char} {ws : List (List Char)} (word : IsWord v)
    (each : ∀ w ∈ ws, IsWord w) (later : Bool) :
    segments (lastSpelled later v) (ws.map capitalize).flatten = [] :: ws ↔
      legible later (v :: ws) = true := by
  induction ws generalizing v later with
  | nil => simp [segments, legible]
  | cons w ws ih =>
    obtain ⟨next, others⟩ := List.forall_mem_cons.1 each
    have starts : (w.head?.any isLower && startsWord (lastSpelled later v) w.tail) =
        showsBehind (later && isLetter v) v w := by
      rw [startsWord_lastSpelled word, showsBehind]
    have both : legible later (v :: w :: ws) = true ↔
        showsBehind (later && isLetter v) v w = true ∧ legible true (w :: ws) = true := by
      rw [legible, Bool.and_eq_true]
    rw [segments_flatten_capitalize each, starts, both, ← ih next others true]
    cases shows : showsBehind (later && isLetter v) v w with
    | true =>
      rw [if_pos rfl, List.cons_inj_right, modifyHead_eq_cons_iff]
      exact (and_iff_right rfl).symm
    | false =>
      -- Without a start of its own there is one segment less than there are words.
      have few := length_segments_le others (lastSpelled true w)
      rw [if_neg Bool.false_ne_true]
      refine iff_of_false ?_ fun both => Bool.false_ne_true both.1
      intro same
      have lengths := congrArg List.length same
      simp only [List.length_modifyHead, List.length_cons] at lengths
      omega

theorem isAscii_camel {name : String} (ascii : IsAscii name) : IsAscii (camel name) := by
  have small : ∀ w ∈ words name, ∀ c ∈ w, c.toNat < 128 := fun w member c hc =>
    toNat_lt_of_isSmall ((isWord_of_mem_words ascii member).small c hc)
  intro x hx
  rw [camel] at hx
  cases split : words name with
  | nil =>
    rw [split] at hx
    cases hx
  | cons first rest =>
    rw [split] at hx small
    rw [String.toList_ofList, List.mem_append] at hx
    rcases hx with hx | hx
    · exact small first List.mem_cons_self x hx
    · obtain ⟨_, member, hx⟩ := List.mem_flatten.1 hx
      obtain ⟨w, hw, rfl⟩ := List.mem_map.1 member
      have word := isWord_of_mem_words ascii (split ▸ List.mem_cons_of_mem _ hw)
      obtain ⟨c, v, rfl⟩ := List.exists_cons_of_ne_nil word.filled
      have first_small := word.small c List.mem_cons_self
      rw [capitalize_cons first_small] at hx
      rcases List.mem_cons.1 hx with rfl | hx
      · exact forall_small (P := fun c => c.toUpper.toNat < 128) (by decide) first_small
      · exact toNat_lt_of_isSmall (word.small x (List.mem_cons_of_mem _ hx))

/-- The words of a name are found again in its camel case if and only if each of them
    shows. -/
theorem words_camel_iff {name : String} (ascii : IsAscii name) :
    words (camel name) = words name ↔ legible false (words name) = true := by
  have each : ∀ w ∈ words name, IsWord w := fun _ member => isWord_of_mem_words ascii member
  rw [camel]
  cases split : words name with
  | nil => exact iff_of_true rfl rfl
  | cons first rest =>
    rw [split] at each
    obtain ⟨word, others⟩ := List.forall_mem_cons.1 each
    have cut : segments '_' (first ++ (rest.map capitalize).flatten) =
        (segments (lastSpelled false first) (rest.map capitalize).flatten).modifyHead
          (first ++ ·) := segments_small_append word.small '_' _
    have few : (segments '_' (first ++ (rest.map capitalize).flatten)).length ≤
        (first :: rest).length := by
      rw [cut, List.length_modifyHead]
      exact length_segments_le others _
    rw [← segments_eq_iff_legible word others false, ← modifyHead_eq_cons_iff (w := first), ← cut]
    unfold words
    rw [String.toList_ofList]
    constructor
    · intro kept
      -- As there are no more segments than words, none of them is empty.
      have all : (segments '_' (first ++ (rest.map capitalize).flatten)).filter (!·.isEmpty) =
          segments '_' (first ++ (rest.map capitalize).flatten) :=
        List.filter_sublist.eq_of_length_le (by rw [kept]; exact few)
      rw [← all, kept]
    · intro same
      rw [same, List.filter_eq_self]
      intro w member
      simpa using (each w member).filled

end Bindery.Name
