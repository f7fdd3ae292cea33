import Bindery.Proofs.Name.Spelling

/-!
# Identifiers and their names

The snake case of a name with an identifier ends in a letter or digit and holds no hash
sign. The underscore behind a word without a raw form and the `r#` before a keyword can
therefore be told from what they escape, so that two names share an identifier only if
they share their snake case.

* `Name.isPlain_getLast?_snake`: how the snake case of a name ends.
* `Name.unescapeReserved`: the text that an identifier escapes.
* `Name.IsWritable`: what the language takes for an identifier.
* `Name.identifier_eq_iff_snake`: the names with one identifier.
-/

namespace Bindery.Name

open Bindery.Text

/-! ## Ends of snake cases -/

/-- Plain words with underscores between them end as the last word does. -/
theorem isPlain_getLast?_join {w : List Char} {rest : List (List Char)}
    (filled : ∀ v ∈ w :: rest, v ≠ []) (plain : ∀ v ∈ w :: rest, ∀ c ∈ v, isPlain c = true) :
    (w ++ rest.flatMap ('_' :: ·)).getLast?.any isPlain = true := by
  induction rest generalizing w with
  | nil =>
    have last := List.getLast?_eq_some_getLast (filled w List.mem_cons_self)
    rw [List.flatMap_nil, List.append_nil, last]
    exact plain w List.mem_cons_self _ (List.getLast_mem _)
  | cons v rest ih =>
    have later := ih (List.forall_mem_cons.1 filled).2 (List.forall_mem_cons.1 plain).2
    have filled_v : v ++ rest.flatMap ('_' :: ·) ≠ [] := by
      simp [filled v (List.mem_cons_of_mem _ List.mem_cons_self)]
    rw [List.flatMap_cons, List.cons_append, List.getLast?_append_cons,
      List.getLast?_cons_of_ne_nil filled_v]
    exact later

theorem isPlain_getLast?_snake {name : String} (valid : isIdentifier (snake name).toList = true) :
    (snake name).toList.getLast?.any isPlain = true := by
  have plain_words := plainWords_words valid
  obtain ⟨c, w, rest, split, -⟩ := plain_words.starts
  rw [toList_snake split]
  refine isPlain_getLast?_join ?_ ?_
  · rw [← split]
    exact plain_words.filled
  · rw [← split]
    exact plain_words.plain

/-! ## Escapes -/

/-- The text that an identifier escapes: what is behind `r#`, or before a last
    underscore. -/
def unescapeReserved (cs : List Char) : List Char :=
  if '#' ∈ cs then cs.drop 2
  else if cs.getLast? = some '_' then cs.dropLast
  else cs

/-- An escape can be undone if the text does not end in an underscore itself. -/
theorem unescapeReserved_escapeReserved {s : String} (valid : isIdentifier s.toList = true)
    (ends : s.toList.getLast? ≠ some '_') :
    unescapeReserved (escapeReserved s).toList = s.toList := by
  have hash : '#' ∉ s.toList := by
    intro h
    exact absurd (forall_of_isIdentifier valid '#' h) (by decide)
  rw [escapeReserved]
  split
  · have letters : (s ++ "_").toList = s.toList ++ ['_'] := String.toList_append
    simp [unescapeReserved, letters, hash]
  split
  · have letters : ("r#" ++ s).toList = 'r' :: '#' :: s.toList := String.toList_append
    simp [unescapeReserved, letters]
  · rw [unescapeReserved, if_neg hash, if_neg ends]

/-- What can be written for a name: an identifier of ASCII that is no word of the
    language, or a keyword as a raw identifier. -/
def IsWritable (ident : String) : Prop :=
  (isIdentifier ident.toList = true ∧ ident ∉ keywords ∧ ident ∉ reservedWords) ∨
    ∃ word ∈ keywords, ident = "r#" ++ word

theorem isWritable_escapeReserved {s : String} (valid : isIdentifier s.toList = true) :
    IsWritable (escapeReserved s) := by
  have marked : ∀ word ∈ reservedWords, isIdentifier (word ++ "_").toList = true ∧
      word ++ "_" ∉ keywords ∧ word ++ "_" ∉ reservedWords := by decide
  rw [escapeReserved]
  split
  · next reserved => exact .inl (marked s reserved)
  split
  · next keyword => exact .inr ⟨s, keyword, rfl⟩
  · next unreserved free => exact .inl ⟨valid, free, unreserved⟩

/-! ## Identifiers -/

theorem snake_snake {name : String} (ascii : IsAscii name) : snake (snake name) = snake name := by
  show joinWords (words (snake name)) = joinWords (words name)
  rw [words_snake ascii]

/-- Names have one identifier if and only if they have one snake case, whether they are
    escaped or not, and what is written is an identifier. The snake case of a name of
    ASCII stays as it is, and so does its identifier. -/
theorem identifier_eq_iff_snake {a b ident_a ident_b : String} (ha : identifier a = .ok ident_a)
    (hb : identifier b = .ok ident_b) :
    (ident_a = ident_b ↔ snake a = snake b) ∧ IsWritable ident_a ∧ IsWritable ident_b ∧
      ∀ name, IsAscii name → snake (snake name) = snake name ∧
        ∀ ident, identifier (snake name) = .ok ident ↔ identifier name = .ok ident := by
  obtain ⟨valid_a, rfl⟩ := checked_eq_ok_iff.1 ha
  obtain ⟨valid_b, rfl⟩ := checked_eq_ok_iff.1 hb
  have ends : ∀ {name : String}, isIdentifier (snake name).toList = true →
      (snake name).toList.getLast? ≠ some '_' := by
    intro name valid underscore
    have plain := isPlain_getLast?_snake valid
    rw [underscore] at plain
    cases plain
  refine ⟨⟨fun same => ?_, fun same => by rw [same]⟩, isWritable_escapeReserved valid_a,
    isWritable_escapeReserved valid_b, fun name ascii => ⟨snake_snake ascii, fun ident => ?_⟩⟩
  · have texts := congrArg (fun s => unescapeReserved s.toList) same
    rw [unescapeReserved_escapeReserved valid_a (ends valid_a),
      unescapeReserved_escapeReserved valid_b (ends valid_b)] at texts
    exact String.toList_injective texts
  · rw [identifier, identifier, checked_eq_ok_iff, checked_eq_ok_iff, snake_snake ascii]

/-- The underscore that escapes `crate` does not tell it from a name with that underscore,
    which has the same snake case. -/
theorem crates_identified :
    identifier "crate" = .ok "crate_" ∧ identifier "Crate_" = .ok "crate_" ∧
      ("crate_" = "crate_" ↔ snake "crate" = snake "Crate_") ∧ IsWritable "crate_" ∧
      IsAscii "HTTPServer2Go" ∧ snake (snake "HTTPServer2Go") = snake "HTTPServer2Go" := by
  have first : identifier "crate" = .ok "crate_" :=
    checked_eq_ok_iff.2 ⟨by decide +kernel, by decide +kernel⟩
  have second : identifier "Crate_" = .ok "crate_" :=
    checked_eq_ok_iff.2 ⟨by decide +kernel, by decide +kernel⟩
  have ascii : IsAscii "HTTPServer2Go" := by decide
  obtain ⟨same, writable, -, stays⟩ := identifier_eq_iff_snake first second
  exact ⟨first, second, same, writable, ascii, (stays _ ascii).1⟩

end Bindery.Name
