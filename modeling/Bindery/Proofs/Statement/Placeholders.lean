import Bindery.Proofs.Statement.Contents
import Bindery.Proofs.Text.QuestionMark
import Bindery.Proofs.Writer.Compiled

/-!
# Placeholders of a compiled action

The parameters of a compiled action are those its definition mentions, in the
order of the text. If nothing in the definition has a question mark, the text has
one for each of them and the k-th question mark is written for the k-th
parameter.

* `Action.Avoids`: nothing that an action brings into the text has a character.
* `Action.params_compile`: the parameters and the question marks of an action.
-/

namespace Bindery

/-- The characters that a definition gives to a piece. -/
def Piece.letters : Piece → List Char
  | .text s | .name s | .raw s => s.toList
  | .value (.text s) => s.toList
  | .fallback (.string s) | .fallback (.expression s) => s.toList
  | _ => []

/-- Nothing that the action brings into its text has the character. -/
def Action.Avoids (a : Action) (c : Char) : Prop := ∀ p ∈ a.contents, c ∉ p.letters

instance (a : Action) (c : Char) : Decidable (a.Avoids c) :=
  inferInstanceAs (Decidable (∀ p ∈ a.contents, c ∉ p.letters))

/-! ## Question marks of pieces -/

variable {cs : List Piece} {d : Dialect}

theorem DerivedName.question (avoids : ∀ p ∈ cs, '?' ∉ p.letters) {s : String}
    (h : DerivedName cs s) : '?' ∉ s.toList := by
  induction h with
  | given member => exact avoids _ member
  | main => decide
  | join number => simp [joinLabel, Text.ofNat, Text.question_not_mem_decimal]
  | stem _ ih => exact fun h => ih (Name.question_mem_stem h)
  | spelled case _ ih => exact fun h => ih (Name.question_mem_apply h)
  | joined _ ih =>
    intro h
    rw [String.toList_intercalate] at h
    obtain ⟨_, member, h'⟩ := Text.question_mem_intercalate (by decide) h
    obtain ⟨part, hpart, rfl⟩ := List.mem_map.1 member
    exact ih part hpart h'
  | numbered k _ ih => simp [Name.numbered, Text.ofNat, Text.question_not_mem_decimal, ih]

/-- Words of SQL have no question mark. -/
theorem question_not_mem_sqlWords : ∀ s ∈ sqlWords, '?' ∉ s.toList := by decide

theorem Piece.question_mem_letters {p : Piece} (h : '?' ∈ (p.sql d).toList) :
    (∃ b, p = .slot b) ∨ '?' ∈ p.letters := by
  cases p with
  | text s => exact .inr h
  | name s => exact .inr ((Text.question_mem_quoted (by cases d <;> decide) s).1 h)
  | value v =>
    obtain ⟨s, rfl, h'⟩ := Value.question_mem_literal h
    exact .inr h'
  | fallback v =>
    obtain ⟨s, rfl | rfl, h'⟩ := DefaultValue.question_mem_sql h
    · exact .inr h'
    · exact .inr h'
  | raw s => exact .inr h
  | slot b => exact .inl ⟨b, rfl⟩

theorem Piece.From.question (avoids : ∀ p ∈ cs, '?' ∉ p.letters) {p : Piece} (h : p.From cs) :
    '?' ∉ p.letters := by
  cases h with
  | word member => exact question_not_mem_sqlWords _ member
  | slot b => simp [Piece.letters]
  | name derived => exact derived.question avoids
  | null => simp [Piece.letters]
  | content member => exact avoids p member

theorem Piece.toList_sql_slot (b : Binding) : ((Piece.slot b).sql d).toList = ['?'] := by
  simp [Piece.sql, Dialect.placeholder]

theorem slots_singleton_of_ne_slot {p : Piece} (h : ∀ b, p ≠ .slot b) : slots [p] = [] := by
  cases p with
  | slot b => exact absurd rfl (h b)
  | text s => rfl
  | name s => rfl
  | value v => rfl
  | fallback v => rfl
  | raw s => rfl

/-- A piece that such contents account for has a question mark only as a
    placeholder, and then exactly one. -/
theorem Piece.From.count_question (avoids : ∀ p ∈ cs, '?' ∉ p.letters) {p : Piece}
    (h : p.From cs) : (p.sql d).toList.count '?' = (slots [p]).length := by
  by_cases placeholder : ∃ b, p = .slot b
  · obtain ⟨b, rfl⟩ := placeholder
    rw [Piece.toList_sql_slot]
    rfl
  · have plain : '?' ∉ (p.sql d).toList := by
      intro mark
      rcases Piece.question_mem_letters mark with slot | letter
      · exact placeholder slot
      · exact h.question avoids letter
    rw [List.count_eq_zero_of_not_mem plain, slots_singleton_of_ne_slot (not_exists.1 placeholder),
      List.length_nil]

theorem toList_piecesSql (ps : List Piece) :
    (piecesSql d ps).toList = ps.flatMap fun p => (p.sql d).toList := by
  simp [piecesSql, String.toList_join, List.flatMap_map]

theorem count_question_piecesSql (avoids : ∀ p ∈ cs, '?' ∉ p.letters) {ps : List Piece}
    (h : ∀ p ∈ ps, p.From cs) : (piecesSql d ps).toList.count '?' = (slots ps).length := by
  rw [toList_piecesSql]
  induction ps with
  | nil => rfl
  | cons p ps ih =>
    rw [List.forall_mem_cons] at h
    rw [List.flatMap_cons, List.count_append, h.1.count_question avoids, ih h.2,
      ← List.length_append, ← slots_append, List.singleton_append]

/-- The k-th parameter among pieces has its placeholder behind k others. -/
theorem exists_slot_of_getElem? {ps : List Piece} {k : Nat} {b : Binding}
    (h : (slots ps)[k]? = some b) :
    ∃ before behind, ps = before ++ .slot b :: behind ∧ (slots before).length = k := by
  induction ps generalizing k with
  | nil => simp at h
  | cons p ps ih =>
    by_cases placeholder : ∃ b, p = .slot b
    · obtain ⟨b', rfl⟩ := placeholder
      cases k with
      | zero =>
        rw [slots_slot_cons, List.getElem?_cons_zero, Option.some_inj] at h
        exact ⟨[], ps, by simp [h], rfl⟩
      | succ k =>
        rw [slots_slot_cons, List.getElem?_cons_succ] at h
        obtain ⟨before, behind, rfl, count⟩ := ih h
        exact ⟨.slot b' :: before, behind, rfl, by simp [count]⟩
    · have none : slots [p] = [] := slots_singleton_of_ne_slot (not_exists.1 placeholder)
      rw [← List.singleton_append, slots_append, none, List.nil_append] at h
      obtain ⟨before, behind, rfl, count⟩ := ih h
      refine ⟨p :: before, behind, rfl, ?_⟩
      rw [← List.singleton_append, slots_append, none, List.nil_append, count]

theorem piecesSql_slot_cons (b : Binding) (ps : List Piece) :
    piecesSql d (.slot b :: ps) = "?" ++ piecesSql d ps := by
  simp [piecesSql, Piece.sql, Dialect.placeholder]

/-! ## Compiled actions -/

theorem Action.compile_eq_ok_iff {o : Options} {a : Action} {c : Compiled} :
    a.compile o = .ok c ↔ ∃ p, a.prepare o.naming = .ok p ∧ p.render o.dialect = c := by
  rw [compile_eq_map_prepare, map_eq_ok_iff]

/-- A compiled action has the parameters its definition mentions, in order. If
    nothing in the definition has a question mark, its text has as many as it has
    parameters: the text is cut at the placeholder of the k-th parameter, and k
    question marks stand before it. -/
theorem Action.params_compile {o : Options} {a : Action} {c : Compiled}
    (h : a.compile o = .ok c) :
    c.params = a.occurrences ∧
      (a.Avoids '?' →
        c.sql.toList.count '?' = c.params.length ∧
        ∃ p, a.prepare o.naming = .ok p ∧ ∀ (k : Nat) (b : Binding), c.params[k]? = some b →
          ∃ before behind, p.statement.pieces = before ++ .slot b :: behind ∧
            c.sql = piecesSql o.dialect before ++ "?" ++ piecesSql o.dialect behind ∧
            (piecesSql o.dialect before).toList.count '?' = k) := by
  obtain ⟨p, hp, rfl⟩ := Action.compile_eq_ok_iff.1 h
  have pieces_from := Action.from_prepare hp
  refine ⟨Action.bindings_prepare hp, fun avoids => ?_⟩
  refine ⟨count_question_piecesSql avoids pieces_from, p, hp, ?_⟩
  intro k b hb
  obtain ⟨before, behind, cut, count⟩ := exists_slot_of_getElem? hb
  refine ⟨before, behind, cut, ?_, ?_⟩
  · show piecesSql o.dialect p.statement.pieces = _
    rw [cut, piecesSql_append, piecesSql_slot_cons, String.append_assoc]
  · rw [cut, List.forall_mem_append] at pieces_from
    rw [count_question_piecesSql avoids pieces_from.1, count]

/-- Accounts with a name. -/
def accounts : Table where
  name := "accounts"
  databaseName := none
  columns := [.primaryKey "id", .ofScalar "name" .text]
  distinct := by decide
  finite := by decide

/-- Accounts by key or pattern, with a floor under the key. -/
def accountsAbove (floor : String) (paginated : Bool) : Select where
  columns := [.column (.ofMain "name") none,
    .expression ⟨[.raw "GREATEST(", .column (.ofMain "id"), .raw ", ", .param ⟨floor, .count⟩,
      .raw ")"]⟩ "key" (some .count)]
  filter := { conditions := [
    .group .or [.equals (.ofMain "id") ⟨"id", .count⟩,
      .byValue (.ofMain "name") .like (.text "o'%")],
    .byParam (.ofMain "id") .lt ⟨"top", .count⟩] }
  paginated

/-- Two pages of accounts in one, with one parameter fixed. -/
def pagedUnion : Action :=
  .wrap "page" accounts
    (.perform "all" accounts (.union {
      branches := [⟨accounts, accountsAbove "low" false⟩, ⟨accounts, accountsAbove "high" true⟩]
      modes := [.unionAll]
      paginated := true }))
    [("id", .int 7)]

theorem pagedUnion_params :
    ∃ c, pagedUnion.compile {} = .ok c ∧ pagedUnion.Avoids '?' ∧
      c.params.map (·.name) =
        ["low", "id", "top", "high", "id", "top", "limit", "offset", "limit", "offset"] ∧
      c.sql.toList.count '?' = 10 := by
  have avoids : pagedUnion.Avoids '?' := by decide
  have compiles : ∃ c, pagedUnion.compile {} = .ok c := ⟨_, rfl⟩
  obtain ⟨c, hc⟩ := compiles
  obtain ⟨params, marks⟩ := Action.params_compile hc
  obtain ⟨count, -⟩ := marks avoids
  refine ⟨c, hc, avoids, ?_, ?_⟩
  · rw [params]
    decide
  · rw [count, params]
    decide

end Bindery
