import Bindery.Proofs.Statement.Placeholders
import Bindery.Proofs.Statement.Spacing
import Bindery.Proofs.Text.Numeral
import Mathlib

/-!
# Tokens of a compiled action

The text of an action without SQL written by hand reads as the tokens of its
pieces, one after the other. Each name is one identifier that decodes to the
name, each text one string that decodes to the text, and each parameter one
placeholder, so nothing that a name or a text holds can end its token early or
bring another token about.

* `Piece.tokens`: the tokens of a piece.
* `Action.lex_compile`: the tokens of the text of a compiled action.
-/

namespace Bindery

open Token

variable {d : Dialect}

/-! ## Literals -/

/-- Whether a text is a single number. -/
def Token.isNumeral : List Char → Bool
  | [] => false
  | c :: rest => Text.isDigit c && rest.all continuesNumber

theorem isRun_of_isNumeral {cs : List Char} (h : isNumeral cs = true) : isRun cs = true := by
  cases cs with
  | nil => cases h
  | cons c rest =>
    rw [isNumeral] at h
    rw [isRun, h, Bool.true_or]

theorem isNumeral_of_digits {c : Char} {rest : List Char} (first : Text.isDigit c = true)
    (others : ∀ x ∈ rest, continuesNumber x = true) : isNumeral (c :: rest) = true := by
  rw [isNumeral, first, List.all_eq_true.2 others]
  rfl

theorem continuesNumber_of_isDigit {c : Char} (h : Text.isDigit c = true) :
    continuesNumber c = true := by
  rw [continuesNumber, h]
  rfl

theorem isNumeral_decimal (n : Nat) : isNumeral (Text.decimal n) = true := by
  cases eq : Text.decimal n with
  | nil => exact absurd eq (Text.decimal_ne_nil n)
  | cons c rest =>
    have digit : ∀ x ∈ c :: rest, Text.isDigit x = true := by
      intro x hx
      rw [← eq] at hx
      exact Text.isDigit_of_mem_decimal hx
    rw [List.forall_mem_cons] at digit
    exact isNumeral_of_digits digit.1 fun x hx => continuesNumber_of_isDigit (digit.2 x hx)

/-- Digits around a decimal point are one number. -/
theorem isNumeral_positional {digits : List Char} (nonempty : digits ≠ [])
    (all : ∀ c ∈ digits, Text.isDigit c = true) (lead : Int) :
    isNumeral (Number.positional false digits lead) = true := by
  obtain ⟨c, rest, rfl⟩ := List.exists_cons_of_ne_nil nonempty
  have run : ∀ x ∈ c :: rest, continuesNumber x = true :=
    fun x hx => continuesNumber_of_isDigit (all x hx)
  have zeros : ∀ n, ∀ x ∈ List.replicate n '0', continuesNumber x = true := by
    intro n x hx
    rw [(List.mem_replicate.1 hx).2]
    decide
  rw [Number.positional]
  split
  · refine isNumeral_of_digits (by decide) ?_
    rw [List.forall_mem_cons, List.forall_mem_append]
    exact ⟨by decide, zeros _, run⟩
  · rw [List.forall_mem_cons] at all run
    dsimp only
    split
    · rw [List.cons_append, List.cons_append]
      refine isNumeral_of_digits all.1 ?_
      have plain : (if false = true then ['.', '0'] else []) = [] := rfl
      rw [plain, List.append_nil]
      exact List.forall_mem_append.2 ⟨run.2, zeros _⟩
    · rw [List.take_succ_cons, List.cons_append]
      refine isNumeral_of_digits all.1 ?_
      rw [List.drop_succ_cons, List.forall_mem_append, List.forall_mem_cons]
      refine ⟨fun x hx => run.2 x (List.mem_of_mem_take hx), by decide, ?_⟩
      exact fun x hx => run.2 x (List.mem_of_mem_drop hx)

theorem isNumeral_magnitudeText (magnitude : Nat) :
    isNumeral (Value.layout.magnitudeText magnitude) = true := by
  rw [Number.Layout.magnitudeText]
  split
  · refine isNumeral_positional (by decide) (fun c hc => ?_) _
    rw [List.mem_singleton.1 hc]
    decide
  · -- The layout of SQL is always positional.
    dsimp only
    rw [if_pos (show Value.layout.isPositional _ = true from rfl)]
    exact isNumeral_positional (Text.decimal_ne_nil _) (fun _ => Text.isDigit_of_mem_decimal) _

theorem Value.lex_layout (x : Number.Double) :
    d.lex (Value.layout.text x).toList = some (signedRun (Value.layout.text x).toList) := by
  rw [Number.Layout.text]
  split
  · exact Dialect.lex_signedRun false (by decide)
  · split
    · rw [String.toList_ofList]
      exact Dialect.lex_signedRun _ (isRun_of_isNumeral (isNumeral_magnitudeText _))
    · split
      · exact Dialect.lex_signedRun true (show isRun "inf".toList = true by decide)
      · exact Dialect.lex_signedRun false (by decide)

theorem Value.lex_ofInt (n : Int) :
    d.lex (Text.ofInt n).toList = some (signedRun (Text.ofInt n).toList) := by
  rw [Text.ofInt, String.toList_ofList]
  cases n with
  | ofNat n => exact Dialect.lex_signedRun false (isRun_of_isNumeral (isNumeral_decimal n))
  | negSucc n => exact Dialect.lex_signedRun true (isRun_of_isNumeral (isNumeral_decimal (n + 1)))

theorem Value.lex_boolLiteral (b : Bool) :
    d.lex (Value.boolLiteral b).toList = some (signedRun (Value.boolLiteral b).toList) := by
  cases b with
  | true => exact Dialect.lex_signedRun false (by decide)
  | false => exact Dialect.lex_signedRun false (by decide)

/-- The tokens of a literal. -/
def Value.tokens (v : Value) : List Token :=
  match v with
  | .text s => [.string s]
  | .blob bytes => [.binary (String.ofList (bytes.flatMap Text.hexByte))]
  | .null | .bool _ | .int _ | .float _ => signedRun v.literal.toList

theorem double_eq_self {q : Char} {s : List Char} (h : q ∉ s) : Text.double q s = s := by
  induction s with
  | nil => rfl
  | cons c s ih =>
    rw [List.mem_cons, not_or] at h
    rw [Text.double, if_neg (Ne.symm h.1), ih h.2]

theorem hexDigitUpper_ne_quote : ∀ n < 16, Text.hexDigitUpper n ≠ '\'' := by decide

theorem quote_not_mem_hexByte (b : UInt8) : '\'' ∉ Text.hexByte b := by
  have bound : b.toNat < 256 := b.toNat_lt
  have high := hexDigitUpper_ne_quote (b.toNat / 16) (by omega)
  have low := hexDigitUpper_ne_quote (b.toNat % 16) (by omega)
  simp [Text.hexByte, high.symm, low.symm]

theorem Value.lex_blob (bytes : List UInt8) :
    d.lex (Value.literal (.blob bytes)).toList = some (Value.tokens (.blob bytes)) := by
  have plain : '\'' ∉ bytes.flatMap Text.hexByte := by
    intro h
    obtain ⟨b, -, h⟩ := List.mem_flatMap.1 h
    exact quote_not_mem_hexByte b h
  have text : (Value.literal (.blob bytes)).toList =
      'X' :: '\'' :: (Text.double '\'' (String.ofList (bytes.flatMap Text.hexByte)).toList ++
        ['\'']) := by
    rw [String.toList_ofList, double_eq_self plain]
    simp [Value.literal]
  have quote : 'X' ≠ d.quoteChar := by cases d <;> decide
  have token : readToken d 'X' ('\'' ::
      (Text.double '\'' (String.ofList (bytes.flatMap Text.hexByte)).toList ++ ['\''])) =
      some (.binary (String.ofList (bytes.flatMap Text.hexByte)), []) := by
    rw [readToken, if_neg quote, if_neg (by decide), if_neg (by decide), if_pos ⟨.inl rfl, rfl⟩]
    exact Dialect.readAs_double _ (by simp)
  rw [text, Dialect.lex_of_readToken (by decide) token, Dialect.lex_nil, Option.map_some,
    Value.tokens]

/-- A literal is one token, or a number behind its sign. -/
theorem Value.lex_literal (v : Value) : d.lex v.literal.toList = some v.tokens := by
  cases v with
  | null => exact Dialect.lex_signedRun false (by decide)
  | bool b => exact Value.lex_boolLiteral b
  | int n => exact Value.lex_ofInt n.toInt
  | float x => exact Value.lex_layout x
  | text s => exact Dialect.lex_string s
  | blob bytes => exact Value.lex_blob bytes

/-! ## Pieces -/

/-- The tokens that SQL of the compiler has on its own. -/
def Dialect.words (d : Dialect) (s : String) : List Token := (d.lex s.toList).getD []

/-- The tokens of a default. -/
def DefaultValue.tokens (d : Dialect) (v : DefaultValue) : List Token :=
  match v with
  | .string s => [.string s]
  | .null | .bool _ | .int _ | .float _ => signedRun (v.sql d).toList
  | .currentDate | .currentTime | .currentDateTime | .expression _ => d.words (v.sql d)

/-- The tokens of a piece: one for a name and one for a placeholder. -/
def Piece.tokens (d : Dialect) : Piece → List Token
  | .name s => [.identifier s]
  | .slot _ => [.placeholder]
  | .value v => v.tokens
  | .fallback v => v.tokens d
  | .text s | .raw s => d.words s

theorem lex_of_isSome {s : String} (h : (d.lex s.toList).isSome = true) :
    d.lex s.toList = some (d.words s) := by
  obtain ⟨ts, hts⟩ := Option.isSome_iff_exists.1 h
  rw [Dialect.words, hts, Option.getD_some]

/-- SQL that the compiler writes of its own accord. -/
def ownWords (d : Dialect) : List String :=
  [d.currentDate, d.currentTime, d.currentDateTime] ++ sqlWords

theorem lex_ownWords : (ownWords d).all (fun s => (d.lex s.toList).isSome) = true := by
  cases d <;> cbv

theorem lex_of_mem_ownWords {s : String} (h : s ∈ ownWords d) :
    d.lex s.toList = some (d.words s) :=
  lex_of_isSome (List.all_eq_true.1 lex_ownWords s h)

theorem DefaultValue.lex_sql {v : DefaultValue} (plain : v.isPlain = true) :
    d.lex (v.sql d).toList = some (v.tokens d) := by
  cases v with
  | null => exact Value.lex_literal .null
  | bool b => exact Value.lex_boolLiteral b
  | int n => exact Value.lex_ofInt n.toInt
  | float x => exact Value.lex_layout x
  | string s => exact Dialect.lex_string s
  | expression sql => cases plain
  | currentDate => exact lex_of_mem_ownWords (by simp [ownWords, DefaultValue.sql])
  | currentTime => exact lex_of_mem_ownWords (by simp [ownWords, DefaultValue.sql])
  | currentDateTime => exact lex_of_mem_ownWords (by simp [ownWords, DefaultValue.sql])

/-- A piece that names and literals account for reads as its tokens. -/
theorem Piece.From.lex_sql {cs : List Piece} (plain : ∀ p ∈ cs, p.isNameOrLiteral = true)
    {p : Piece} (h : p.From cs) : d.lex (p.sql d).toList = some (p.tokens d) := by
  cases h with
  | word member => exact lex_of_mem_ownWords (List.mem_append_right _ member)
  | slot b =>
    have quote : '?' ≠ d.quoteChar := by cases d <;> decide
    have token : readToken d '?' [] = some (.placeholder, []) := by
      rw [readToken, if_neg quote, if_neg (by decide), if_pos rfl]
    rw [Piece.toList_sql_slot, Dialect.lex_of_readToken (by decide) token, Dialect.lex_nil,
      Option.map_some, Piece.tokens]
  | name derived => exact Dialect.lex_quoted _
  | null => exact DefaultValue.lex_sql (v := .null) rfl
  | content member =>
    have literal := plain p member
    cases p with
    | name s => exact Dialect.lex_quoted s
    | value v => exact Value.lex_literal v
    | fallback v => exact DefaultValue.lex_sql literal
    | text s => cases literal
    | raw s => cases literal
    | slot b => cases literal

/-! ## Pieces one after the other -/

/-- SQL that ends with a break: what stands before its last character is read on
    its own, too. -/
theorem lex_dropLast_sqlWords :
    sqlWords.all (fun s => !(Piece.text s).closes || (d.lex s.toList.dropLast).isSome &&
      (s.toList.dropLast.isEmpty || s.toList.getLast?.any breaks.contains)) = true := by
  cases d <;> cbv

/-- SQL that ends with a break is read on its own, whatever comes behind it. -/
theorem lex_closing_append {s : String} (member : s ∈ sqlWords)
    (closes : (Piece.text s).closes = true) (rest : List Char) :
    d.lex (s.toList ++ rest) = (d.lex rest).map (d.words s ++ ·) := by
  have checked := List.all_eq_true.1 (lex_dropLast_sqlWords (d := d)) s member
  rw [closes, Bool.not_true, Bool.false_or, Bool.and_eq_true, Bool.or_eq_true] at checked
  obtain ⟨readable, last⟩ := checked
  obtain ⟨before, hbefore⟩ := Option.isSome_iff_exists.1 readable
  rw [Piece.closes, Option.any_eq_true] at closes
  obtain ⟨c, hc, member'⟩ := closes
  have cut : s.toList = s.toList.dropLast ++ [c] := (List.dropLast_append_getLast? c hc).symm
  obtain ⟨ts, hts⟩ := Dialect.lex_break_cons (d := d) (List.contains_iff_mem.1 member')
  have apart : ∀ rest, d.lex (s.toList ++ rest) = (d.lex rest).map ((before ++ ts) ++ ·) := by
    intro rest
    rw [cut, List.append_assoc, List.singleton_append]
    rcases last with alone | breaks_last
    · -- A single character stands before the rest.
      rw [List.isEmpty_iff] at alone
      rw [alone, Dialect.lex_nil] at hbefore
      cases hbefore
      rw [alone, List.nil_append, hts, List.nil_append]
    · have next : Breaks (c :: rest) := by
        rintro _ ⟨⟩
        rw [hc, Option.any_some] at breaks_last
        exact List.contains_iff_mem.1 breaks_last
      rw [Dialect.lex_append hbefore next, hts, Option.map_map]
      congr 1
      funext later
      simp
  have alone := apart []
  rw [List.append_nil, Dialect.lex_nil, Option.map_some, List.append_nil] at alone
  rw [apart, Dialect.words, alone, Option.getD_some]

theorem Piece.breaks_of_opens {p : Piece} (h : p.opens = true) (rest : List Char) :
    Breaks ((p.sql d).toList ++ rest) := by
  cases p with
  | text s =>
    rw [Piece.opens, Option.any_eq_true] at h
    obtain ⟨c, head, member⟩ := h
    intro c' head'
    have first : (s.toList ++ rest).head? = some c := by
      rw [List.head?_append, head]
      rfl
    rw [Piece.sql, first] at head'
    cases head'
    exact List.contains_iff_mem.1 member
  | name s => cases h
  | value v => cases h
  | fallback v => cases h
  | raw s => cases h
  | slot b => cases h

/-- What comes behind a piece does not change how the piece is read. -/
theorem Piece.lex_append {cs : List Piece} (plain : ∀ p ∈ cs, p.isNameOrLiteral = true)
    {p q : Piece} (hp : p.From cs) (apart : p.Apart q) (rest : List Char) :
    d.lex ((p.sql d).toList ++ ((q.sql d).toList ++ rest)) =
      (d.lex ((q.sql d).toList ++ rest)).map (p.tokens d ++ ·) := by
  rcases apart with closes | opens | ⟨⟨s, rfl⟩, rfl⟩
  · cases hp with
    | word member => exact lex_closing_append member closes _
    | slot b => cases closes
    | name derived => cases closes
    | null => cases closes
    | content member =>
      have literal := plain p member
      cases p with
      | text s => cases literal
      | name s => cases closes
      | value v => cases closes
      | fallback v => cases closes
      | raw s => cases literal
      | slot b => cases literal
  · exact Dialect.lex_append (hp.lex_sql plain) (Piece.breaks_of_opens opens rest)
  · refine Dialect.lex_quoted_append s ?_
    cases d <;> simp [Piece.sql, Dialect.quoteChar]

/-- Spaced pieces are read one after the other. -/
theorem lex_piecesSql {cs : List Piece} (plain : ∀ p ∈ cs, p.isNameOrLiteral = true)
    {ps : List Piece} (hps : ∀ p ∈ ps, p.From cs) (spaced : Spaced ps) :
    d.lex (piecesSql d ps).toList = some (ps.flatMap (Piece.tokens d)) := by
  rw [toList_piecesSql]
  induction ps with
  | nil => exact Dialect.lex_nil
  | cons p ps ih =>
    rw [List.forall_mem_cons] at hps
    have behind := ih hps.2 (List.IsChain.tail spaced)
    cases ps with
    | nil =>
      rw [List.flatMap_singleton, List.flatMap_singleton]
      exact hps.1.lex_sql plain
    | cons q ps =>
      have apart : p.Apart q := (List.isChain_cons_cons.1 spaced).1
      simp only [List.flatMap_cons] at behind ⊢
      rw [Piece.lex_append plain hps.1 apart, behind, Option.map_some]

/-! ## Identifiers, strings and placeholders -/

/-- Whether a token is an identifier, a string or a placeholder. -/
def Token.isMarked : Token → Bool
  | .identifier _ | .string _ | .placeholder => true
  | .word _ | .number _ | .symbol _ | .binary _ => false

/-- The identifier, string or placeholder that a piece stands for. -/
def Piece.mark? : Piece → Option Token
  | .name s => some (.identifier s)
  | .value (.text s) | .fallback (.string s) => some (.string s)
  | .slot _ => some .placeholder
  | _ => none

theorem filter_isMarked_run (cs : List Char) : [run cs].filter isMarked = [] := by
  rw [run]
  split <;> rfl

theorem filter_isMarked_signedRun (cs : List Char) : (signedRun cs).filter isMarked = [] := by
  rw [signedRun.eq_def]
  split
  · rw [List.filter_cons_of_neg (by decide), filter_isMarked_run]
  · exact filter_isMarked_run cs

theorem isMarked_ownWords :
    (ownWords d).all (fun s => (d.words s).all (!·.isMarked)) = true := by
  cases d <;> cbv

theorem filter_isMarked_words {s : String} (h : s ∈ ownWords d) :
    (d.words s).filter isMarked = [] := by
  rw [List.filter_eq_nil_iff]
  intro t ht
  have := List.all_eq_true.1 (List.all_eq_true.1 isMarked_ownWords s h) t ht
  simpa using this

theorem Value.filter_isMarked_tokens (v : Value) :
    v.tokens.filter isMarked = (Piece.value v).mark?.toList := by
  cases v with
  | text s => rfl
  | blob bytes => rfl
  | null => exact filter_isMarked_signedRun (Value.literal .null).toList
  | bool b => exact filter_isMarked_signedRun _
  | int n => exact filter_isMarked_signedRun _
  | float x => exact filter_isMarked_signedRun _

theorem DefaultValue.filter_isMarked_tokens {v : DefaultValue} (plain : v.isPlain = true) :
    (v.tokens d).filter isMarked = (Piece.fallback v).mark?.toList := by
  cases v with
  | string s => rfl
  | null => exact filter_isMarked_signedRun _
  | bool b => exact filter_isMarked_signedRun _
  | int n => exact filter_isMarked_signedRun _
  | float x => exact filter_isMarked_signedRun _
  | expression sql => cases plain
  | currentDate => exact filter_isMarked_words (by simp [ownWords, DefaultValue.sql])
  | currentTime => exact filter_isMarked_words (by simp [ownWords, DefaultValue.sql])
  | currentDateTime => exact filter_isMarked_words (by simp [ownWords, DefaultValue.sql])

theorem Piece.From.filter_isMarked {cs : List Piece} (plain : ∀ p ∈ cs, p.isNameOrLiteral = true)
    {p : Piece} (h : p.From cs) : (p.tokens d).filter isMarked = p.mark?.toList := by
  cases h with
  | word member => exact filter_isMarked_words (List.mem_append_right _ member)
  | slot b => rfl
  | name derived => rfl
  | null => exact DefaultValue.filter_isMarked_tokens (v := .null) rfl
  | content member =>
    have literal := plain p member
    cases p with
    | name s => rfl
    | value v => exact Value.filter_isMarked_tokens v
    | fallback v => exact DefaultValue.filter_isMarked_tokens literal
    | text s => cases literal
    | raw s => cases literal
    | slot b => cases literal

theorem filter_isMarked_flatMap {cs : List Piece} (plain : ∀ p ∈ cs, p.isNameOrLiteral = true)
    {ps : List Piece} (hps : ∀ p ∈ ps, p.From cs) :
    (ps.flatMap (Piece.tokens d)).filter isMarked = ps.filterMap Piece.mark? := by
  induction ps with
  | nil => rfl
  | cons p ps ih =>
    rw [List.forall_mem_cons] at hps
    rw [List.flatMap_cons, List.filter_append, hps.1.filter_isMarked plain, ih hps.2]
    cases mark : p.mark? with
    | none => rw [List.filterMap_cons_none mark, Option.toList_none, List.nil_append]
    | some t => rw [List.filterMap_cons_some mark, Option.toList_some, List.singleton_append]

theorem Piece.count_placeholder_mark? (p : Piece) :
    p.mark?.toList.count .placeholder = (slots [p]).length := by
  cases p with
  | slot b => rfl
  | name s => rfl
  | text s => rfl
  | raw s => rfl
  | value v => cases v <;> rfl
  | fallback v => cases v <;> rfl

/-- Among the marks of pieces, a placeholder stands for a parameter. -/
theorem count_placeholder_marks (ps : List Piece) :
    (ps.filterMap Piece.mark?).count .placeholder = (slots ps).length := by
  induction ps with
  | nil => rfl
  | cons p ps ih =>
    rw [← List.singleton_append, List.filterMap_append, List.count_append, ih, slots_append,
      List.length_append, ← p.count_placeholder_mark?]
    cases mark : p.mark? with
    | none => rw [List.filterMap_cons_none mark, List.filterMap_nil, Option.toList_none]
    | some t => rw [List.filterMap_cons_some mark, List.filterMap_nil, Option.toList_some]

/-! ## Compiled actions -/

/-- The text of an action without SQL written by hand is read to its end, as the
    tokens of its pieces: each name is one identifier, each text one string and
    each parameter one placeholder, in the order of the pieces, and there is no
    other identifier, string or placeholder. The definition accounts for every
    name and literal. -/
theorem Action.lex_compile {o : Options} {a : Action} {c : Compiled} (plain : a.isPlain = true)
    (h : a.compile o = .ok c) :
    ∃ p ts, a.prepare o.naming = .ok p ∧ (∀ q ∈ p.statement.pieces, q.From a.contents) ∧
      o.dialect.lex c.sql.toList = some ts ∧
      ts = p.statement.pieces.flatMap (Piece.tokens o.dialect) ∧
      ts.filter isMarked = p.statement.pieces.filterMap Piece.mark? ∧
      ts.count .placeholder = c.params.length := by
  obtain ⟨p, hp, rfl⟩ := Action.compile_eq_ok_iff.1 h
  have contents := Action.literal_contents plain
  have pieces_from := Action.from_prepare hp
  have marks := filter_isMarked_flatMap (d := o.dialect) contents pieces_from
  refine ⟨p, _, hp, pieces_from, ?_, rfl, marks, ?_⟩
  · exact lex_piecesSql contents pieces_from (Action.spaced_prepare plain hp)
  · have kept : isMarked .placeholder = true := rfl
    rw [← List.count_filter kept, marks, count_placeholder_marks]
    rfl

/-- Guests, under names full of quotes. -/
def guests : Table where
  name := "guests"
  databaseName := some "gu`e\"s'ts?"
  columns := [.primaryKey "id", .ofScalar "na`me" .text,
    (Column.ofScalar "no\"te" .text).withDefault (.string "it's ? -- `x`")]
  distinct := by decide
  finite := by decide

/-- Guests are renamed, by a name that looks like SQL. -/
def renameGuest : Action :=
  .perform "rename" guests (.update {
    filter := { conditions := [.byValue (.ofMain "na`me") .eq (.text "' OR ''='"),
      .equals (.ofMain "id") ⟨"id", .count⟩] }
    assignments := [⟨"na`me", .param ⟨"to", { scalar := .text }⟩⟩]
    fillDefaults := true })

theorem renameGuest_tokens :
    ∃ c ts, renameGuest.compile {} = .ok c ∧ Dialect.mysql.lex c.sql.toList = some ts ∧
      ts.filter isMarked = [.identifier "gu`e\"s'ts?", .identifier "na`me", .placeholder,
        .identifier "no\"te", .string "it's ? -- `x`", .identifier "na`me", .string "' OR ''='",
        .identifier "id", .placeholder] ∧
      ts.count .placeholder = 2 := by
  have plain : renameGuest.isPlain = true := by decide
  obtain ⟨c, hc⟩ : ∃ c, renameGuest.compile {} = .ok c := ⟨_, rfl⟩
  obtain ⟨p, ts, hp, -, read, -, marks, count⟩ := Action.lex_compile plain hc
  have written : (renameGuest.prepare {}).map (·.statement.pieces.filterMap Piece.mark?) =
      .ok [.identifier "gu`e\"s'ts?", .identifier "na`me", .placeholder, .identifier "no\"te",
        .string "it's ? -- `x`", .identifier "na`me", .string "' OR ''='", .identifier "id",
        .placeholder] := rfl
  obtain ⟨p', hp', marks'⟩ := map_eq_ok_iff.1 written
  cases hp.symm.trans hp'
  have bound : (renameGuest.compile {}).map (·.params.length) = .ok 2 := rfl
  obtain ⟨c', hc', count'⟩ := map_eq_ok_iff.1 bound
  cases hc.symm.trans hc'
  exact ⟨c, ts, hc, read, marks.trans marks', count.trans count'⟩

end Bindery
