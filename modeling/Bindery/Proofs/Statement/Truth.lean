import Bindery.Proofs.Statement.Lexing
import Bindery.Proofs.Text.Formula

/-!
# The truth of filters

A filter without SQL written by hand is a tree of comparisons. Its text is read as a
formula over the same comparisons in the same order. The writer puts parentheses around
groups only, and every group has one connective, so the formula is as true as the tree,
whatever truth values there are and whichever of them the comparisons have.

* `Filter.truth`: the truth value of a filter, each group by its own connective.
* `Condition.isComplete`: groups have conditions, and operators the operands they need.
* `Condition.ReadsAs`: a comparison is read as another one, side by side.
* `Filter.truth_read`: the text of a filter is read with the truth value of the filter.
-/

namespace Bindery

open Token

/-! ## Truth of a definition -/

mutual

/-- Whether groups have conditions, and operators the operands they need. -/
def Condition.isComplete : Condition → Bool
  | .compare _ op right => op.isUnary == right.isNone
  | .fragment _ => true
  | .group _ conditions => !conditions.isEmpty && isCompleteTree conditions

/-- Whether all conditions are complete. -/
def isCompleteTree : List Condition → Bool
  | [] => true
  | c :: rest => c.isComplete && isCompleteTree rest

end

mutual

/-- The comparisons and fragments of a condition, from left to right. -/
def Condition.leaves : Condition → List Condition
  | .compare left op right => [.compare left op right]
  | .fragment f => [.fragment f]
  | .group _ conditions => treeLeaves conditions

/-- The comparisons and fragments of conditions, from left to right. -/
def treeLeaves : List Condition → List Condition
  | [] => []
  | c :: rest => c.leaves ++ treeLeaves rest

end

section Truth

variable {α : Type} [Lattice α] [BoundedOrder α]

/-- The truth value of nothing that is joined by a connective. -/
def Connective.neutral : Connective → α
  | .and => ⊤
  | .or => ⊥

mutual

/-- The truth value of a condition whose leaves, counted from the given number, have the
    given truth values. -/
def Condition.truth (v : Nat → α) (first : Nat) : Condition → α
  | .compare .. | .fragment _ => v first
  | .group connective conditions => treeTruth v connective first conditions

/-- The truth value of conditions that are joined by a connective. -/
def treeTruth (v : Nat → α) (connective : Connective) (first : Nat) : List Condition → α
  | [] => connective.neutral
  | c :: rest =>
    connective.join (c.truth v first) (treeTruth v connective (first + c.leaves.length) rest)

end

/-- The truth value of a filter; without conditions it lets everything pass. -/
def Filter.truth (v : Nat → α) (f : Filter) : α :=
  if f.isEmpty then ⊤ else treeTruth v f.connective 0 f.conditions

theorem Connective.join_neutral (k : Connective) (a : α) : k.join a k.neutral = a := by
  cases k with
  | and => exact inf_top_eq a
  | or => exact sup_bot_eq a

end Truth

/-! ## Operands -/

variable {d : Dialect} {s : Scope} {ps : List Piece}

/-- The text of an operand is read as the tokens. -/
def Operand.ReadsAs (d : Dialect) (s : Scope) (x : Operand) (ts : List Token) : Prop :=
  ∃ ps, (x.write s).Yields () ps ∧ d.lex (piecesSql d ps).toList = some ts

/-- A comparison is read as one with the same operator between the same operands. -/
def Condition.ReadsAs (d : Dialect) (s : Scope) : Condition → Comparison → Prop
  | .compare left op right, c =>
    left.ReadsAs d s c.left ∧ c.op = op ∧ Option.Rel (Operand.ReadsAs d s) right c.right
  | .fragment _, _ | .group .., _ => False

/-- The names of the tables in scope, and those that the scope gives to them. -/
def Scope.names (s : Scope) : List Piece :=
  s.seats.flatMap fun seat => seat.table.names ++ .name seat.label :: seat.path.map .name

theorem Scope.from_names {cs : List Piece} (within : s.names ⊆ cs) : s.From cs := by
  intro seat member
  have names : seat.table.names ++ .name seat.label :: seat.path.map .name ⊆ cs :=
    fun p hp => within (List.mem_flatMap.2 ⟨seat, member, hp⟩)
  rw [List.append_subset, List.cons_subset] at names
  obtain ⟨table, label, path⟩ := names
  exact ⟨table, .given label, fun name hname => .given (path (List.mem_map_of_mem hname))⟩

theorem Scope.literal_names (s : Scope) : ∀ p ∈ s.names, p.isNameOrLiteral = true := by
  refine forall_mem_flatMap fun seat _ => ?_
  rw [List.forall_mem_append, List.forall_mem_cons, List.forall_mem_map]
  exact ⟨seat.table.literal_names, rfl, fun _ _ => rfl⟩

/-- Spaced pieces that a scope and literals account for are read one by one. -/
theorem Scope.lex_piecesSql {contents : List Piece}
    (literal : ∀ p ∈ contents, p.isNameOrLiteral = true)
    (pieces : ∀ p ∈ ps, p.From (s.names ++ contents)) (spaced : Spaced ps) :
    d.lex (piecesSql d ps).toList = some (ps.flatMap (Piece.tokens d)) :=
  Bindery.lex_piecesSql (List.forall_mem_append.2 ⟨s.literal_names, literal⟩) pieces spaced

theorem Operand.lex_write {x : Operand} (plain : x.isPlain = true) (h : (x.write s).Yields () ps) :
    d.lex (piecesSql d ps).toList = some (ps.flatMap (Piece.tokens d)) := by
  refine Scope.lex_piecesSql (s := s) (x.literal_contents plain) ?_ (x.spaced_write h)
  exact x.from_write (Scope.from_names (List.subset_append_left _ _))
    (List.subset_append_right _ _) h

theorem run_of_isNumeral {cs : List Char} (h : isNumeral cs = true) :
    run cs = .number (String.ofList cs) := by
  cases cs with
  | nil => cases h
  | cons c rest =>
    rw [isNumeral, Bool.and_eq_true] at h
    rw [run, List.head?_cons, Option.any_some, if_pos h.1]

/-- A number that may have a sign is an operand. -/
theorem form_signedRun (negative : Bool) {cs : List Char} (h : isNumeral cs = true) :
    Operand.Form (signedRun ((if negative then ['-'] else []) ++ cs)) := by
  have number : (run cs).isOperand = true := by rw [run_of_isNumeral h]; rfl
  cases negative with
  | true => exact .signed number
  | false =>
    show Operand.Form (signedRun cs)
    rw [signedRun.eq_def]
    split
    · cases h
    · exact .single number

theorem Value.form_layout (x : Number.Double) :
    Operand.Form (signedRun (Value.layout.text x).toList) := by
  rw [Number.Layout.text]
  split
  · exact .single (show (run "NaN".toList).isOperand = true by decide)
  · split
    · rw [String.toList_ofList]
      exact form_signedRun _ (isNumeral_magnitudeText _)
    · split
      · exact .signed (show (run "inf".toList).isOperand = true by decide)
      · exact .single (show (run "inf".toList).isOperand = true by decide)

theorem Value.form_ofInt (n : Int) : Operand.Form (signedRun (Text.ofInt n).toList) := by
  rw [Text.ofInt, String.toList_ofList]
  cases n with
  | ofNat n => exact form_signedRun false (isNumeral_decimal n)
  | negSucc n => exact form_signedRun true (isNumeral_decimal (n + 1))

/-- A literal is an operand. -/
theorem Value.form_tokens (v : Value) : Operand.Form v.tokens := by
  cases v with
  | null => exact .single (show (run "NULL".toList).isOperand = true by decide)
  | bool b => cases b <;> exact .single (by decide)
  | int n => exact Value.form_ofInt n.toInt
  | float x => exact Value.form_layout x
  | text s => exact .single rfl
  | blob bytes => exact .single rfl

theorem Scope.form_columnPieces {c : ColumnRef} (h : s.columnPieces c = .ok ps) :
    Operand.Form (ps.flatMap (Piece.tokens d)) := by
  obtain ⟨seat, column, -, -, rfl⟩ := Scope.columnPieces_eq_ok_iff.1 h
  split
  · have point : d.words "." = [.symbol '.'] := by cases d <;> cbv
    show Operand.Form (.identifier seat.label :: (d.words "." ++ [.identifier column.sqlName]))
    rw [point]
    exact .place _ _
  · exact .single rfl

theorem Operand.form_write {x : Operand} (plain : x.isPlain = true)
    (h : (x.write s).Yields () ps) : Operand.Form (ps.flatMap (Piece.tokens d)) := by
  cases x with
  | raw sql => cases plain
  | column c => exact Scope.form_columnPieces (Scope.yields_writeColumn.1 h)
  | param p =>
    rw [Param.yields_write.1 h]
    exact .single rfl
  | literal v =>
    rw [Draft.yields_write.1 h, List.flatMap_singleton]
    exact v.form_tokens

/-! ## Conditions -/

theorem Dialect.words_operator (d : Dialect) (op : Operator) : d.words op.sql = op.tokens := by
  cases d <;> cases op <;> cbv

theorem Dialect.words_connective (d : Dialect) (k : Connective) :
    d.words k.sql = [.word k.keyword] := by
  cases d <;> cases k <;> cbv

theorem Dialect.words_blank (d : Dialect) : d.words " " = [] := by cases d <;> cbv

theorem Dialect.words_parentheses (d : Dialect) :
    d.words "(" = [.symbol '('] ∧ d.words ")" = [.symbol ')'] := by
  cases d <;> exact ⟨by cbv, by cbv⟩

theorem Dialect.words_where (d : Dialect) : d.words " WHERE " = [.word "WHERE"] := by
  cases d <;> cbv

theorem tokens_group (inner : List Piece) :
    ([Piece.text "("] ++ (inner ++ [Piece.text ")"])).flatMap (Piece.tokens d) =
      .symbol '(' :: (inner.flatMap (Piece.tokens d) ++ [.symbol ')']) := by
  simp [Piece.tokens, d.words_parentheses]

theorem tokens_connect (before behind : List Piece) (k : Connective) :
    (before ++ ([Piece.text k.sql] ++ behind)).flatMap (Piece.tokens d) =
      before.flatMap (Piece.tokens d) ++
        .word k.keyword :: behind.flatMap (Piece.tokens d) := by
  simp [Piece.tokens, d.words_connective]

/-- What is written for a comparison are the tokens of one that it is read as. -/
theorem Condition.exists_comparison {left : Operand} {op : Operator} {right : Option Operand}
    (plain : (Condition.compare left op right).isPlain = true)
    (complete : (Condition.compare left op right).isComplete = true)
    (h : ((Condition.compare left op right).write s).Yields () ps) :
    ∃ x : Comparison, x.Form ∧ x.tokens = ps.flatMap (Piece.tokens d) ∧
      (Condition.compare left op right).ReadsAs d s x := by
  rw [isPlain, Bool.and_eq_true] at plain
  rw [isComplete, beq_iff_eq] at complete
  rw [Condition.write] at h
  obtain ⟨before, hleft, _, h₁, rfl⟩ := Draft.yields_bind_unit.1 h
  obtain ⟨behind, hright, rfl⟩ := Draft.yields_write_bind.1 h₁
  have operator :
      ([.text " ", .text op.sql] : List Piece).flatMap (Piece.tokens d) = op.tokens := by
    simp [Piece.tokens, d.words_blank, d.words_operator]
  have first : Operand.Form (before.flatMap (Piece.tokens d)) := Operand.form_write plain.1 hleft
  have first_read : left.ReadsAs d s (before.flatMap (Piece.tokens d)) :=
    ⟨before, hleft, Operand.lex_write plain.1 hleft⟩
  cases right with
  | none =>
    obtain ⟨-, rfl⟩ := Draft.yields_pure.1 hright
    refine ⟨⟨_, op, none⟩, .unary first complete, ?_, first_read, rfl, .none⟩
    rw [List.append_nil, List.flatMap_append, operator, Comparison.tokens, Option.getD_none,
      List.append_nil]
  | some x =>
    obtain ⟨other, hx, rfl⟩ := Draft.yields_write_bind.1 hright
    have second : Operand.Form (other.flatMap (Piece.tokens d)) := Operand.form_write plain.2 hx
    have second_read : x.ReadsAs d s (other.flatMap (Piece.tokens d)) :=
      ⟨other, hx, Operand.lex_write plain.2 hx⟩
    refine ⟨⟨_, op, some _⟩, .binary first complete second, ?_, first_read, rfl,
      .some second_read⟩
    have blank : ([.text " "] : List Piece).flatMap (Piece.tokens d) = [] := by
      simp [Piece.tokens, d.words_blank]
    rw [List.flatMap_append, List.flatMap_append, List.flatMap_append, operator, blank,
      List.nil_append]
    rfl

/-- The formula has the comparisons of a condition, and always its truth value. -/
structure Condition.Denoted (d : Dialect) (s : Scope) (c : Condition) (e : Formula) : Prop where
  leaves : List.Forall₂ (Condition.ReadsAs d s) c.leaves e.comparisons
  truth : ∀ {α : Type} [Lattice α] [BoundedOrder α] (v : Nat → α) (first : Nat),
    e.truth v first = c.truth v first

/-- The formula has the comparisons of conditions, and always the truth value that these
    have when the connective joins them. -/
structure TreeDenoted (d : Dialect) (s : Scope) (k : Connective) (cs : List Condition)
    (e : Formula) : Prop where
  leaves : List.Forall₂ (Condition.ReadsAs d s) (treeLeaves cs) e.comparisons
  truth : ∀ {α : Type} [Lattice α] [BoundedOrder α] (v : Nat → α) (first : Nat),
    e.truth v first = treeTruth v k first cs

theorem Condition.Denoted.single {c : Condition} {e : Formula} (h : c.Denoted d s e)
    (k : Connective) : TreeDenoted d s k [c] e where
  leaves := by
    rw [treeLeaves, treeLeaves, List.append_nil]
    exact h.leaves
  truth v first := by
    rw [treeTruth, treeTruth, k.join_neutral]
    exact h.truth v first

theorem Condition.Denoted.connect {c : Condition} {cs : List Condition} {a b : Formula}
    {k : Connective} (h : c.Denoted d s a) (later : TreeDenoted d s k cs b) :
    TreeDenoted d s k (c :: cs) (.connect k a b) where
  leaves := by
    rw [treeLeaves, Formula.comparisons]
    exact List.rel_append h.leaves later.leaves
  truth v first := by
    rw [treeTruth, Formula.truth, h.truth, later.truth, h.leaves.length_eq]

open Formula

mutual

/-- A condition is read up to its end, wherever it may end. -/
theorem Condition.read_write (c : Condition) (plain : c.isPlain = true)
    (complete : c.isComplete = true) {ps : List Piece} (h : (c.write s).Yields () ps) :
    ∃ e, c.Denoted d s e ∧ ∀ rest, Ends rest →
      readLink .and (ps.flatMap (Piece.tokens d) ++ rest) = some (e, rest) := by
  match c with
  | .fragment f => cases plain
  | .compare left op right =>
    obtain ⟨x, form, tokens_eq, reads⟩ := Condition.exists_comparison (d := d) plain complete h
    refine ⟨.comparison x, ⟨.cons reads .nil, fun v first => ?_⟩, fun rest ends => ?_⟩
    · rw [Formula.truth, Condition.truth]
    · rw [← tokens_eq]
      exact readLink_comparison form ends
  | .group connective conditions =>
    rw [Condition.isPlain] at plain
    rw [Condition.isComplete, Bool.and_eq_true, Bool.not_eq_true', List.isEmpty_eq_false_iff]
      at complete
    rw [Condition.write] at h
    obtain ⟨_, h₁, rfl⟩ := Draft.yields_write_bind.1 h
    obtain ⟨inner, hinner, _, h₂, rfl⟩ := Draft.yields_bind_unit.1 h₁
    obtain rfl := Draft.yields_write.1 h₂
    obtain ⟨e, denoted, read⟩ :=
      read_writeConditions connective conditions plain complete.2 complete.1 hinner
    refine ⟨e, ⟨denoted.leaves, denoted.truth⟩, fun rest ends => ?_⟩
    rw [tokens_group, List.cons_append, List.append_assoc, List.singleton_append]
    have closes := closes_parenthesis rest
    exact readLink_group (readChain_or_of_closes (read _ closes) closes)

/-- Conditions are read up to the end of the group that they are all of. -/
theorem read_writeConditions (k : Connective) (cs : List Condition)
    (plain : isPlainTree cs = true) (complete : isCompleteTree cs = true) (nonempty : cs ≠ [])
    {ps : List Piece} (h : (writeConditions s k cs).Yields () ps) :
    ∃ e, TreeDenoted d s k cs e ∧ ∀ rest, Closes rest →
      readChain k (ps.flatMap (Piece.tokens d) ++ rest) = some (e, rest) := by
  match cs with
  | [] => exact absurd rfl nonempty
  | [c] =>
    rw [isPlainTree, Bool.and_eq_true] at plain
    rw [isCompleteTree, Bool.and_eq_true] at complete
    rw [writeConditions] at h
    obtain ⟨e, denoted, read⟩ := c.read_write plain.1 complete.1 h
    refine ⟨e, denoted.single k, fun rest closes => ?_⟩
    exact readChain_of_readLink
      (readLink_of_readLink_and (read rest closes.ends) (.inl closes)) (closes.head?_ne _)
  | c :: c' :: others =>
    rw [isPlainTree, Bool.and_eq_true] at plain
    rw [isCompleteTree, Bool.and_eq_true] at complete
    rw [writeConditions] at h
    obtain ⟨before, hc, _, h₁, rfl⟩ := Draft.yields_bind_unit.1 h
    obtain ⟨behind, hothers, rfl⟩ := Draft.yields_write_bind.1 h₁
    obtain ⟨a, denoted, read⟩ := c.read_write plain.1 complete.1 hc
    obtain ⟨b, later, read_later⟩ := read_writeConditions k (c' :: others) plain.2 complete.2
      (List.cons_ne_nil _ _) hothers
    refine ⟨.connect k a b, denoted.connect later, fun rest closes => ?_⟩
    rw [tokens_connect, List.append_assoc, List.cons_append]
    refine readChain_connect (readLink_of_readLink_and (read _ (ends_keyword k _)) (.inr rfl)) ?_
      (read_later rest closes)
    simp
    omega

end

/-! ## Filters -/

/-- The comparisons of a clause. -/
def Formula.clauseComparisons : Option Formula → List Comparison
  | none => []
  | some e => e.comparisons

/-- The truth value of a clause, which restricts nothing if it is missing. -/
def Formula.clauseTruth {α : Type} [Lattice α] [BoundedOrder α] (v : Nat → α) :
    Option Formula → α
  | none => ⊤
  | some e => e.truth v 0

theorem Filter.lex_write {f : Filter} (plain : isPlainTree f.conditions = true)
    (h : (f.write s).Yields () ps) :
    d.lex (piecesSql d ps).toList = some (ps.flatMap (Piece.tokens d)) := by
  refine Scope.lex_piecesSql (s := s) (literal_treeContents f.conditions plain) ?_
    (Filter.spaced_write plain h).1
  exact f.from_write (Scope.from_names (List.subset_append_left _ _))
    (List.subset_append_right _ _) h

/-- The text of a filter without SQL written by hand, in which groups have conditions and
    operators the operands they need, is read as a clause. The clause has the comparisons
    of the filter in their order, and whatever truth values they are given, it has the
    truth value of the filter. -/
theorem Filter.truth_read {f : Filter} (plain : isPlainTree f.conditions = true)
    (complete : isCompleteTree f.conditions = true) {s : Scope} {ps : List Piece}
    (h : (f.write s).Yields () ps) (d : Dialect) :
    ∃ ts clause, d.lex (piecesSql d ps).toList = some ts ∧ readClause ts = some clause ∧
      List.Forall₂ (Condition.ReadsAs d s) (treeLeaves f.conditions) (clauseComparisons clause) ∧
      ∀ {α : Type} [Lattice α] [BoundedOrder α] (v : Nat → α),
        clauseTruth v clause = f.truth v := by
  have lexed := f.lex_write (d := d) plain h
  rcases Filter.yields_write.1 h with ⟨empty, rfl⟩ | ⟨nonempty, tree, written, rfl⟩
  · refine ⟨_, none, lexed, rfl, ?_, fun v => ?_⟩
    · rw [empty]
      exact .nil
    · rw [Filter.truth, Filter.isEmpty, empty]
      rfl
  · obtain ⟨e, denoted, read⟩ := read_writeConditions (d := d) f.connective f.conditions plain
      complete nonempty written
    have whole := readChain_or_of_closes (read [] closes_nil) closes_nil
    rw [List.append_nil] at whole
    have tokens_eq : (Piece.text " WHERE " :: tree).flatMap (Piece.tokens d) =
        .word "WHERE" :: tree.flatMap (Piece.tokens d) := by
      simp [Piece.tokens, d.words_where]
    refine ⟨_, some e, lexed, ?_, denoted.leaves, fun v => ?_⟩
    · rw [tokens_eq]
      exact readClause_where whole
    · rw [Filter.truth, Filter.isEmpty, List.isEmpty_eq_false_iff.2 nonempty]
      exact denoted.truth v 0

/-- Accounts by key, or those without a name that have a low key or a key from a list. -/
def namelessFilter : Filter where
  connective := .or
  conditions := [.equals (.ofMain "id") ⟨"id", .count⟩,
    .group .and [.isNull (.ofMain "name"),
      .group .or [.byParam (.ofMain "id") .lt ⟨"top", .count⟩,
        .byValue (.ofMain "id") .eq (.int (-1))]]]

theorem namelessFilter_truth :
    ∃ s ps ts clause, Scope.resolve accounts [] = .ok s ∧ (namelessFilter.write s).Yields () ps ∧
      Dialect.generic.lex (piecesSql .generic ps).toList = some ts ∧
      readClause ts = some clause ∧ (clauseComparisons clause).length = 4 ∧
      ∀ v : Nat → Bool, clauseTruth v clause = (v 0 || (v 1 && (v 2 || v 3))) := by
  obtain ⟨s, resolved, ps, written⟩ :
      ∃ s, Scope.resolve accounts [] = .ok s ∧ ∃ ps, (namelessFilter.write s).Yields () ps :=
    ⟨_, rfl, _, rfl, rfl⟩
  obtain ⟨ts, clause, lexed, read, leaves, truth⟩ :=
    namelessFilter.truth_read (by decide) (by decide) written .generic
  refine ⟨s, ps, ts, clause, resolved, written, lexed, read, ?_, fun v => ?_⟩
  · rw [← leaves.length_eq]
    rfl
  · rw [truth v]
    show (v 0 || ((v 1 && (((v 2 || (v 3 || false)) && true))) || false)) = _
    simp

end Bindery
