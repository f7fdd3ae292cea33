import Bindery.Proofs.Statement.Contents
import Bindery.Proofs.Text.Token
import Mathlib.Data.List.Chain

/-!
# Breaks between pieces

Without SQL written by hand, a name or a literal never touches another one: the
compiler writes SQL of its own between any two of them, and that SQL begins or
ends with a break. So no token reaches from one piece into the next.

* `Action.isPlain`: the action has no SQL written by hand.
* `Spaced`: a break lies between any two neighbours.
* `Action.spaced_prepare`: the pieces of a plain action are spaced.
-/

namespace Bindery

/-! ## Definitions without SQL written by hand -/

/-- Whether a side of a comparison is not SQL taken as it is. -/
def Operand.isPlain : Operand → Bool
  | .raw _ => false
  | _ => true

mutual

/-- Whether a condition has no SQL written by hand. -/
def Condition.isPlain : Condition → Bool
  | .compare left _ right => left.isPlain && right.all Operand.isPlain
  | .fragment _ => false
  | .group _ conditions => isPlainTree conditions

/-- Whether conditions have no SQL written by hand. -/
def isPlainTree : List Condition → Bool
  | [] => true
  | c :: rest => c.isPlain && isPlainTree rest

end

/-- Whether an entry of a select list is a column. -/
def SelectColumn.isPlain : SelectColumn → Bool
  | .column _ _ => true
  | .expression _ _ _ => false

/-- Whether an order key is not SQL taken as it is. -/
def OrderKey.isPlain (k : OrderKey) : Bool :=
  match k.target with
  | .raw _ => false
  | _ => true

/-- Whether a select has no SQL written by hand. -/
def Select.isPlain (s : Select) : Bool :=
  s.columns.all SelectColumn.isPlain && isPlainTree s.filter.conditions &&
    s.orderBy.all OrderKey.isPlain

/-- Whether a union has no SQL written by hand. -/
def Union.isPlain (u : Union) : Bool :=
  u.branches.all (·.select.isPlain) && u.orderBy.all OrderKey.isPlain

/-- Whether a column is not set to a fragment. -/
def Assignment.isPlain (a : Assignment) : Bool :=
  match a.value with
  | .fragment _ => false
  | _ => true

/-- Whether a default is not an expression. -/
def DefaultValue.isPlain : DefaultValue → Bool
  | .expression _ => false
  | _ => true

/-- Whether no column of a table has an expression as its default. -/
def Table.isPlain (t : Table) : Bool := t.columns.all fun c => c.default.all DefaultValue.isPlain

/-- Whether a task has no SQL written by hand; only a task that sets columns uses
    the defaults of its table. -/
def Task.isPlain (table : Table) : Task → Bool
  | .select s => s.isPlain
  | .insert i => table.isPlain && i.assignments.all Assignment.isPlain
  | .update u =>
    table.isPlain && u.assignments.all Assignment.isPlain && isPlainTree u.filter.conditions
  | .delete d => isPlainTree d.filter.conditions
  | .union u => u.isPlain

/-- Whether an action has no SQL written by hand. -/
def Action.isPlain : Action → Bool
  | .perform _ table task => task.isPlain table
  | .wrap _ _ inner _ => inner.isPlain

/-! ## Contents without SQL written by hand -/

/-- Whether a piece is a name or a literal. -/
def Piece.isNameOrLiteral : Piece → Bool
  | .name _ | .value _ => true
  | .fallback v => v.isPlain
  | .text _ | .raw _ | .slot _ => false

theorem Operand.literal_contents {x : Operand} (h : x.isPlain = true) :
    ∀ p ∈ x.contents, p.isNameOrLiteral = true := by
  cases x with
  | raw sql => cases h
  | literal v => simp [Operand.contents, Piece.isNameOrLiteral]
  | column c => simp [Operand.contents]
  | param p => simp [Operand.contents]

mutual

theorem Condition.literal_contents (c : Condition) (h : c.isPlain = true) :
    ∀ p ∈ c.contents, p.isNameOrLiteral = true := by
  match c with
  | .compare left op right =>
    rw [Condition.isPlain, Bool.and_eq_true] at h
    rw [Condition.contents, List.forall_mem_append]
    refine ⟨left.literal_contents h.1, ?_⟩
    cases right with
    | none => simp
    | some x => simpa using x.literal_contents (by simpa using h.2)
  | .fragment f => cases h
  | .group connective conditions =>
    rw [Condition.isPlain] at h
    rw [Condition.contents]
    exact literal_treeContents conditions h

theorem literal_treeContents (cs : List Condition) (h : isPlainTree cs = true) :
    ∀ p ∈ treeContents cs, p.isNameOrLiteral = true := by
  match cs with
  | [] => simp [treeContents]
  | c :: rest =>
    rw [isPlainTree, Bool.and_eq_true] at h
    rw [treeContents, List.forall_mem_append]
    exact ⟨c.literal_contents h.1, literal_treeContents rest h.2⟩

end

theorem forall_mem_flatMap {α β : Type} {P : β → Prop} {f : α → List β} {xs : List α}
    (h : ∀ x ∈ xs, ∀ y ∈ f x, P y) : ∀ y ∈ xs.flatMap f, P y := by
  intro y hy
  obtain ⟨x, hx, hy⟩ := List.mem_flatMap.1 hy
  exact h x hx y hy

theorem Table.literal_names (t : Table) : ∀ p ∈ t.names, p.isNameOrLiteral = true := by
  rw [Table.names, List.forall_mem_append]
  refine ⟨by simp [Piece.isNameOrLiteral], forall_mem_flatMap ?_⟩
  simp [Piece.isNameOrLiteral]

theorem SelectColumn.literal_contents {c : SelectColumn} (h : c.isPlain = true) :
    ∀ p ∈ c.contents, p.isNameOrLiteral = true := by
  cases c with
  | column c outputName => simp [SelectColumn.contents, Piece.isNameOrLiteral]
  | expression f outputName type => cases h

theorem OrderKey.literal_contents {k : OrderKey} (h : k.isPlain = true) :
    ∀ p ∈ k.contents, p.isNameOrLiteral = true := by
  obtain ⟨target, descending⟩ := k
  cases target with
  | raw sql => cases h
  | output name => simp [OrderKey.contents]
  | column c => simp [OrderKey.contents]

theorem Select.literal_contents {s : Select} (h : s.isPlain = true) (main : Table) :
    ∀ p ∈ s.contents main, p.isNameOrLiteral = true := by
  simp only [Select.isPlain, Bool.and_eq_true, List.all_eq_true] at h
  obtain ⟨⟨columns, filter⟩, keys⟩ := h
  simp only [Select.contents, List.forall_mem_append]
  refine ⟨⟨⟨⟨main.literal_names, ?_⟩, ?_⟩, literal_treeContents _ filter⟩, ?_⟩
  · exact forall_mem_flatMap fun c hc => c.literal_contents (columns c hc)
  · exact forall_mem_flatMap fun j _ => j.table.literal_names
  · exact forall_mem_flatMap fun k hk => k.literal_contents (keys k hk)

theorem SetValue.literal_default {table : Table} (h : table.isPlain = true) {c : Column}
    (hc : c ∈ table.columns) : ∀ p ∈ SetValue.default.contents c, p.isNameOrLiteral = true := by
  intro p hp
  obtain ⟨v, hv, rfl⟩ := List.mem_map.1 hp
  have declared := List.all_eq_true.1 h c hc
  rw [Option.mem_toList.1 hv, Option.all_some] at declared
  exact declared

theorem literal_assignmentContents {table : Table} (h : table.isPlain = true)
    {as : List Assignment} (has : as.all Assignment.isPlain = true) (fill : Bool)
    (skip : Column → Bool) :
    ∀ p ∈ assignmentContents table as fill skip, p.isNameOrLiteral = true := by
  rw [List.all_eq_true] at has
  simp only [assignmentContents, List.forall_mem_append]
  refine ⟨⟨table.literal_names, forall_mem_flatMap ?_⟩, ?_⟩
  · intro a ha
    refine forall_mem_flatMap fun c hc => ?_
    have member := List.mem_of_find?_eq_some (Option.mem_toList.1 hc)
    have plain := has a ha
    rw [Assignment.isPlain] at plain
    split at plain
    · cases plain
    · next other =>
      cases value : a.value with
      | fragment f => exact absurd value (other f)
      | param p => simp [SetValue.contents]
      | default => exact SetValue.literal_default h member
  · cases fill with
    | false => simp
    | true =>
      refine forall_mem_flatMap fun c hc => ?_
      exact SetValue.literal_default h (List.mem_filter.1 hc).1

theorem Task.literal_contents {table : Table} {task : Task} (h : task.isPlain table = true) :
    ∀ p ∈ task.contents table, p.isNameOrLiteral = true := by
  cases task with
  | select s => exact s.literal_contents h table
  | union u =>
    simp only [Task.isPlain, Union.isPlain, Bool.and_eq_true, List.all_eq_true] at h
    rw [Task.contents, Union.contents, List.forall_mem_append]
    refine ⟨forall_mem_flatMap ?_, forall_mem_flatMap ?_⟩
    · exact fun b hb => b.select.literal_contents (h.1 b hb) b.table
    · exact fun k hk => k.literal_contents (h.2 k hk)
  | insert i =>
    rw [Task.isPlain, Bool.and_eq_true] at h
    exact literal_assignmentContents h.1 h.2 _ _
  | update u =>
    rw [Task.isPlain, Bool.and_eq_true, Bool.and_eq_true] at h
    rw [Task.contents, List.forall_mem_append]
    exact ⟨literal_assignmentContents h.1.1 h.1.2 _ _, literal_treeContents _ h.2⟩
  | delete d =>
    rw [Task.contents, List.forall_mem_append]
    exact ⟨table.literal_names, literal_treeContents _ h⟩

theorem Action.literal_contents {a : Action} (h : a.isPlain = true) :
    ∀ p ∈ a.contents, p.isNameOrLiteral = true := by
  induction a with
  | perform name table task => exact Task.literal_contents h
  | wrap name table inner args ih => exact ih h

/-! ## Breaks -/

/-- Whether a piece is SQL that begins with a break. -/
def Piece.opens : Piece → Bool
  | .text s => s.toList.head?.any Token.breaks.contains
  | _ => false

/-- Whether a piece is SQL that ends with a break, or with the point behind a
    label. -/
def Piece.closes : Piece → Bool
  | .text s => s.toList.getLast?.any ('.' :: Token.breaks).contains
  | _ => false

/-- Two pieces that may be neighbours: a break lies between them, or the point
    that follows a label. -/
def Piece.Apart (p q : Piece) : Prop :=
  p.closes = true ∨ q.opens = true ∨ (∃ s, p = .name s) ∧ q = .text "."

/-- Every two neighbours are kept apart. -/
def Spaced (ps : List Piece) : Prop := ps.IsChain Piece.Apart

/-- The pieces are none, or begin with a break. -/
def StartsOpen (ps : List Piece) : Prop := ∀ p, ps.head? = some p → p.opens = true

theorem spaced_nil : Spaced [] := .nil

theorem spaced_singleton (p : Piece) : Spaced [p] := .singleton p

theorem startsOpen_nil : StartsOpen [] := by
  intro p hp
  cases hp

theorem startsOpen_cons {p : Piece} (h : p.opens = true) (ps : List Piece) :
    StartsOpen (p :: ps) := by
  intro q hq
  cases hq
  exact h

theorem startsOpen_append {ps qs : List Piece} (hps : StartsOpen ps) (hqs : StartsOpen qs) :
    StartsOpen (ps ++ qs) := by
  cases ps with
  | nil => exact hqs
  | cons p ps => exact startsOpen_cons (hps p rfl) _

theorem spaced_cons {p : Piece} (closes : p.closes = true) {ps : List Piece} (h : Spaced ps) :
    Spaced (p :: ps) :=
  List.isChain_cons.2 ⟨fun _ _ => .inl closes, h⟩

theorem spaced_append {ps qs : List Piece} (hps : Spaced ps) (hqs : Spaced qs)
    (open' : StartsOpen qs) : Spaced (ps ++ qs) :=
  List.isChain_append.2 ⟨hps, hqs, fun _ _ q hq => .inr (.inl (open' q hq))⟩

/-- Pieces on both sides of SQL that begins and ends with a break. -/
theorem spaced_append_cons {ps qs : List Piece} {p : Piece} (hps : Spaced ps) (hqs : Spaced qs)
    (opens : p.opens = true) (closes : p.closes = true) : Spaced (ps ++ p :: qs) :=
  spaced_append hps (spaced_cons closes hqs) (startsOpen_cons opens qs)

theorem spaced_intercalate {pss : List (List Piece)} (each : ∀ ps ∈ pss, Spaced ps) :
    Spaced (List.intercalate [.text ", "] pss) := by
  induction pss with
  | nil => exact spaced_nil
  | cons ps pss ih =>
    rw [List.forall_mem_cons] at each
    cases pss with
    | nil => simpa using each.1
    | cons qs pss =>
      rw [List.intercalate_cons_cons, List.append_assoc]
      exact spaced_append_cons each.1 (ih each.2) (by decide) (by decide)

/-! ## Filters -/

variable {s : Scope}

theorem spaced_columnPieces {c : ColumnRef} {ps : List Piece} (h : s.columnPieces c = .ok ps) :
    Spaced ps := by
  obtain ⟨seat, column, -, -, rfl⟩ := Scope.columnPieces_eq_ok_iff.1 h
  split
  · refine List.isChain_cons.2 ⟨?_, spaced_cons (by decide) (spaced_singleton _)⟩
    rintro q ⟨⟩
    exact .inr (.inr ⟨⟨_, rfl⟩, rfl⟩)
  · exact spaced_singleton _

theorem Operand.spaced_write {x : Operand} {ps : List Piece} (h : (x.write s).Yields () ps) :
    Spaced ps := by
  cases x with
  | column c => exact spaced_columnPieces (Scope.yields_writeColumn.1 h)
  | param p =>
    rw [Param.yields_write.1 h]
    exact spaced_singleton _
  | literal v =>
    rw [Draft.yields_write.1 h]
    exact spaced_singleton _
  | raw sql =>
    rw [Draft.yields_write.1 h]
    exact spaced_singleton _

theorem spaced_writeRight {right : Option Operand} {ps : List Piece}
    (h : (writeRight s right).Yields () ps) : Spaced ps ∧ StartsOpen ps := by
  cases right with
  | none =>
    obtain ⟨-, rfl⟩ := Draft.yields_pure.1 h
    exact ⟨spaced_nil, startsOpen_nil⟩
  | some x =>
    obtain ⟨behind, hx, rfl⟩ := Draft.yields_write_bind.1 h
    exact ⟨spaced_cons (by decide) (Operand.spaced_write hx), startsOpen_cons (by decide) _⟩

theorem opens_connective (connective : Connective) :
    (Piece.text connective.sql).opens = true ∧ (Piece.text connective.sql).closes = true := by
  cases connective <;> decide

mutual

theorem Condition.spaced_write (c : Condition) (plain : c.isPlain = true) {ps : List Piece}
    (h : (c.write s).Yields () ps) : Spaced ps := by
  match c with
  | .compare left op right =>
    rw [Condition.write] at h
    obtain ⟨before, hleft, _, h₁, rfl⟩ := Draft.yields_bind_unit.1 h
    obtain ⟨behind, hright, rfl⟩ := Draft.yields_write_bind.1 h₁
    obtain ⟨right_spaced, right_open⟩ := spaced_writeRight hright
    have operator : Spaced ([.text op.sql] ++ behind) :=
      spaced_append (spaced_singleton _) right_spaced right_open
    exact spaced_append_cons (Operand.spaced_write hleft) operator (by decide) (by decide)
  | .fragment f => cases plain
  | .group connective conditions =>
    rw [Condition.write] at h
    rw [Condition.isPlain] at plain
    obtain ⟨_, h₁, rfl⟩ := Draft.yields_write_bind.1 h
    obtain ⟨inner, hinner, _, hclose, rfl⟩ := Draft.yields_bind_unit.1 h₁
    rw [Draft.yields_write.1 hclose]
    refine spaced_cons (by decide) (spaced_append_cons ?_ spaced_nil (by decide) (by decide))
    exact spaced_writeConditions conditions plain hinner

theorem spaced_writeConditions {connective : Connective} (cs : List Condition)
    (plain : isPlainTree cs = true) {ps : List Piece}
    (h : (writeConditions s connective cs).Yields () ps) : Spaced ps := by
  match cs with
  | [] =>
    rw [writeConditions] at h
    obtain ⟨-, rfl⟩ := Draft.yields_pure.1 h
    exact spaced_nil
  | [c] =>
    rw [writeConditions] at h
    rw [isPlainTree, Bool.and_eq_true] at plain
    exact c.spaced_write plain.1 h
  | c :: d :: rest =>
    rw [writeConditions] at h
    rw [isPlainTree, Bool.and_eq_true] at plain
    obtain ⟨before, hc, _, h₁, rfl⟩ := Draft.yields_bind_unit.1 h
    obtain ⟨behind, hrest, rfl⟩ := Draft.yields_write_bind.1 h₁
    obtain ⟨opens, closes⟩ := opens_connective connective
    refine spaced_append_cons (c.spaced_write plain.1 hc) ?_ opens closes
    exact spaced_writeConditions (d :: rest) plain.2 hrest

end

theorem Filter.spaced_write {f : Filter} (plain : isPlainTree f.conditions = true)
    {ps : List Piece} (h : (f.write s).Yields () ps) : Spaced ps ∧ StartsOpen ps := by
  rcases Filter.yields_write.1 h with ⟨-, rfl⟩ | ⟨-, tree, htree, rfl⟩
  · exact ⟨spaced_nil, startsOpen_nil⟩
  · refine ⟨spaced_cons (by decide) ?_, startsOpen_cons (by decide) _⟩
    exact spaced_writeConditions _ plain htree

/-! ## Selects and unions -/

/-- An output whose expression is spaced. -/
def Output.Spaced (o : Output) : Prop := Bindery.Spaced o.expression

theorem Output.spaced_item {o : Output} (h : o.Spaced) : Bindery.Spaced o.item := by
  rw [Output.item]
  split
  · exact spaced_append_cons h (spaced_singleton _) (by decide) (by decide)
  · exact h

theorem SelectColumn.spaced_output {naming : Naming} {names names' : Name.Allocator}
    {c : SelectColumn} (plain : c.isPlain = true) {o : Output}
    (h : c.output s naming names = .ok (o, names')) : o.Spaced := by
  cases c with
  | column c outputName =>
    obtain ⟨_, _, -, hpieces, -⟩ := columnOutput_eq_ok h
    exact spaced_columnPieces hpieces
  | expression f outputName type => cases plain

theorem spaced_writeSelectList {naming : Naming} {names : Name.Allocator}
    {columns : List SelectColumn} (plain : columns.all SelectColumn.isPlain = true)
    {outputs : List Output} {ps : List Piece}
    (h : (writeSelectList s naming names columns).Yields outputs ps) :
    (∀ o ∈ outputs, o.Spaced) ∧ Spaced ps := by
  induction columns generalizing names outputs ps with
  | nil =>
    obtain ⟨rfl, rfl⟩ := Draft.yields_pure.1 h
    exact ⟨by simp, spaced_nil⟩
  | cons c rest ih =>
    rw [List.all_cons, Bool.and_eq_true] at plain
    obtain ⟨o, names', later, tail, houtput, hrest, rfl, rfl⟩ := yields_writeSelectList_cons h
    have ho := c.spaced_output plain.1 houtput
    obtain ⟨hlater, htail⟩ := ih plain.2 hrest
    refine ⟨List.forall_mem_cons.2 ⟨ho, hlater⟩, ?_⟩
    cases rest with
    | nil =>
      obtain ⟨-, rfl⟩ := Draft.yields_pure.1 hrest
      simpa using o.spaced_item ho
    | cons c' rest =>
      simp only [reduceCtorEq, ↓reduceIte, List.append_assoc]
      exact spaced_append_cons (o.spaced_item ho) htail (by decide) (by decide)

theorem spaced_writeJoins {index : Nat} {joins : List Join} {ps : List Piece}
    (h : (writeJoins s index joins).Yields () ps) : Spaced ps ∧ StartsOpen ps := by
  induction joins generalizing index ps with
  | nil =>
    obtain ⟨-, rfl⟩ := Draft.yields_pure.1 h
    exact ⟨spaced_nil, startsOpen_nil⟩
  | cons j rest ih =>
    obtain ⟨before, hjoin, behind, hrest, rfl⟩ := Draft.yields_bind_unit.1 h
    obtain ⟨seat, key, base, -, hkey, hbase, rfl⟩ := Join.yields_write hjoin
    obtain ⟨rest_spaced, rest_open⟩ := ih hrest
    have condition : Spaced (key ++ .text " = " :: base) :=
      spaced_append_cons (spaced_columnPieces hkey) (spaced_columnPieces hbase) (by decide)
        (by decide)
    have label : Spaced ([.name seat.label] ++ .text " ON " :: (key ++ .text " = " :: base)) :=
      spaced_append_cons (spaced_singleton _) condition (by decide) (by decide)
    have table := spaced_append_cons (spaced_singleton (.name j.table.sqlName)) label
      (show (Piece.text " AS ").opens = true by decide) (by decide)
    have kind := spaced_append_cons (spaced_singleton (.text j.kind.sql)) table
      (show (Piece.text " ").opens = true by decide) (by decide)
    have all := spaced_cons (show (Piece.text " ").closes = true by decide) kind
    constructor
    · simpa using spaced_append all rest_spaced rest_open
    · exact startsOpen_append (startsOpen_cons (by decide) _) rest_open

theorem Select.spaced_writeTables {main : Table} {select : Select} {ps : List Piece}
    (h : (select.writeTables s main).Yields () ps) : Spaced ps ∧ StartsOpen ps := by
  obtain ⟨joins, hjoins, rfl⟩ := Select.yields_writeTables.1 h
  obtain ⟨joins_spaced, joins_open⟩ := spaced_writeJoins hjoins
  have from_spaced : Spaced [.text " FROM ", .name main.sqlName] :=
    spaced_cons (by decide) (spaced_singleton _)
  constructor
  · refine spaced_append ?_ joins_spaced joins_open
    split
    · exact spaced_append_cons from_spaced (spaced_singleton _) (by decide) (by decide)
    · simpa using from_spaced
  · exact startsOpen_cons (by decide) _

theorem OrderKey.spaced_write {outputs : List Output} (houtputs : ∀ o ∈ outputs, o.Spaced)
    {scope : OrderScope} {k : OrderKey} {ps : List Piece}
    (h : (k.write outputs scope).Yields () ps) : Spaced ps := by
  obtain ⟨target, htarget, rfl⟩ := OrderKey.yields_write.1 h
  have target_spaced : Spaced target := by
    rcases OrderTarget.yields_write htarget with ⟨name, o, -, found, key⟩ |
      ⟨c, s, -, -, hcolumn⟩ | ⟨c, o, -, -, -, rfl⟩ | ⟨sql, -, rfl⟩
    · rcases key with ⟨-, rfl⟩ | ⟨-, -, rfl⟩
      · exact spaced_singleton _
      · exact houtputs o (mem_of_findOutput? found)
    · exact spaced_columnPieces hcolumn
    · exact spaced_singleton _
    · exact spaced_singleton _
  split
  · exact spaced_append target_spaced (spaced_singleton _) (startsOpen_cons (by decide) _)
  · simpa using target_spaced

theorem spaced_writeOrder {outputs : List Output} (houtputs : ∀ o ∈ outputs, o.Spaced)
    {scope : OrderScope} {keys : List OrderKey} {ps : List Piece}
    (h : (writeOrder outputs scope keys).Yields () ps) : Spaced ps ∧ StartsOpen ps := by
  rcases yields_writeOrder.1 h with ⟨-, rfl⟩ | ⟨-, pss, hkeys, rfl⟩
  · exact ⟨spaced_nil, startsOpen_nil⟩
  · refine ⟨spaced_cons (by decide) (spaced_intercalate ?_), startsOpen_cons (by decide) _⟩
    exact forall_of_forall₂ (fun k _ ps hk => OrderKey.spaced_write houtputs hk) hkeys

theorem spaced_writePage {paginated : Bool} {ps : List Piece}
    (h : (writePage paginated).Yields () ps) : Spaced ps ∧ StartsOpen ps := by
  rw [yields_writePage.1 h]
  split
  · refine ⟨spaced_cons (by decide) ?_, startsOpen_cons (by decide) _⟩
    exact spaced_append_cons (spaced_singleton _) (spaced_singleton _) (by decide) (by decide)
  · exact ⟨spaced_nil, startsOpen_nil⟩

/-- Without columns of its own a select lists columns of its table. -/
theorem Select.isPlain_effectiveColumns {select : Select}
    (h : select.columns.all SelectColumn.isPlain = true) (main : Table) :
    (select.effectiveColumns main).all SelectColumn.isPlain = true := by
  rw [Select.effectiveColumns]
  split
  · simp [SelectColumn.isPlain]
  · exact h

theorem Select.spaced_write {naming : Naming} {main : Table} {select : Select}
    (plain : select.isPlain = true) {outputs : List Output} {ps : List Piece}
    (h : (select.write naming main).Yields outputs ps) :
    (∀ o ∈ outputs, o.Spaced) ∧ Spaced ps := by
  obtain ⟨scope, list, tables, filter, order, page, -, -, hlist, htables, hfilter, horder, hpage,
    rfl⟩ := Select.yields_write h
  rw [Select.isPlain, Bool.and_eq_true, Bool.and_eq_true] at plain
  obtain ⟨houtputs, hlist⟩ :=
    spaced_writeSelectList (select.isPlain_effectiveColumns plain.1.1 main) hlist
  obtain ⟨tables_spaced, tables_open⟩ := Select.spaced_writeTables htables
  obtain ⟨filter_spaced, filter_open⟩ := Filter.spaced_write plain.1.2 hfilter
  obtain ⟨order_spaced, order_open⟩ := spaced_writeOrder houtputs horder
  obtain ⟨page_spaced, page_open⟩ := spaced_writePage hpage
  refine ⟨houtputs, ?_⟩
  have list_spaced : Spaced ([.text "SELECT "] ++ list) := spaced_cons (by decide) hlist
  have body := spaced_append list_spaced tables_spaced tables_open
  have filtered := spaced_append body filter_spaced filter_open
  have ordered := spaced_append filtered order_spaced order_open
  exact spaced_append ordered page_spaced page_open

theorem UnionBranch.spaced_write {naming : Naming} {b : UnionBranch}
    (plain : b.select.isPlain = true) {outputs : List Output} {ps : List Piece}
    (h : (b.write naming).Yields outputs ps) : (∀ o ∈ outputs, o.Spaced) ∧ Spaced ps := by
  obtain ⟨inner, hinner, rfl⟩ := UnionBranch.yields_write h
  obtain ⟨houtputs, hinner⟩ := Select.spaced_write plain hinner
  refine ⟨houtputs, ?_⟩
  exact spaced_append_cons (spaced_cons (by decide) hinner) spaced_nil (by decide) (by decide)

theorem spaced_zipWith_merge {outputs later : List Output} (h : ∀ o ∈ outputs, o.Spaced) :
    ∀ o ∈ List.zipWith Output.merge outputs later, o.Spaced := by
  intro o ho
  obtain ⟨i, hi, rfl⟩ := List.mem_iff_getElem.1 ho
  rw [List.getElem_zipWith]
  have inside : i < outputs.length := by
    rw [List.length_zipWith] at hi
    omega
  exact h outputs[i] (List.getElem_mem inside)

theorem spaced_writeBranches {naming : Naming} {bs : List (UnionMode × UnionBranch)}
    (plain : ∀ b ∈ bs, b.2.select.isPlain = true) {outputs outputs' : List Output}
    (houtputs : ∀ o ∈ outputs, o.Spaced) {number : Nat} {ps : List Piece}
    (h : (writeBranches naming outputs number bs).Yields outputs' ps) :
    (∀ o ∈ outputs', o.Spaced) ∧ Spaced ps ∧ StartsOpen ps := by
  induction bs generalizing outputs number ps with
  | nil =>
    obtain ⟨rfl, rfl⟩ := Draft.yields_pure.1 h
    exact ⟨houtputs, spaced_nil, startsOpen_nil⟩
  | cons mb rest ih =>
    obtain ⟨mode, b⟩ := mb
    obtain ⟨later, branch, tail, hbranch, -, htail, rfl⟩ := yields_writeBranches_cons h
    rw [List.forall_mem_cons] at plain
    obtain ⟨-, branch_spaced⟩ := UnionBranch.spaced_write plain.1 hbranch
    obtain ⟨outputs_spaced, tail_spaced, tail_open⟩ :=
      ih plain.2 (spaced_zipWith_merge houtputs) htail
    have joined : Spaced ([.text mode.sql] ++ .text " " :: branch) :=
      spaced_append_cons (spaced_singleton _) branch_spaced (by decide) (by decide)
    have all := spaced_cons (show (Piece.text " ").closes = true by decide) joined
    refine ⟨outputs_spaced, ?_, startsOpen_cons (by decide) _⟩
    simpa using spaced_append all tail_spaced tail_open

theorem Union.spaced_write {naming : Naming} {u : Union} (plain : u.isPlain = true)
    {outputs : List Output} {ps : List Piece} (h : (u.write naming).Yields outputs ps) :
    Spaced ps := by
  obtain ⟨first, later, head, branch, branches, order, page, hsplit, hbranch, hbranches, -, horder,
    hpage, rfl⟩ := Union.yields_write h
  obtain ⟨all, -, -⟩ := Union.split_eq_ok hsplit
  rw [Union.isPlain, Bool.and_eq_true, List.all_eq_true, all, List.forall_mem_cons,
    List.forall_mem_map] at plain
  obtain ⟨head_spaced, branch_spaced⟩ := UnionBranch.spaced_write plain.1.1 hbranch
  obtain ⟨outputs_spaced, branches_spaced, branches_open⟩ :=
    spaced_writeBranches plain.1.2 head_spaced hbranches
  obtain ⟨order_spaced, order_open⟩ := spaced_writeOrder outputs_spaced horder
  obtain ⟨page_spaced, page_open⟩ := spaced_writePage hpage
  have body := spaced_append branch_spaced branches_spaced branches_open
  have ordered := spaced_append body order_spaced order_open
  exact spaced_append ordered page_spaced page_open

/-! ## Writes -/

/-- The columns of plain assignments are not set to fragments. -/
theorem targets_ne_fragment {table : Table} {as : List Assignment}
    (plain : as.all Assignment.isPlain = true) {fill : Bool} {skip : Column → Bool}
    {ts : List Target} (h : targets table as fill skip = .ok ts) :
    ∀ t ∈ ts, ∀ f, t.value ≠ .fragment f := by
  obtain ⟨assigned, each, rfl, -⟩ := targets_eq_ok h
  rw [List.forall_mem_append]
  constructor
  · clear h
    induction each with
    | nil => simp
    | cons ht _ ih =>
      rw [List.all_cons, Bool.and_eq_true] at plain
      rw [List.forall_mem_cons]
      refine ⟨?_, ih plain.2⟩
      intro f value
      rw [ht.2] at value
      rw [Assignment.isPlain, value] at plain
      cases plain.1
  · split
    · intro t ht f
      obtain ⟨c, -, rfl⟩ := List.mem_map.1 ht
      simp
    · simp

theorem Target.spaced_writeValue {t : Target} (plain : ∀ f, t.value ≠ .fragment f)
    {ps : List Piece} (h : (t.writeValue s).Yields () ps) : Spaced ps := by
  rcases Target.yields_writeValue h with ⟨p, -, rfl⟩ | ⟨f, value, -⟩ | ⟨v, -, -, rfl⟩
  · exact spaced_singleton _
  · exact absurd value (plain f)
  · exact spaced_singleton _

theorem Insert.spaced_write {table : Table} {i : Insert}
    (plain : i.assignments.all Assignment.isPlain = true) {ts : List Target} {ps : List Piece}
    (h : (i.write table).Yields ts ps) : Spaced ps := by
  obtain ⟨scope, names, values, -, htargets, hnames, hvalues, rfl⟩ := Insert.yields_write h
  have plain_targets := targets_ne_fragment plain htargets
  have names_spaced : Spaced (List.intercalate [.text ", "] names) := by
    refine spaced_intercalate (forall_of_forall₂ ?_ hnames)
    rintro t - _ rfl
    exact spaced_singleton _
  have values_spaced : Spaced (List.intercalate [.text ", "] values) :=
    spaced_intercalate (forall_of_forall₂
      (fun t ht ps hps => t.spaced_writeValue (plain_targets t ht) hps) hvalues)
  have table_spaced := spaced_cons (show (Piece.text "INSERT INTO ").closes = true by decide)
    (spaced_singleton (.name table.sqlName))
  have columns := spaced_append_cons table_spaced names_spaced
    (show (Piece.text " (").opens = true by decide) (by decide)
  have row := spaced_append_cons columns values_spaced
    (show (Piece.text ") VALUES (").opens = true by decide) (by decide)
  have all := spaced_append_cons row spaced_nil (show (Piece.text ")").opens = true by decide)
    (by decide)
  simpa using all

theorem Update.spaced_write {table : Table} {u : Update}
    (plain : u.assignments.all Assignment.isPlain = true)
    (plain_filter : isPlainTree u.filter.conditions = true) {ts : List Target} {ps : List Piece}
    (h : (u.write table).Yields ts ps) : Spaced ps := by
  obtain ⟨scope, sets, filter, -, -, htargets, hsets, hfilter, rfl⟩ := Update.yields_write h
  have plain_targets := targets_ne_fragment plain htargets
  have each : ∀ t ∈ ts, ∀ ps, (t.writeAssignment scope).Yields () ps → Spaced ps := by
    intro t ht ps hps
    obtain ⟨column, value, hcolumn, hvalue, rfl⟩ := Target.yields_writeAssignment hps
    rw [List.append_assoc]
    exact spaced_append_cons (spaced_columnPieces hcolumn)
      (t.spaced_writeValue (plain_targets t ht) hvalue) (by decide) (by decide)
  have sets_spaced := spaced_intercalate (forall_of_forall₂ each hsets)
  obtain ⟨filter_spaced, filter_open⟩ := Filter.spaced_write plain_filter hfilter
  have table_spaced := spaced_cons (show (Piece.text "UPDATE ").closes = true by decide)
    (spaced_singleton (.name table.sqlName))
  have body := spaced_append_cons table_spaced sets_spaced
    (show (Piece.text " SET ").opens = true by decide) (by decide)
  simpa using spaced_append body filter_spaced filter_open

theorem Delete.spaced_write {table : Table} {d : Delete}
    (plain : isPlainTree d.filter.conditions = true) {ps : List Piece}
    (h : (d.write table).Yields () ps) : Spaced ps := by
  obtain ⟨scope, filter, -, -, hfilter, rfl⟩ := Delete.yields_write h
  obtain ⟨filter_spaced, filter_open⟩ := Filter.spaced_write plain hfilter
  have table_spaced := spaced_cons (show (Piece.text "DELETE FROM ").closes = true by decide)
    (spaced_singleton (.name table.sqlName))
  exact spaced_append table_spaced filter_spaced filter_open

/-! ## Actions -/

theorem Task.spaced_prepare {naming : Naming} {table : Table} {task : Task}
    (plain : task.isPlain table = true) {kind : ActionKind} {statement : Statement}
    {shape : Option Shape} (h : task.prepare naming table = .ok (kind, statement, shape)) :
    Spaced statement.pieces := by
  have hwrite := Task.yields_of_prepare h
  cases task with
  | select s =>
    obtain ⟨outputs, hwrite⟩ := hwrite
    exact (Select.spaced_write plain hwrite).2
  | union u =>
    obtain ⟨outputs, hwrite⟩ := hwrite
    exact Union.spaced_write plain hwrite
  | insert i =>
    obtain ⟨ts, hwrite⟩ := hwrite
    rw [Task.isPlain, Bool.and_eq_true] at plain
    exact Insert.spaced_write plain.2 hwrite
  | update u =>
    obtain ⟨ts, hwrite⟩ := hwrite
    rw [Task.isPlain, Bool.and_eq_true, Bool.and_eq_true] at plain
    exact Update.spaced_write plain.1.2 plain.2 hwrite
  | delete d => exact Delete.spaced_write plain hwrite

/-- Any two neighbours in the statement of a plain action are kept apart. -/
theorem Action.spaced_prepare {naming : Naming} {a : Action} (plain : a.isPlain = true)
    {p : Prepared} (h : a.prepare naming = .ok p) : Spaced p.statement.pieces := by
  induction a generalizing p with
  | perform name table task =>
    exact Task.spaced_prepare plain (Action.prepare_perform_eq_ok h).1
  | wrap name table inner args ih =>
    obtain ⟨q, hinner, statement_eq, -⟩ := Action.prepare_wrap_eq_ok h
    rw [statement_eq]
    exact ih plain hinner

end Bindery
