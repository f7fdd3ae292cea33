import Bindery.Proofs.Name.Allocator
import Bindery.Proofs.Statement.Placeholders

/-!
# Layout of statements that return rows

A row is decoded by position, and an order refers to outputs by name. Both are
right because the select list of the statement has one entry for each field, and
every entry shows the name of its field: behind `AS`, or as the entry itself.

* `Statement.selectItems`: the entries of the select list, read off the pieces.
* `Statement.ListedIn`: the SQL that shows these entries.
* `Output.Legible`: an output without `AS` is the name of its column, which is its
  own.
* `Action.layout_compile`: fields, entries and order keys of a compiled action.
-/

namespace Bindery

open Name (Allocator)

/-! ## Outputs -/

/-- The name that is requested for an entry of a select list: one of its own, or
    else the one derived for its column. -/
def SelectColumn.baseName? (s : Scope) (naming : Naming) : SelectColumn → Option String
  | .column c none => (s.outputName naming c).toOption
  | .column _ (some name) => some name
  | .expression _ name _ => some name

theorem SelectColumn.allocate_of_output {s : Scope} {naming : Naming} {names names' : Allocator}
    {c : SelectColumn} {o : Output} (h : c.output s naming names = .ok (o, names')) :
    ∃ base, c.baseName? s naming = some base ∧ o.name = (names.allocate base).1.1 ∧
      names' = (names.allocate base).2 := by
  cases c with
  | column c outputName =>
    obtain ⟨_, base, -, -, hbase, -, allocated, -⟩ := columnOutput_eq_ok h
    refine ⟨base, ?_, by rw [allocated], by rw [allocated]⟩
    rcases hbase with rfl | ⟨rfl, derived⟩
    · rfl
    · rw [baseName?, derived]
      rfl
  | expression f outputName type =>
    obtain ⟨-, -, -, -, -, allocated⟩ := expressionOutput_eq_ok h
    exact ⟨outputName, rfl, by rw [allocated], by rw [allocated]⟩

/-- The outputs of a select list have the names that an allocator hands out for
    them. -/
theorem names_writeSelectList {s : Scope} {naming : Naming} {names : Allocator}
    {cs : List SelectColumn} {outputs : List Output} {ps : List Piece}
    (h : (writeSelectList s naming names cs).Yields outputs ps) :
    outputs.map (·.name) = names.allocateAll (cs.filterMap (·.baseName? s naming)) := by
  induction cs generalizing names outputs ps with
  | nil =>
    obtain ⟨rfl, -⟩ := Draft.yields_pure.1 h
    rfl
  | cons c rest ih =>
    obtain ⟨o, names', later, tail, houtput, hrest, rfl, -⟩ := yields_writeSelectList_cons h
    obtain ⟨base, hbase, hname, rfl⟩ := c.allocate_of_output houtput
    rw [List.filterMap_cons_some hbase, Allocator.allocateAll, List.map_cons, hname, ih hrest]

theorem length_writeSelectList {s : Scope} {naming : Naming} {names : Allocator}
    {cs : List SelectColumn} {outputs : List Output} {ps : List Piece}
    (h : (writeSelectList s naming names cs).Yields outputs ps) : outputs.length = cs.length := by
  induction cs generalizing names outputs ps with
  | nil =>
    obtain ⟨rfl, -⟩ := Draft.yields_pure.1 h
    rfl
  | cons c rest ih =>
    obtain ⟨o, names', later, tail, -, hrest, rfl, -⟩ := yields_writeSelectList_cons h
    rw [List.length_cons, List.length_cons, ih hrest]

/-- The expression of an output has no SQL of the compiler but the dot, so that it
    is told apart from the list around it; without `AS` it is the name of the
    output. -/
structure Output.Legible (o : Output) : Prop where
  words : ∀ w, Piece.text w ∈ o.expression → w = "."
  unnamed : o.named = false → o.expression = [.name o.name]

theorem words_columnPieces {s : Scope} {c : ColumnRef} {ps : List Piece}
    (h : s.columnPieces c = .ok ps) {w : String} (member : Piece.text w ∈ ps) : w = "." := by
  obtain ⟨seat, column, -, -, rfl⟩ := Scope.columnPieces_eq_ok_iff.1 h
  split at member
  · simpa using member
  · simp at member

theorem words_writeParts {s : Scope} {parts : List FragmentPart} {ps : List Piece}
    (h : (writeParts s parts).Yields () ps) {w : String} (member : Piece.text w ∈ ps) :
    w = "." := by
  induction parts generalizing ps with
  | nil =>
    obtain ⟨-, rfl⟩ := Draft.yields_pure.1 h
    cases member
  | cons part rest ih =>
    obtain ⟨before, hpart, behind, hrest, rfl⟩ := Draft.yields_bind_unit.1 h
    rcases List.mem_append.1 member with member | member
    · cases part with
      | raw sql => simp [Draft.yields_write.1 hpart] at member
      | column c => exact words_columnPieces (Scope.yields_writeColumn.1 hpart) member
      | param p => simp [Param.yields_write.1 hpart] at member
    · exact ih hrest member

/-- A column that is not named is written alone, under the name its output has. -/
theorem columnOutput_unnamed {s : Scope} {naming : Naming} {names names' : Allocator}
    {c : ColumnRef} {outputName : Option String} {o : Output}
    (h : columnOutput s naming names c outputName = .ok (o, names')) (unnamed : o.named = false) :
    o.expression = [.name o.name] := by
  obtain ⟨column, base, hcolumn, hpieces, -, -, -, named, -, -⟩ := columnOutput_eq_ok h
  obtain ⟨seat, column', hseat, hcolumn', expression⟩ := Scope.columnPieces_eq_ok_iff.1 hpieces
  obtain ⟨seat', hseat', hcolumn⟩ := bind_eq_ok_iff.1 hcolumn
  rw [hseat] at hseat'
  cases hseat'
  rw [hcolumn'] at hcolumn
  cases hcolumn
  rw [unnamed] at named
  -- no reason to name the output applies: there are no joins, and the name is the column's
  simp only [Bool.false_eq, Bool.or_eq_false_iff, bne_eq_false_iff_eq] at named
  obtain ⟨⟨⟨alone, -⟩, -⟩, name_eq⟩ := named
  rw [expression, alone, name_eq]
  rfl

theorem SelectColumn.legible_of_output {s : Scope} {naming : Naming} {names names' : Allocator}
    {c : SelectColumn} {o : Output} (h : c.output s naming names = .ok (o, names')) :
    o.Legible := by
  cases c with
  | column c outputName =>
    obtain ⟨_, _, -, hpieces, -⟩ := columnOutput_eq_ok h
    exact ⟨fun _ => words_columnPieces hpieces, columnOutput_unnamed h⟩
  | expression f outputName type =>
    obtain ⟨-, hwrite, named, -⟩ := expressionOutput_eq_ok h
    exact ⟨fun _ => words_writeParts hwrite, fun unnamed => by rw [named] at unnamed; cases unnamed⟩

/-- A select list is its entries, separated. -/
theorem writeSelectList_eq {s : Scope} {naming : Naming} {names : Allocator}
    {cs : List SelectColumn} {outputs : List Output} {ps : List Piece}
    (h : (writeSelectList s naming names cs).Yields outputs ps) :
    ps = List.intercalate [.text ", "] (outputs.map Output.item) ∧ ∀ o ∈ outputs, o.Legible := by
  induction cs generalizing names outputs ps with
  | nil =>
    obtain ⟨rfl, rfl⟩ := Draft.yields_pure.1 h
    exact ⟨rfl, by simp⟩
  | cons c rest ih =>
    obtain ⟨o, names', later, tail, houtput, hrest, rfl, rfl⟩ := yields_writeSelectList_cons h
    obtain ⟨rfl, legible⟩ := ih hrest
    have count := length_writeSelectList hrest
    refine ⟨?_, List.forall_mem_cons.2 ⟨c.legible_of_output houtput, legible⟩⟩
    cases rest with
    | nil =>
      obtain rfl := List.length_eq_zero_iff.1 count
      simp
    | cons c' rest =>
      obtain ⟨o', later, rfl⟩ := List.exists_cons_of_length_eq_add_one count
      simp [List.intercalate_cons_cons]

/-! ## The select list of a statement -/

/-- The entries of the select list of a statement, which is the first one of a
    union. -/
def Statement.selectItems (s : Statement) : List (List Piece) :=
  (((s.pieces.dropWhile (· != .text "SELECT ")).drop 1).takeWhile (· != .text " FROM ")).splitOn
    (.text ", ")

/-- An entry of a select list shows a field: under its name, or as its name. -/
def Field.ShownBy (d : Dialect) (f : Field) (item : List Piece) : Prop :=
  (∃ expression, item = expression ++ [.text " AS ", .name f.name] ∧
    piecesSql d item = d.asAlias (piecesSql d expression) f.name) ∨
  item = [.name f.name] ∧ piecesSql d item = d.quote f.name

theorem Output.Legible.words_item {o : Output} (h : o.Legible) {w : String}
    (member : Piece.text w ∈ o.item) : w = "." ∨ w = " AS " := by
  rw [Output.item] at member
  split at member
  · simp only [List.mem_append, List.mem_cons, Piece.text.injEq, reduceCtorEq, List.not_mem_nil,
      or_false] at member
    exact member.imp_left (h.words w)
  · exact .inl (h.words w member)

theorem Output.Legible.shownBy_item {o : Output} (h : o.Legible) (d : Dialect) :
    o.field.ShownBy d o.item := by
  cases named : o.named with
  | true =>
    refine .inl ⟨o.expression, by simp [Output.item, named, Output.field], ?_⟩
    simp [Output.item, named, Output.field, piecesSql, Piece.sql, Dialect.asAlias,
      String.append_assoc]
  | false =>
    have item : o.item = [.name o.name] := by simp [Output.item, named, h.unnamed named]
    exact .inr ⟨item, by simp [item, piecesSql, Piece.sql, Output.field]⟩

/-- No entry of a select list reaches beyond the list. -/
theorem bne_from_of_mem_list {outputs : List Output} (legible : ∀ o ∈ outputs, o.Legible) :
    ∀ p ∈ List.intercalate [.text ", "] (outputs.map Output.item),
      (p != Piece.text " FROM ") = true := by
  intro p hp
  rw [bne_iff_ne]
  rintro rfl
  rcases mem_of_mem_intercalate hp with comma | ⟨item, hitem, word⟩
  · revert comma
    decide
  · obtain ⟨o, ho, rfl⟩ := List.mem_map.1 hitem
    rcases (legible o ho).words_item word with h | h <;> revert h <;> decide

/-- A list that is written behind `SELECT` and in front of `FROM` is read back. -/
theorem Statement.selectItems_eq {s : Statement} {lead rest : List Piece} {outputs : List Output}
    (first : ∀ p ∈ lead, p ≠ .text "SELECT ") (nonempty : outputs ≠ [])
    (legible : ∀ o ∈ outputs, o.Legible)
    (pieces : s.pieces = lead ++ .text "SELECT " ::
      (List.intercalate [.text ", "] (outputs.map Output.item) ++ .text " FROM " :: rest)) :
    s.selectItems = outputs.map Output.item := by
  have apart : ∀ item ∈ outputs.map Output.item, Piece.text ", " ∉ item := by
    intro item hitem comma
    obtain ⟨o, ho, rfl⟩ := List.mem_map.1 hitem
    rcases (legible o ho).words_item comma with h | h <;> revert h <;> decide
  have skipped : ∀ p ∈ lead, (p != Piece.text "SELECT ") = true := by simpa using first
  rw [selectItems, pieces, List.dropWhile_append_of_pos skipped]
  simp only [List.dropWhile_cons, bne_self_eq_false, Bool.false_eq_true, ↓reduceIte, List.drop_one,
    List.tail_cons]
  rw [List.takeWhile_append_of_pos (bne_from_of_mem_list legible)]
  simp only [List.takeWhile_cons, bne_self_eq_false, Bool.false_eq_true, ↓reduceIte,
    List.append_nil]
  exact List.splitOn_intercalate _ apart (by simpa using nonempty)

/-- SQL shows the select list of a statement: its entries stand behind `SELECT` and in front
    of `FROM`, with commas between them. Nothing comes before, or the parenthesis of the
    first branch of a union. -/
def Statement.ListedIn (d : Dialect) (s : Statement) (sql : String) : Prop :=
  ∃ lead rest, (lead = "" ∨ lead = "(") ∧
    sql = lead ++ "SELECT " ++ String.intercalate ", " (s.selectItems.map (piecesSql d)) ++
      " FROM " ++ rest

/-- A list that is written behind `SELECT` and in front of `FROM` is shown by the SQL. -/
theorem Statement.listedIn_sql {s : Statement} {lead rest : List Piece} {outputs : List Output}
    (first : lead = [] ∨ lead = [.text "("]) (nonempty : outputs ≠ [])
    (legible : ∀ o ∈ outputs, o.Legible)
    (pieces : s.pieces = lead ++ .text "SELECT " ::
      (List.intercalate [.text ", "] (outputs.map Output.item) ++ .text " FROM " :: rest))
    (d : Dialect) : s.ListedIn d (s.sql d) := by
  have skipped : ∀ p ∈ lead, p ≠ .text "SELECT " := by
    rcases first with rfl | rfl <;> decide
  refine ⟨piecesSql d lead, piecesSql d rest, first.imp ?_ ?_, ?_⟩
  · rintro rfl
    rfl
  · rintro rfl
    exact piecesSql_singleton _
  · have parts : s.sql d = piecesSql d (lead ++ ([.text "SELECT "] ++
        (List.intercalate [.text ", "] (outputs.map Output.item) ++ ([.text " FROM "] ++ rest)))) :=
      congrArg (piecesSql d) pieces
    rw [parts, selectItems_eq skipped nonempty legible pieces]
    simp only [piecesSql_append, piecesSql_singleton, piecesSql_intercalate, Piece.sql,
      String.append_assoc]

/-! ## Orders -/

/-- The clause of an order with the given keys. -/
def orderClause : List (List Piece) → List Piece
  | [] => []
  | keys => .text " ORDER BY " :: List.intercalate [.text ", "] keys

/-- The pieces of an order key; an output is shown by its name between quotes. -/
def OrderKey.ShownBy (outputs : List Output) (scope : OrderScope) (k : OrderKey)
    (ps : List Piece) : Prop :=
  (k.write outputs scope).Yields () ps ∧
    ∀ name, k.target = .output name →
      ∃ o, findOutput? outputs name = some o ∧
        (ps = .name o.name :: if k.descending then [.text " DESC"] else []) ∧
        ∀ d, piecesSql d ps = d.quote o.name ++ if k.descending then " DESC" else ""

theorem OrderKey.shownBy_of_yields {outputs : List Output} {scope : OrderScope}
    (legible : ∀ o ∈ outputs, o.Legible) {k : OrderKey} {ps : List Piece}
    (h : (k.write outputs scope).Yields () ps) : k.ShownBy outputs scope ps := by
  refine ⟨h, fun name target => ?_⟩
  obtain ⟨written, hwritten, rfl⟩ := OrderKey.yields_write.1 h
  rw [target] at hwritten
  rcases OrderTarget.yields_write hwritten with ⟨name', o, same, found, key⟩ | ⟨_, _, other, -⟩ |
    ⟨_, _, other, -⟩ | ⟨_, other, -⟩
  · cases same
    have shown : written = [.name o.name] := by
      rcases key with ⟨-, rfl⟩ | ⟨unnamed, -, rfl⟩
      · rfl
      · exact (legible o (mem_of_findOutput? found)).unnamed unnamed
    refine ⟨o, found, by rw [shown, List.singleton_append], fun d => ?_⟩
    rw [shown]
    cases k.descending <;> simp [piecesSql, Piece.sql]
  · cases other
  · cases other
  · cases other

/-- An order writes the clause of its keys. -/
theorem yields_writeOrder_iff_clause {outputs : List Output} {scope : OrderScope}
    {keys : List OrderKey} {ps : List Piece} :
    (writeOrder outputs scope keys).Yields () ps ↔
      ∃ written,
        List.Forall₂ (fun k qs => (OrderKey.write outputs scope k).Yields () qs) keys written ∧
        ps = orderClause written := by
  rw [yields_writeOrder]
  constructor
  · rintro (⟨rfl, rfl⟩ | ⟨nonempty, written, each, rfl⟩)
    · exact ⟨[], .nil, rfl⟩
    · refine ⟨written, each, ?_⟩
      cases each with
      | nil => exact absurd rfl nonempty
      | cons _ _ => rfl
  · rintro ⟨written, each, rfl⟩
    cases each with
    | nil => exact .inl ⟨rfl, rfl⟩
    | cons first rest => exact .inr ⟨List.cons_ne_nil _ _, _, .cons first rest, rfl⟩

/-- An order is its clause, and each of its outputs is shown by its name. -/
theorem writeOrder_eq {outputs : List Output} {scope : OrderScope}
    (legible : ∀ o ∈ outputs, o.Legible) {keys : List OrderKey} {ps : List Piece}
    (h : (writeOrder outputs scope keys).Yields () ps) :
    ∃ written, List.Forall₂ (OrderKey.ShownBy outputs scope) keys written ∧
      ps = orderClause written := by
  obtain ⟨written, each, rfl⟩ := yields_writeOrder_iff_clause.1 h
  exact ⟨written, each.imp fun _ _ => OrderKey.shownBy_of_yields legible, rfl⟩

/-! ## Selects -/

/-- The pieces of a select end with its order and its page, and the order shows
    outputs by name. -/
def Select.OrderShown (naming : Naming) (main : Table) (s : Select) (outputs : List Output)
    (ps : List Piece) : Prop :=
  (s.write naming main).Yields outputs ps ∧
    ∃ scope body keys page, Scope.resolve main s.joins = .ok scope ∧
      List.Forall₂ (OrderKey.ShownBy outputs (.select scope)) s.orderBy keys ∧
      (writePage s.paginated).Yields () page ∧ ps = body ++ orderClause keys ++ page

theorem checkArity_eq_ok_iff {mode : SelectMode} {count : Nat} :
    checkArity mode count = .ok () ↔ (mode = .field → count = 1) := by
  rw [checkArity]
  split
  · next many => exact iff_of_false (by simp) fun single => many.2 (single many.1)
  · next single => exact iff_of_true rfl fun field => by_contra fun many => single ⟨field, many⟩

theorem Select.effectiveColumns_ne_nil {s : Select} {main : Table} (h : main.isGhost = false) :
    s.effectiveColumns main ≠ [] := by
  rw [Select.effectiveColumns]
  split
  · intro none
    rw [List.map_eq_nil_iff] at none
    rw [Table.isGhost, none] at h
    cases h
  · next listed => simpa using listed

/-- The outputs of rows: at least one, under names that differ, each told apart in
    the text. -/
structure WellNamed (outputs : List Output) : Prop where
  nonempty : outputs ≠ []
  distinct : (outputs.map (·.name)).Nodup
  legible : ∀ o ∈ outputs, o.Legible

theorem Select.wellNamed_write {naming : Naming} {main : Table} {s : Select}
    {outputs : List Output} {ps : List Piece} (h : (s.write naming main).Yields outputs ps) :
    WellNamed outputs := by
  obtain ⟨scope, list, _, _, _, _, hscope, -, hlist, -⟩ := Select.yields_write h
  have count := length_writeSelectList hlist
  refine ⟨?_, ?_, (writeSelectList_eq hlist).2⟩
  · rintro rfl
    have none := List.length_eq_zero_iff.1 count.symm
    exact Select.effectiveColumns_ne_nil (Scope.resolve_eq_ok hscope).1 none
  · rw [names_writeSelectList hlist]
    exact Allocator.nodup_allocateAll _ _

theorem Select.arity_write {naming : Naming} {main : Table} {s : Select}
    {outputs : List Output} {ps : List Piece} (h : (s.write naming main).Yields outputs ps)
    (field : s.mode = .field) : outputs.length = 1 := by
  obtain ⟨scope, list, _, _, _, _, -, harity, hlist, -⟩ := Select.yields_write h
  rw [length_writeSelectList hlist]
  exact checkArity_eq_ok_iff.1 harity field

/-- A select begins with its list, between `SELECT` and `FROM`. -/
theorem Select.list_write {naming : Naming} {main : Table} {s : Select} {outputs : List Output}
    {ps : List Piece} (h : (s.write naming main).Yields outputs ps) :
    ∃ rest, ps = .text "SELECT " ::
      (List.intercalate [.text ", "] (outputs.map Output.item) ++ .text " FROM " :: rest) := by
  obtain ⟨scope, list, tables, filter, order, page, -, -, hlist, htables, -, -, -, rfl⟩ :=
    Select.yields_write h
  obtain ⟨joins, -, rfl⟩ := Select.yields_writeTables.1 htables
  rw [(writeSelectList_eq hlist).1]
  exact ⟨_, by simp only [List.append_assoc, List.cons_append, List.nil_append]; rfl⟩

theorem Select.orderShown_write {naming : Naming} {main : Table} {s : Select}
    {outputs : List Output} {ps : List Piece} (h : (s.write naming main).Yields outputs ps) :
    s.OrderShown naming main outputs ps := by
  refine ⟨h, ?_⟩
  obtain ⟨scope, list, tables, filter, order, page, hscope, -, hlist, -, -, horder, hpage, rfl⟩ :=
    Select.yields_write h
  obtain ⟨keys, each, rfl⟩ := writeOrder_eq (writeSelectList_eq hlist).2 horder
  exact ⟨scope, _, keys, page, hscope, each, hpage, rfl⟩

/-! ## Unions -/

/-- The output as if no row could lack it. -/
def Output.inner (o : Output) : Output := { o with outer := false }

theorem map_inner_zipWith_merge {outputs later : List Output}
    (h : later.length = outputs.length) :
    (List.zipWith Output.merge outputs later).map Output.inner = outputs.map Output.inner := by
  induction outputs generalizing later with
  | nil => simp
  | cons o outputs ih =>
    obtain ⟨o', later, rfl⟩ := List.exists_cons_of_length_eq_add_one h
    rw [List.zipWith_cons_cons, List.map_cons, List.map_cons, ih (by simpa using h)]
    rfl

/-- Outputs that differ only in what a row may lack are shown alike. -/
theorem WellNamed.of_map_inner {outputs outputs' : List Output} (h : WellNamed outputs)
    (same : outputs'.map Output.inner = outputs.map Output.inner) : WellNamed outputs' := by
  refine ⟨?_, ?_, ?_⟩
  · rintro rfl
    exact h.nonempty (List.map_eq_nil_iff.1 same.symm)
  · have names := congrArg (List.map Output.name) same
    rw [List.map_map, List.map_map] at names
    exact names ▸ h.distinct
  · intro o ho
    have member := List.mem_map_of_mem (f := Output.inner) ho
    rw [same] at member
    obtain ⟨o', ho', inner_eq⟩ := List.mem_map.1 member
    have shown : o'.inner.Legible := ⟨(h.legible o' ho').words, (h.legible o' ho').unnamed⟩
    rw [inner_eq] at shown
    exact ⟨shown.words, shown.unnamed⟩

/-- The pieces of branches, with a mode before each. -/
def branchPieces (modes : List UnionMode) (branches : List (List Piece)) : List Piece :=
  (modes.zip branches).flatMap fun mb => [.text " ", .text mb.1.sql, .text " "] ++ mb.2

/-- The pieces of a branch between parentheses, which shows its order. -/
def UnionBranch.OrderShown (naming : Naming) (b : UnionBranch) (ps : List Piece) : Prop :=
  ∃ outputs select, b.select.OrderShown naming b.table outputs select ∧
    ps = [.text "("] ++ select ++ [.text ")"]

theorem UnionBranch.orderShown_write {naming : Naming} {b : UnionBranch} {outputs : List Output}
    {ps : List Piece} (h : (b.write naming).Yields outputs ps) : b.OrderShown naming ps := by
  obtain ⟨select, hselect, rfl⟩ := UnionBranch.yields_write h
  exact ⟨outputs, select, Select.orderShown_write hselect, rfl⟩

theorem writeBranches_eq {naming : Naming} {outputs outputs' : List Output} {number : Nat}
    {bs : List (UnionMode × UnionBranch)} {ps : List Piece}
    (h : (writeBranches naming outputs number bs).Yields outputs' ps) :
    outputs'.map Output.inner = outputs.map Output.inner ∧
      ∃ branches, List.Forall₂ (UnionBranch.OrderShown naming) (bs.map (·.2)) branches ∧
        ps = branchPieces (bs.map (·.1)) branches := by
  induction bs generalizing outputs number ps with
  | nil =>
    obtain ⟨rfl, rfl⟩ := Draft.yields_pure.1 h
    exact ⟨rfl, [], .nil, rfl⟩
  | cons mb rest ih =>
    obtain ⟨mode, b⟩ := mb
    obtain ⟨later, branch, tail, hbranch, count, htail, rfl⟩ := yields_writeBranches_cons h
    obtain ⟨same, branches, each, rfl⟩ := ih htail
    refine ⟨same.trans (map_inner_zipWith_merge count), branch :: branches,
      .cons (UnionBranch.orderShown_write hbranch) each, ?_⟩
    simp [branchPieces]

/-- The pieces of a union are its branches, its order and its page. The order shows
    outputs by name, and so does that of each branch. -/
def Union.OrderShown (naming : Naming) (u : Union) (outputs : List Output) (ps : List Piece) :
    Prop :=
  (u.write naming).Yields outputs ps ∧
    ∃ first later keys page,
      List.Forall₂ (UnionBranch.OrderShown naming) u.branches (first :: later) ∧
      List.Forall₂ (OrderKey.ShownBy outputs .union) u.orderBy keys ∧
      (writePage u.paginated).Yields () page ∧
      ps = first ++ branchPieces u.modes later ++ orderClause keys ++ page

theorem Union.orderShown_write {naming : Naming} {u : Union} {outputs : List Output}
    {ps : List Piece} (h : (u.write naming).Yields outputs ps) :
    WellNamed outputs ∧ (u.mode = .field → outputs.length = 1) ∧
      (∃ rest, ps = [.text "("] ++ .text "SELECT " ::
        (List.intercalate [.text ", "] (outputs.map Output.item) ++ .text " FROM " :: rest)) ∧
      u.OrderShown naming outputs ps := by
  have written := h
  obtain ⟨first, later, head, branch, tail, order, page, hsplit, hfirst, hlater, harity, horder,
    hpage, rfl⟩ := Union.yields_write h
  obtain ⟨hbranches, hmodes, -⟩ := Union.split_eq_ok hsplit
  obtain ⟨select, hselect, rfl⟩ := UnionBranch.yields_write hfirst
  obtain ⟨same, branches, each, rfl⟩ := writeBranches_eq hlater
  have named := (Select.wellNamed_write hselect).of_map_inner same
  obtain ⟨keys, shown, rfl⟩ := writeOrder_eq named.legible horder
  refine ⟨named, checkArity_eq_ok_iff.1 harity, ?_, written, _, branches, keys, page, ?_, shown,
    hpage, by rw [hmodes]⟩
  · -- merging leaves the entries of the first branch as they are
    obtain ⟨rest, rfl⟩ := Select.list_write hselect
    have items := congrArg (List.map Output.item) same
    rw [List.map_map, List.map_map] at items
    change outputs.map Output.item = head.map Output.item at items
    rw [items]
    exact ⟨_, by simp only [List.append_assoc, List.cons_append, List.nil_append]; rfl⟩
  · rw [hbranches]
    exact .cons (UnionBranch.orderShown_write hfirst) each

/-! ## Compiled actions -/

/-- The order of a task that returns rows, in its pieces. -/
def Task.OrderShown (naming : Naming) (table : Table) (outputs : List Output) (ps : List Piece) :
    Task → Prop
  | .select s => s.OrderShown naming table outputs ps
  | .union u => u.OrderShown naming outputs ps
  | .insert _ | .update _ | .delete _ => False

/-- The order of an action that returns rows, in its pieces. -/
def Action.OrderShown (naming : Naming) (outputs : List Output) (ps : List Piece) : Action → Prop
  | .perform _ table task => task.OrderShown naming table outputs ps
  | .wrap _ _ inner _ => inner.OrderShown naming outputs ps

/-- The shape of rows is that of outputs which the statement shows, one for each
    entry of its select list. -/
structure RowsShown (naming : Naming) (a : Action) (kind : ActionKind) (s : Statement)
    (shape : Shape) (outputs : List Output) : Prop where
  shape_eq : shape = .ofOutputs outputs
  named : WellNamed outputs
  single : kind = .selectField → outputs.length = 1
  items : s.selectItems = outputs.map Output.item
  listed : ∀ d, s.ListedIn d (s.sql d)
  order : a.OrderShown naming outputs s.pieces

theorem ActionKind.ofSelect_eq_selectField {mode : SelectMode}
    (h : ActionKind.ofSelect mode = .selectField) : mode = .field := by
  cases mode with
  | field => rfl
  | one | many => cases h

theorem ActionKind.ofUnion_eq_selectField {mode : SelectMode}
    (h : ActionKind.ofUnion mode = .selectField) : mode = .field := by
  cases mode with
  | field => rfl
  | one | many => cases h

theorem Task.rowsShown_prepare {naming : Naming} {name : String} {table : Table} {task : Task}
    {kind : ActionKind} {statement : Statement} {shape : Option Shape}
    (h : task.prepare naming table = .ok (kind, statement, shape)) :
    shape.isSome = kind.returnsRows ∧
      ∀ rows, shape = some rows →
        ∃ outputs, RowsShown naming (.perform name table task) kind statement rows outputs := by
  cases task with
  | select s =>
    obtain ⟨outputs, hsettle, rfl, rfl⟩ := prepareRows_eq_ok h
    have written := (Draft.settle_eq_ok_iff_yields.1 hsettle).2
    have named := Select.wellNamed_write written
    refine ⟨by cases s.mode <;> rfl, ?_⟩
    rintro rows ⟨⟩
    obtain ⟨rest, pieces⟩ := Select.list_write written
    refine ⟨outputs, rfl, named, ?_, ?_, ?_, Select.orderShown_write written⟩
    · intro field
      exact Select.arity_write written (ActionKind.ofSelect_eq_selectField field)
    · exact Statement.selectItems_eq (List.forall_mem_nil _) named.nonempty named.legible pieces
    · exact Statement.listedIn_sql (.inl rfl) named.nonempty named.legible pieces
  | union u =>
    obtain ⟨outputs, hsettle, rfl, rfl⟩ := prepareRows_eq_ok h
    obtain ⟨named, arity, ⟨rest, pieces⟩, order⟩ :=
      Union.orderShown_write (Draft.settle_eq_ok_iff_yields.1 hsettle).2
    refine ⟨by cases u.mode <;> rfl, ?_⟩
    rintro rows ⟨⟩
    refine ⟨outputs, rfl, named, ?_, ?_, ?_, order⟩
    · intro field
      exact arity (ActionKind.ofUnion_eq_selectField field)
    · refine Statement.selectItems_eq ?_ named.nonempty named.legible pieces
      decide
    · exact Statement.listedIn_sql (.inr rfl) named.nonempty named.legible pieces
  | insert i =>
    obtain ⟨_, -, h₁⟩ := bind_eq_ok_iff.1 h
    cases h₁
    exact ⟨rfl, fun rows none => by cases none⟩
  | update u =>
    obtain ⟨_, -, h₁⟩ := bind_eq_ok_iff.1 h
    cases h₁
    exact ⟨rfl, fun rows none => by cases none⟩
  | delete d =>
    obtain ⟨_, -, h₁⟩ := bind_eq_ok_iff.1 h
    cases h₁
    exact ⟨rfl, fun rows none => by cases none⟩

theorem Action.rowsShown_prepare {naming : Naming} {a : Action} {p : Prepared}
    (h : a.prepare naming = .ok p) :
    p.shape.isSome = p.kind.returnsRows ∧
      ∀ rows, p.shape = some rows →
        ∃ outputs, RowsShown naming a p.kind p.statement rows outputs := by
  induction a generalizing p with
  | perform name table task => exact Task.rowsShown_prepare (Action.prepare_perform_eq_ok h).1
  | wrap name table inner args ih =>
    obtain ⟨q, hinner, statement_eq, kind_eq, shape_eq, -⟩ := Action.prepare_wrap_eq_ok h
    rw [statement_eq, kind_eq, shape_eq]
    obtain ⟨present, shows_inner⟩ := ih hinner
    refine ⟨present, fun rows some_eq => ?_⟩
    obtain ⟨outputs, shown⟩ := shows_inner rows some_eq
    exact ⟨outputs, shown.shape_eq, shown.named, shown.single, shown.items, shown.listed,
      shown.order⟩

/-- A compiled action has a shape exactly if it returns rows. The select list of its
    statement then stands in its SQL between `SELECT` and `FROM`, and has one entry for
    each field, which is the name of the field or ends with `AS` and that name; names
    differ, a single value has one field, and an order names the outputs it refers to. -/
theorem Action.layout_compile {o : Options} {a : Action} {c : Compiled}
    (h : a.compile o = .ok c) :
    (c.shape.isSome = true ↔ c.kind.returnsRows = true) ∧
      ∀ shape, c.shape = some shape →
        ∃ p outputs, a.prepare o.naming = .ok p ∧ p.render o.dialect = c ∧
          shape = .ofOutputs outputs ∧
          1 ≤ shape.fields.length ∧
          p.statement.ListedIn o.dialect c.sql ∧
          List.Forall₂ (Field.ShownBy o.dialect) shape.fields p.statement.selectItems ∧
          (shape.fields.map (·.name)).Nodup ∧
          (c.kind = .selectField → shape.fields.length = 1) ∧
          a.OrderShown o.naming outputs p.statement.pieces := by
  obtain ⟨p, hp, rfl⟩ := Action.compile_eq_ok_iff.1 h
  obtain ⟨present, shows⟩ := Action.rowsShown_prepare hp
  refine ⟨Bool.eq_iff_iff.1 present, fun shape some_eq => ?_⟩
  obtain ⟨outputs, shown⟩ := shows shape some_eq
  obtain rfl := shown.shape_eq
  refine ⟨p, outputs, hp, rfl, rfl, ?_, shown.listed o.dialect, ?_, ?_, ?_, shown.order⟩
  · simpa [Shape.ofOutputs, Nat.one_le_iff_ne_zero] using shown.named.nonempty
  · rw [shown.items, Shape.ofOutputs, List.forall₂_map_left_iff, List.forall₂_map_right_iff,
      List.forall₂_same]
    exact fun o' ho' => (shown.named.legible o' ho').shownBy_item o.dialect
  · simpa [Shape.ofOutputs, Function.comp_def, Output.field] using shown.named.distinct
  · intro field
    rw [Shape.ofOutputs, List.length_map]
    exact shown.single field

/-- Accounts by the length of their names, the longest first. -/
def accountsByLength : Action :=
  .wrap "longest" accounts
    (.perform "by_length" accounts (.select {
      columns := [.column (.ofMain "name") none,
        .expression ⟨[.raw "LENGTH(", .column (.ofMain "name"), .raw ")"]⟩ "nameLength"
          (some .count)]
      orderBy := [⟨.output "name_length", true⟩, ⟨.output "name", false⟩] }))
    []

theorem accountsByLength_layout :
    ∃ c shape p, accountsByLength.compile {} = .ok c ∧ c.shape = some shape ∧
      accountsByLength.prepare {} = .ok p ∧
      shape.fields.map (·.name) = ["name", "nameLength"] ∧ c.kind.returnsRows = true ∧
      List.Forall₂ (Field.ShownBy .mysql) shape.fields p.statement.selectItems := by
  have compiles : ∃ c shape, accountsByLength.compile {} = .ok c ∧ c.shape = some shape ∧
      shape.fields.map (·.name) = ["name", "nameLength"] := ⟨_, _, rfl, rfl, by decide⟩
  obtain ⟨c, shape, hc, hshape, names⟩ := compiles
  obtain ⟨present, layout⟩ := Action.layout_compile hc
  obtain ⟨p, outputs, hp, -, -, -, -, items, -⟩ := layout shape hshape
  exact ⟨c, shape, p, hc, hshape, hp, names, present.1 (by rw [hshape]; rfl), items⟩

end Bindery
