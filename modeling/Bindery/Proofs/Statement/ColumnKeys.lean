import Bindery.Proofs.Scope.Resolution
import Bindery.Proofs.Statement.Branches
import Bindery.Proofs.Text.Token

/-!
# Columns as order keys

In an order, a name is that of an output before it is that of a column. A column key
of a select is the column as it is written everywhere else, so an output of the same
spelling takes its place; behind the label of a table, there is none. A column key of
a union is the first output that reads nothing but the column, be it the column
itself or an expression over it.

* `SortsBy`: what a key with a text means, in front of outputs.
* `SelectColumn.Gives`: an entry of a select list and its output.
* `Select.columnKeys_compile`: when the rows of a select are sorted by the column.
* `Union.shownKeys_compile`: when the rows of a union are.
-/

namespace Bindery

/-- A key with the given text sorts by the column: an output of that name is the
    column. -/
def SortsBy (d : Dialect) (outputs : List Output) (key column : String) : Prop :=
  ∀ o ∈ outputs, d.quote o.name = key → piecesSql d o.expression = column

instance (d : Dialect) (outputs : List Output) (key column : String) :
    Decidable (SortsBy d outputs key column) :=
  inferInstanceAs (Decidable (∀ o ∈ outputs, d.quote o.name = key → piecesSql d o.expression = column))

/-! ## Quoted names -/

namespace Dialect

variable {d : Dialect}

theorem quote_inj {name name' : String} : d.quote name = d.quote name' ↔ name = name' := by
  refine ⟨fun h => ?_, fun h => by rw [h]⟩
  have tokens : d.lex (d.quote name).toList = d.lex (d.quote name').toList := by rw [h]
  simpa [quote, lex_quoted] using tokens

/-- A name behind a label is no name on its own. -/
theorem quote_ne_qualified (name label column : String) :
    d.quote name ≠ d.quote label ++ ("." ++ d.quote column) := by
  intro h
  -- the name is one token, and the other text is more than one
  have apart : ('.' :: (d.quote column).toList).head? ≠ some d.quoteChar := by
    rw [List.head?_cons]
    cases d <;> decide
  obtain ⟨dot, read⟩ := lex_break_cons (d := d) (c := '.') List.mem_cons_self
  have tokens : d.lex (d.quote name).toList =
      d.lex ((d.quote label).toList ++ '.' :: (d.quote column).toList) := by
    rw [h]
    simp
  unfold quote at tokens apart
  rw [lex_quoted, lex_quoted_append label apart, read, lex_quoted] at tokens
  simp at tokens

end Dialect

/-! ## Entries of a select list -/

/-- What an entry of a select list selects. -/
def SelectColumn.draft (scope : Scope) : SelectColumn → Draft Unit
  | .column c _ => scope.writeColumn c
  | .expression f _ _ => f.write scope

/-- The column that an entry reads, if it reads one and nothing else. -/
def SelectColumn.shows : SelectColumn → Option ColumnRef
  | .column c _ => some c
  | .expression f _ _ => f.singleColumn?

/-- The output of an entry has what it selects as expression. -/
structure SelectColumn.Gives (scope : Scope) (entry : SelectColumn) (o : Output) : Prop where
  expression : (entry.draft scope).Yields () o.expression
  source : o.source = entry.shows

variable {scope : Scope} {naming : Naming} {d : Dialect}

theorem SelectColumn.gives_of_output {names names' : Name.Allocator} {entry : SelectColumn}
    {o : Output} (h : entry.output scope naming names = .ok (o, names')) : entry.Gives scope o := by
  cases entry with
  | column c outputName =>
    obtain ⟨_, _, -, pieces, -, -, -, -, source, -⟩ := columnOutput_eq_ok h
    exact ⟨Scope.yields_writeColumn.2 pieces, source⟩
  | expression f outputName type =>
    obtain ⟨-, written, -, source, -⟩ := expressionOutput_eq_ok h
    exact ⟨written, source⟩

theorem gives_writeSelectList {names : Name.Allocator} {entries : List SelectColumn}
    {outputs : List Output} {ps : List Piece}
    (h : (writeSelectList scope naming names entries).Yields outputs ps) :
    List.Forall₂ (SelectColumn.Gives scope) entries outputs := by
  induction entries generalizing names outputs ps with
  | nil =>
    obtain ⟨rfl, -⟩ := Draft.yields_pure.1 h
    exact .nil
  | cons entry rest ih =>
    obtain ⟨o, names', later, tail, houtput, hrest, rfl, -⟩ := yields_writeSelectList_cons h
    exact .cons (SelectColumn.gives_of_output houtput) (ih hrest)

/-- What rows may lack changes nothing about what an entry gives. -/
theorem gives_of_map_inner {entries : List SelectColumn} {outputs outputs' : List Output}
    (same : outputs'.map Output.inner = outputs.map Output.inner)
    (h : List.Forall₂ (SelectColumn.Gives scope) entries outputs) :
    List.Forall₂ (SelectColumn.Gives scope) entries outputs' := by
  have inner : List.Forall₂ (SelectColumn.Gives scope) entries (outputs.map Output.inner) := by
    rw [List.forall₂_map_right_iff]
    exact h.imp fun _ _ gives => ⟨gives.expression, gives.source⟩
  rw [← same, List.forall₂_map_right_iff] at inner
  exact inner.imp fun _ _ gives => ⟨gives.expression, gives.source⟩

/-! ## Expressions over one column -/

/-- Nothing is around the column that an entry reads. -/
def SelectColumn.AddsNothing : SelectColumn → Prop
  | .column _ _ => True
  | .expression f _ _ => ∀ sql, .raw sql ∈ f.parts → sql = ""

theorem piecesSql_writeParts_eq_empty_iff {parts : List FragmentPart} {ps : List Piece}
    (columns : (Fragment.mk parts).columns = []) (params : (Fragment.mk parts).params = [])
    (h : (writeParts scope parts).Yields () ps) :
    piecesSql d ps = "" ↔ ∀ sql, .raw sql ∈ parts → sql = "" := by
  induction parts generalizing ps with
  | nil =>
    obtain ⟨-, rfl⟩ := Draft.yields_pure.1 h
    simp [piecesSql]
  | cons part rest ih =>
    obtain ⟨before, hpart, behind, hrest, rfl⟩ := Draft.yields_bind_unit.1 h
    cases part with
    | column c => simp [Fragment.columns] at columns
    | param p => simp [Fragment.params] at params
    | raw sql =>
      obtain rfl := Draft.yields_write.1 hpart
      have later := ih (by simpa [Fragment.columns] using columns)
        (by simpa [Fragment.params] using params) hrest
      rw [piecesSql_append, String.append_eq_empty_iff, later]
      simp [piecesSql, Piece.sql]

/-- An expression over one column is its text, between SQL written by hand. -/
theorem piecesSql_writeParts_single {parts : List FragmentPart} {c : ColumnRef} {ps : List Piece}
    (columns : (Fragment.mk parts).columns = [c]) (params : (Fragment.mk parts).params = [])
    (h : (writeParts scope parts).Yields () ps) :
    ∃ column before behind, scope.columnPieces c = .ok column ∧
      piecesSql d ps = before ++ piecesSql d column ++ behind ∧
      (before = "" ∧ behind = "" ↔ ∀ sql, .raw sql ∈ parts → sql = "") := by
  induction parts generalizing ps with
  | nil => cases columns
  | cons part rest ih =>
    obtain ⟨first, hpart, later, hrest, rfl⟩ := Draft.yields_bind_unit.1 h
    cases part with
    | param p => simp [Fragment.params] at params
    | raw sql =>
      -- the column is further on, with this text and more in front of it
      obtain rfl := Draft.yields_write.1 hpart
      obtain ⟨column, before, behind, hcolumn, text, nothing⟩ :=
        ih (by simpa [Fragment.columns] using columns) (by simpa [Fragment.params] using params) hrest
      refine ⟨column, sql ++ before, behind, hcolumn, ?_, ?_⟩
      · rw [piecesSql_append, text]
        simp [piecesSql, Piece.sql, String.append_assoc]
      · rw [String.append_eq_empty_iff, and_assoc, nothing]
        simp
    | column c' =>
      -- this is the column, and behind it there is SQL written by hand only
      obtain ⟨rfl, none⟩ : c' = c ∧ (Fragment.mk rest).columns = [] := by
        simpa [Fragment.columns] using columns
      refine ⟨first, "", piecesSql d later, Scope.yields_writeColumn.1 hpart, ?_, ?_⟩
      · rw [piecesSql_append, String.empty_append]
      · rw [piecesSql_writeParts_eq_empty_iff none (by simpa [Fragment.params] using params) hrest]
        simp

theorem append_append_eq_self_iff {before text behind : String} :
    before ++ text ++ behind = text ↔ before = "" ∧ behind = "" := by
  constructor
  · intro h
    have lengths := congrArg String.length h
    rw [String.length_append, String.length_append] at lengths
    rw [← String.length_eq_zero_iff, ← String.length_eq_zero_iff]
    omega
  · rintro ⟨rfl, rfl⟩
    simp

/-- What an entry gives that reads a column is this column, unless it adds to it. -/
theorem SelectColumn.Gives.expression_eq_iff {entry : SelectColumn} {o : Output} {c : ColumnRef}
    (h : entry.Gives scope o) (shows : entry.shows = some c) :
    ∃ column, scope.columnPieces c = .ok column ∧
      (piecesSql d o.expression = piecesSql d column ↔ entry.AddsNothing) := by
  cases entry with
  | column c' outputName =>
    obtain rfl : c' = c := Option.some.inj shows
    exact ⟨_, Scope.yields_writeColumn.1 h.expression, iff_of_true rfl trivial⟩
  | expression f outputName type =>
    obtain ⟨columns, params⟩ := Fragment.exists_singleColumn?_iff.1 ⟨c, shows⟩
    obtain ⟨c', columns⟩ := List.length_eq_one_iff.1 columns
    have same : c ∈ f.columns := Fragment.mem_columns_of_singleColumn? shows
    rw [columns, List.mem_singleton] at same
    subst same
    obtain ⟨column, before, behind, hcolumn, text, nothing⟩ :=
      piecesSql_writeParts_single (d := d) columns params h.expression
    refine ⟨column, hcolumn, ?_⟩
    rw [text, append_append_eq_self_iff]
    exact nothing

/-! ## Lists side by side -/

section Lists

variable {α β γ : Type} {R : α → β → Prop} {xs : List α} {ys : List β}

/-- Two searches that decide alike on counterparts find counterparts. -/
theorem exists_find?_of_forall₂ {p : α → Bool} {q : β → Bool} (h : List.Forall₂ R xs ys)
    (alike : ∀ x y, R x y → p x = q y) {y : β} (found : ys.find? q = some y) :
    ∃ x, xs.find? p = some x ∧ R x y := by
  induction h with
  | nil => cases found
  | @cons x y' xs ys related _ ih =>
    rw [List.find?_cons, ← alike x y' related] at found
    rw [List.find?_cons]
    cases hit : p x with
    | true =>
      rw [hit] at found
      cases found
      exact ⟨x, rfl, related⟩
    | false =>
      rw [hit] at found
      exact ih found

theorem forall_mem_zip_map_iff {f : β → γ} {P : α × γ → Prop} {Q : β → Prop}
    (h : List.Forall₂ R xs ys) (each : ∀ x y, R x y → (P (x, f y) ↔ Q y)) :
    (∀ e ∈ xs.zip (ys.map f), P e) ↔ ∀ y ∈ ys, Q y := by
  induction h with
  | nil => simp
  | cons related _ ih =>
    rw [List.map_cons, List.zip_cons_cons, List.forall_mem_cons, List.forall_mem_cons,
      each _ _ related, ih]

end Lists

/-! ## Rows with an order -/

/-- Rows as their statement reads: its select list has one entry for each output, and
    the keys stand behind everything but the page. -/
structure Rows.Ordered (r : Rows) (paginated : Bool) (keys : List (List Piece)) : Prop where
  items : r.2.selectItems = r.1.map Output.item
  order : ∃ body, r.2.pieces = body ++ orderClause keys ++ pagePieces paginated

/-- A key by the name of an output sorts by a column if the output is the column. -/
theorem sortsBy_quote_iff {outputs : List Output} (distinct : (outputs.map (·.name)).Nodup)
    {o : Output} (member : o ∈ outputs) {column : String} :
    SortsBy d outputs (d.quote o.name) column ↔ piecesSql d o.expression = column := by
  constructor
  · intro sorts
    exact sorts o member rfl
  · intro same o' member' named
    rw [Dialect.quote_inj] at named
    rw [List.inj_on_of_nodup_map distinct member' member named, same]

/-! ## Selects -/

/-- Without joins, the entry is the column alone. -/
def SelectColumn.Is (d : Dialect) (scope : Scope) (column : Column) : SelectColumn → Prop
  | .column c _ => ∃ same, scope.column c = .ok same ∧ same.sqlName = column.sqlName
  | .expression f _ _ =>
    ∃ ps, (f.write scope).Yields () ps ∧ piecesSql d ps = d.quote column.sqlName

/-- Whatever a select puts out under the database name of a column is this column. -/
def Select.Spares (d : Dialect) (naming : Naming) (main : Table) (scope : Scope) (s : Select)
    (column : Column) : Prop :=
  ∀ e ∈ (s.effectiveColumns main).zip (s.outputNames naming main scope),
    e.2 = column.sqlName → e.1.Is d scope column

theorem SelectColumn.Gives.is_iff {entry : SelectColumn} {o : Output} {column : Column}
    (alone : scope.hasJoins = false) (h : entry.Gives scope o) :
    entry.Is d scope column ↔ piecesSql d o.expression = d.quote column.sqlName := by
  cases entry with
  | column c outputName =>
    obtain ⟨seat, found, hseat, hfound, expression⟩ :=
      Scope.columnPieces_eq_ok_iff.1 (Scope.yields_writeColumn.1 h.expression)
    have known : scope.column c = .ok found := Scope.column_eq_ok_iff.2 ⟨seat, hseat, hfound⟩
    have text : piecesSql d o.expression = d.quote found.sqlName := by
      simp [expression, alone, piecesSql, Piece.sql]
    rw [text, Dialect.quote_inj]
    constructor
    · rintro ⟨same, hsame, named⟩
      rw [known] at hsame
      cases hsame
      exact named
    · exact fun named => ⟨found, known, named⟩
  | expression f outputName type =>
    constructor
    · rintro ⟨ps, written, text⟩
      have same : ps = o.expression := written.2.symm.trans h.expression.2
      rwa [← same]
    · exact fun text => ⟨_, h.expression, text⟩

/-- The pieces of a column are its name between quotes, or a label before it. -/
theorem piecesSql_column {c : ColumnRef} {target : List Piece}
    (h : scope.columnPieces c = .ok target) :
    ∃ column, scope.column c = .ok column ∧
      (scope.hasJoins = false → piecesSql d target = d.quote column.sqlName) ∧
      (scope.hasJoins = true → ∀ name, d.quote name ≠ piecesSql d target) := by
  obtain ⟨seat, column, hseat, hcolumn, rfl⟩ := Scope.columnPieces_eq_ok_iff.1 h
  refine ⟨column, Scope.column_eq_ok_iff.2 ⟨seat, hseat, hcolumn⟩, ?_, ?_⟩
  · intro alone
    simp [alone, piecesSql, Piece.sql]
  · intro joined name
    simpa [joined, piecesSql, Piece.sql] using
      Dialect.quote_ne_qualified (d := d) name seat.label column.sqlName

/-- A column key of a select sorts by the column, unless there are no joins and the
    select puts out something else under its name. -/
theorem Select.sortsBy_iff_spares {main : Table} {s : Select} {outputs : List Output}
    {c : ColumnRef} {target : List Piece}
    (given : List.Forall₂ (SelectColumn.Gives scope) (s.effectiveColumns main) outputs)
    (names : outputs.map (·.name) = s.outputNames naming main scope)
    (h : scope.columnPieces c = .ok target) :
    ∃ column, scope.column c = .ok column ∧
      (SortsBy d outputs (piecesSql d target) (piecesSql d target) ↔
        (scope.hasJoins = false → s.Spares d naming main scope column)) := by
  obtain ⟨column, known, bare, qualified⟩ := piecesSql_column (d := d) h
  refine ⟨column, known, ?_⟩
  cases joins : scope.hasJoins with
  | true =>
    -- the label in front keeps the key apart from every output
    refine iff_of_true (fun o _ named => ?_) (by simp)
    exact absurd named (qualified joins o.name)
  | false =>
    have spares : s.Spares d naming main scope column ↔
        SortsBy d outputs (piecesSql d target) (piecesSql d target) := by
      rw [bare joins, Select.Spares, ← names]
      refine forall_mem_zip_map_iff given fun entry o gives => ?_
      rw [gives.is_iff joins, Dialect.quote_inj]
    exact ⟨fun sorts _ => spares.2 sorts, fun h => spares.1 (h rfl)⟩

theorem Select.ordered_write {main : Table} {s : Select} {outputs : List Output}
    {ps : List Piece} (h : (s.write naming main).Yields outputs ps) :
    ∃ scope keys, Scope.resolve main s.joins = .ok scope ∧
      Rows.Ordered (outputs, ⟨ps⟩) s.paginated keys ∧
      List.Forall₂ (SelectColumn.Gives scope) (s.effectiveColumns main) outputs ∧
      outputs.map (·.name) = s.outputNames naming main scope ∧
      List.Forall₂ (fun k key => (OrderKey.write outputs (.select scope) k).Yields () key)
        s.orderBy keys := by
  have named := Select.wellNamed_write h
  obtain ⟨rest, listed⟩ := Select.list_write h
  obtain ⟨scope, list, tables, filter, order, page, hscope, -, hlist, -, -, horder, hpage, pieces⟩ :=
    Select.yields_write h
  obtain ⟨keys, each, rfl⟩ := yields_writeOrder_iff_clause.1 horder
  obtain rfl := yields_writePage.1 hpage
  refine ⟨scope, keys, hscope, ⟨?_, _, pieces⟩, gives_writeSelectList hlist,
    names_writeSelectList hlist, each⟩
  exact Statement.selectItems_eq (List.forall_mem_nil _) named.nonempty named.legible listed

/-- A select that compiles writes each of its column keys as the column. The key sorts
    by the column if and only if the select has joins, or puts out nothing else under
    the database name of the column. -/
theorem Select.columnKeys_compile {o : Options} {name : String} {table : Table} {s : Select}
    {c : Compiled} (h : (Action.perform name table (.select s)).compile o = .ok c) :
    ∃ scope rows keys, Scope.resolve table s.joins = .ok scope ∧ c.Shows o.dialect rows ∧
      Rows.Ordered rows s.paginated keys ∧
      List.Forall₂ (fun k key => ∀ ref, k.target = .column ref →
        ∃ column target, scope.column ref = .ok column ∧ scope.columnPieces ref = .ok target ∧
          key = target ++ (if k.descending then [.text " DESC"] else []) ∧
          (SortsBy o.dialect rows.1 (piecesSql o.dialect target) (piecesSql o.dialect target) ↔
            (s.joins = [] → s.Spares o.dialect o.naming table scope column)))
        s.orderBy keys := by
  obtain ⟨⟨outputs, statement⟩, settled, shows⟩ := Action.settle_of_compile rfl h
  obtain ⟨scope, keys, hscope, ordered, given, names, each⟩ :=
    Select.ordered_write (Draft.settle_eq_ok_iff_yields.1 settled).2
  refine ⟨scope, (outputs, statement), keys, hscope, shows, ordered, each.imp ?_⟩
  intro k key written ref isColumn
  obtain ⟨target, htarget, rfl⟩ := OrderKey.yields_write.1 written
  rw [isColumn] at htarget
  have pieces : scope.columnPieces ref = .ok target := Scope.yields_writeColumn.1 htarget
  obtain ⟨column, known, sorts⟩ := Select.sortsBy_iff_spares given names pieces
  refine ⟨column, target, known, pieces, rfl, ?_⟩
  rw [sorts, Scope.hasJoins_eq_false_of_resolve hscope]

/-- The keys of people, put out as names and sorted by names. -/
def keysAsNames (joins : List Join) : Select where
  columns := [.column (.ofMain "id") (some "name")]
  joins
  orderBy := [⟨.column (.ofMain "name"), false⟩]

theorem keysAsNames_sorted :
    ∃ c rows, (Action.perform "keys" staff (.select (keysAsNames bosses))).compile {} = .ok c ∧
      c.Shows .mysql rows ∧ c.shape.map (·.fields.map (·.name)) = some ["name"] ∧
      SortsBy .mysql rows.1 "`_main`.`name`" "`_main`.`name`" := by
  have compiles : ∃ c, (Action.perform "keys" staff (.select (keysAsNames bosses))).compile {} =
      .ok c ∧ c.shape.map (·.fields.map (·.name)) = some ["name"] := ⟨_, rfl, rfl⟩
  obtain ⟨c, hc, named⟩ := compiles
  obtain ⟨scope, rows, keys, hscope, shows, -, each⟩ := Select.columnKeys_compile hc
  obtain ⟨key, -, sorted, -, -⟩ := List.forall₂_cons_left_iff.1 each
  obtain ⟨column, target, -, htarget, -, sorts⟩ := sorted (.ofMain "name") rfl
  cases hscope
  cases htarget
  exact ⟨c, rows, hc, shows, named, sorts.2 fun none => by cases none⟩

/-- Without joins, the output takes the place of the column. -/
theorem keysAsNames_captured :
    ∃ c rows, (Action.perform "keys" staff (.select (keysAsNames []))).compile {} = .ok c ∧
      c.sql = "SELECT `id` AS `name` FROM `people` ORDER BY `name`" ∧ c.Shows .mysql rows ∧
      rows.2.selectItems = rows.1.map Output.item ∧
      ¬ SortsBy .mysql rows.1 "`name`" "`name`" := by
  have settles : ∃ rows : Rows, ((keysAsNames []).write {} staff).settle = .ok rows ∧
      rows.2.sql .mysql = "SELECT `id` AS `name` FROM `people` ORDER BY `name`" ∧
      rows.2.selectItems = rows.1.map Output.item ∧ ¬ SortsBy .mysql rows.1 "`name`" "`name`" :=
    ⟨(_, _), rfl, rfl, rfl, by decide⟩
  obtain ⟨rows, settled, sql, items, captured⟩ := settles
  have compiles : ∃ c, (Action.perform "keys" staff (.select (keysAsNames []))).compile {} = .ok c ∧
      c.Shows .mysql rows := Action.compile_of_settle rfl settled
  obtain ⟨c, hc, shows⟩ := compiles
  exact ⟨c, rows, hc, shows.sql_eq.trans sql, shows, items, captured⟩

/-! ## Unions -/

/-- A column key of a union is the output of the first entry that reads the column. -/
theorem exists_entry_of_find? {entries : List SelectColumn} {outputs : List Output}
    (given : List.Forall₂ (SelectColumn.Gives scope) entries outputs) {c : ColumnRef} {o : Output}
    (found : outputs.find? (·.source == some c) = some o) :
    ∃ entry, entries.find? (·.shows == some c) = some entry ∧ entry.Gives scope o :=
  exists_find?_of_forall₂ given (fun entry o gives => by rw [gives.source]) found

/-- The order of a union that is written looks its keys up in outputs that the entries
    of the first branch give. -/
theorem Union.ordered_write {u : Union} {outputs : List Output} {ps : List Piece}
    (h : (u.write naming).Yields outputs ps) :
    ∃ first scope keys, u.branches.head? = some first ∧
      Scope.resolve first.table first.select.joins = .ok scope ∧
      Rows.Ordered (outputs, ⟨ps⟩) u.paginated keys ∧
      List.Forall₂ (SelectColumn.Gives scope) (first.select.effectiveColumns first.table) outputs ∧
      (outputs.map (·.name)).Nodup ∧
      List.Forall₂ (fun k key => (OrderKey.write outputs .union k).Yields () key)
        u.orderBy keys := by
  obtain ⟨named, -, ⟨rest, listed⟩, -⟩ := Union.orderShown_write h
  obtain ⟨-, -, head, rows, order, settled, width, rfl, -, horder, pieces⟩ :=
    Union.yields_write_iff.1 h
  -- the outputs are those of the first branch, up to what a row may lack
  obtain ⟨first, later, branch, -, all⟩ := List.forall₂_cons_right_iff.1 settled
  obtain ⟨scope, -, hscope, -, given, -, -⟩ :=
    Select.ordered_write (Draft.settle_eq_ok_iff_yields.1 branch).2
  obtain ⟨keys, each, rfl⟩ := yields_writeOrder_iff_clause.1 horder
  refine ⟨first, scope, keys, by rw [all]; rfl, hscope, ⟨?_, _, pieces⟩,
    gives_of_map_inner (map_inner_mergeAll width) given, named.distinct, each⟩
  refine Statement.selectItems_eq ?_ named.nonempty named.legible listed
  decide

/-- A union that compiles writes each of its column keys as the name of an output,
    which the first entry of the first branch gives that reads the column and nothing
    else. The key sorts by the column if and only if this entry is the column alone. -/
theorem Union.shownKeys_compile {o : Options} {name : String} {table : Table} {u : Union}
    {c : Compiled} (h : (Action.perform name table (.union u)).compile o = .ok c) :
    ∃ first scope rows keys, u.branches.head? = some first ∧
      Scope.resolve first.table first.select.joins = .ok scope ∧ c.Shows o.dialect rows ∧
      Rows.Ordered rows u.paginated keys ∧
      List.Forall₂ (fun k key => ∀ ref, k.target = .column ref →
        ∃ entry out column,
          (first.select.effectiveColumns first.table).find? (·.shows == some ref) = some entry ∧
          out ∈ rows.1 ∧ entry.Gives scope out ∧ scope.columnPieces ref = .ok column ∧
          key = .name out.name :: (if k.descending then [.text " DESC"] else []) ∧
          (SortsBy o.dialect rows.1 (o.dialect.quote out.name) (piecesSql o.dialect column) ↔
            entry.AddsNothing))
        u.orderBy keys := by
  obtain ⟨⟨outputs, statement⟩, settled, shows⟩ := Action.settle_of_compile rfl h
  obtain ⟨first, scope, keys, hfirst, hscope, ordered, given, distinct, each⟩ :=
    Union.ordered_write (Draft.settle_eq_ok_iff_yields.1 settled).2
  refine ⟨first, scope, (outputs, statement), keys, hfirst, hscope, shows, ordered, each.imp ?_⟩
  intro k key written ref isColumn
  obtain ⟨target, htarget, rfl⟩ := OrderKey.yields_write.1 written
  rw [isColumn] at htarget
  rcases OrderTarget.yields_write htarget with ⟨_, _, other, -⟩ | ⟨_, _, -, other, -⟩ |
    ⟨ref', out, same, -, found, rfl⟩ | ⟨_, other, -⟩
  · cases other
  · cases other
  · cases same
    obtain ⟨entry, hentry, gives⟩ := exists_entry_of_find? given found
    have reads : entry.shows = some ref := by simpa using List.find?_some hentry
    have member := List.mem_of_find?_eq_some found
    obtain ⟨column, hcolumn, nothing⟩ := gives.expression_eq_iff (d := o.dialect) reads
    refine ⟨entry, out, column, hentry, member, gives, hcolumn, rfl, ?_⟩
    rw [sortsBy_quote_iff distinct member]
    exact nothing
  · cases other

/-- The length of the name of an account. -/
def nameLength : SelectColumn :=
  .expression ⟨[.raw "LENGTH(", .column (.ofMain "name"), .raw ")"]⟩ "len" (some .count)

/-- Columns of accounts from two lists, the last names first. -/
def accountsByName (columns : List SelectColumn) : Union where
  branches := [⟨accounts, { columns }⟩, ⟨accounts, { columns }⟩]
  modes := [.unionAll]
  orderBy := [⟨.column (.ofMain "name"), true⟩]

theorem accountsByName_sorted :
    ∃ c rows o, (Action.perform "byName" accounts
        (.union (accountsByName [.column (.ofMain "name") none, nameLength]))).compile {} = .ok c ∧
      c.Shows .mysql rows ∧ o ∈ rows.1 ∧
      SortsBy .mysql rows.1 (Dialect.mysql.quote o.name) "`name`" := by
  have compiles : ∃ c, (Action.perform "byName" accounts
      (.union (accountsByName [.column (.ofMain "name") none, nameLength]))).compile {} = .ok c :=
    ⟨_, rfl⟩
  obtain ⟨c, hc⟩ := compiles
  obtain ⟨first, scope, rows, keys, hfirst, hscope, shows, -, each⟩ := Union.shownKeys_compile hc
  cases hfirst
  cases hscope
  obtain ⟨key, -, sorted, -, -⟩ := List.forall₂_cons_left_iff.1 each
  obtain ⟨entry, out, column, hentry, member, -, hcolumn, -, sorts⟩ :=
    sorted (.ofMain "name") rfl
  cases hentry
  cases hcolumn
  exact ⟨c, rows, out, hc, shows, member, sorts.2 trivial⟩

/-- An expression in front of its column is what the rows are sorted by. -/
theorem accountsByName_misled :
    ∃ c rows, (Action.perform "byName" accounts
        (.union (accountsByName [nameLength, .column (.ofMain "name") none]))).compile {} = .ok c ∧
      c.sql = "(SELECT LENGTH(`name`) AS `len`, `name` FROM `accounts`) UNION ALL " ++
        "(SELECT LENGTH(`name`) AS `len`, `name` FROM `accounts`) ORDER BY `len` DESC" ∧
      c.Shows .mysql rows ∧ rows.2.selectItems = rows.1.map Output.item ∧
      ¬ SortsBy .mysql rows.1 "`len`" "`name`" := by
  have settles : ∃ rows : Rows,
      ((accountsByName [nameLength, .column (.ofMain "name") none]).write {}).settle = .ok rows ∧
      rows.2.sql .mysql = "(SELECT LENGTH(`name`) AS `len`, `name` FROM `accounts`) UNION ALL " ++
        "(SELECT LENGTH(`name`) AS `len`, `name` FROM `accounts`) ORDER BY `len` DESC" ∧
      rows.2.selectItems = rows.1.map Output.item ∧ ¬ SortsBy .mysql rows.1 "`len`" "`name`" :=
    ⟨(_, _), rfl, rfl, rfl, by decide⟩
  obtain ⟨rows, settled, sql, items, misled⟩ := settles
  have compiles : ∃ c, (Action.perform "byName" accounts
      (.union (accountsByName [nameLength, .column (.ofMain "name") none]))).compile {} = .ok c ∧
        c.Shows .mysql rows := Action.compile_of_settle rfl settled
  obtain ⟨c, hc, shows⟩ := compiles
  exact ⟨c, rows, hc, shows.sql_eq.trans sql, shows, items, misled⟩

end Bindery
