import Bindery.Proofs.Scope
import Bindery.Proofs.Statement.Layout

/-!
# Reading statements as queries

A statement that returns rows is read from its pieces alone: the entries between
`SELECT` and `FROM`, the chain of joins behind `FROM`, and the branches of a union
between parentheses. Filters, orders and pages stay unread; they choose among rows
and have no part in what a row holds.

* `Query.read?`: the query of a list of pieces.
* `Closed`: pieces whose parentheses match.
-/

namespace Bindery

/-! ## Queries -/

/-- A column behind the label of its table. -/
structure Place where
  label : String
  column : String
  deriving DecidableEq

/-- What an entry of a select list shows. -/
inductive Entry where
  /-- A column of the only table. -/
  | bare (column : String)
  | place (p : Place)
  | expression (ps : List Piece)
  deriving DecidableEq

/-- A join: a table under a label, and two columns that have to be equal. -/
structure JoinQuery where
  kind : JoinKind
  table : String
  label : String
  key : Place
  base : Place
  deriving DecidableEq

/-- A select over a chain of joins. -/
structure SelectQuery where
  entries : List Entry
  table : String
  label : String
  joins : List JoinQuery
  /-- The filter, the order and the page. -/
  rest : List Piece
  deriving DecidableEq

/-- A statement that returns rows. -/
inductive Query where
  | select (q : SelectQuery)
  /-- Selects joined by modes, with the order and the page behind them. -/
  | union (first : SelectQuery) (later : List (UnionMode × SelectQuery)) (rest : List Piece)
  deriving DecidableEq

/-! ## Reading -/

/-- The column that pieces are, or else the expression. -/
def Entry.ofPieces : List Piece → Entry
  | [.name column] => .bare column
  | [.name label, .text ".", .name column] => .place ⟨label, column⟩
  | ps => .expression ps

/-- The entry without the name it is given. -/
def Entry.read (item : List Piece) : Entry := ofPieces (item.takeWhile (· != .text " AS "))

def JoinKind.read? (sql : String) : Option JoinKind :=
  [JoinKind.inner, .left].find? (·.sql == sql)

def UnionMode.read? (sql : String) : Option UnionMode :=
  [UnionMode.union, .unionAll].find? (·.sql == sql)

/-- The joins that pieces begin with, and the pieces behind them. -/
def readJoins : List Piece → List JoinQuery × List Piece
  | ps@(.text " " :: .text kind :: .text " " :: .name table :: .text " AS " :: .name label ::
      .text " ON " :: .name keyLabel :: .text "." :: .name key :: .text " = " ::
      .name baseLabel :: .text "." :: .name base :: rest) =>
    match JoinKind.read? kind with
    | some kind =>
      let later := readJoins rest
      (⟨kind, table, label, ⟨keyLabel, key⟩, ⟨baseLabel, base⟩⟩ :: later.1, later.2)
    | none => ([], ps)
  | ps => ([], ps)

/-- The select of a list of pieces. -/
def SelectQuery.read? (ps : List Piece) : Option SelectQuery :=
  let entries := (Statement.mk ps).selectItems.map Entry.read
  match ps.dropWhile (· != .text " FROM ") with
  | _ :: .name table :: .text " AS " :: .name label :: rest =>
    let joins := readJoins rest
    some ⟨entries, table, label, joins.1, joins.2⟩
  | _ :: .name table :: rest => some ⟨entries, table, table, [], rest⟩
  | _ => none

/-- The pieces up to the parenthesis that closes the group they stand in, with the
    given number of groups open inside of it, and the pieces behind it. -/
def splitGroup (depth : Nat) : List Piece → List Piece × List Piece
  | [] => ([], [])
  | p :: rest =>
    if p = .text "(" then
      (p :: (splitGroup (depth + 1) rest).1, (splitGroup (depth + 1) rest).2)
    else if p = .text ")" then
      if depth = 0 then ([], rest)
      else (p :: (splitGroup (depth - 1) rest).1, (splitGroup (depth - 1) rest).2)
    else (p :: (splitGroup depth rest).1, (splitGroup depth rest).2)

theorem length_splitGroup (depth : Nat) (ps : List Piece) :
    (splitGroup depth ps).2.length ≤ ps.length := by
  fun_induction splitGroup depth ps <;> grind

/-- The branches that pieces begin with, and the pieces behind them. -/
def readBranches : List Piece → List (UnionMode × SelectQuery) × List Piece
  | ps@(.text " " :: .text mode :: .text " " :: .text "(" :: rest) =>
    match UnionMode.read? mode, SelectQuery.read? (splitGroup 0 rest).1 with
    | some mode, some q =>
      let later := readBranches (splitGroup 0 rest).2
      ((mode, q) :: later.1, later.2)
    | _, _ => ([], ps)
  | ps => ([], ps)
termination_by ps => ps.length
decreasing_by
  have := length_splitGroup 0 rest
  simp only [List.length_cons]
  omega

/-- The query of a list of pieces. -/
def Query.read? : List Piece → Option Query
  | .text "(" :: ps => do
    let first ← SelectQuery.read? (splitGroup 0 ps).1
    let later := readBranches (splitGroup 0 ps).2
    some (.union first later.1 later.2)
  | ps => (SelectQuery.read? ps).map .select

/-! ## Clauses behind the tables -/

/-- Pieces that go on with a filter, an order or a page, if with anything. -/
def StartsClause (ps : List Piece) : Prop :=
  ∀ p ∈ ps.head?, p ∈ [Piece.text " WHERE ", .text " ORDER BY ", .text " LIMIT "]

theorem StartsClause.append {ps qs : List Piece} (h : StartsClause ps) (next : StartsClause qs) :
    StartsClause (ps ++ qs) := by
  cases ps with
  | nil => exact next
  | cons p ps => exact h

theorem Filter.startsClause_write {s : Scope} {f : Filter} {ps : List Piece}
    (h : (f.write s).Yields () ps) : StartsClause ps := by
  rcases Filter.yields_write.1 h with ⟨-, rfl⟩ | ⟨-, tree, -, rfl⟩
  · simp [StartsClause]
  · simp [StartsClause]

theorem startsClause_writeOrder {outputs : List Output} {scope : OrderScope}
    {keys : List OrderKey} {ps : List Piece} (h : (writeOrder outputs scope keys).Yields () ps) :
    StartsClause ps := by
  rcases yields_writeOrder.1 h with ⟨-, rfl⟩ | ⟨-, pss, -, rfl⟩
  · simp [StartsClause]
  · simp [StartsClause]

theorem startsClause_writePage {paginated : Bool} {ps : List Piece}
    (h : (writePage paginated).Yields () ps) : StartsClause ps := by
  rw [yields_writePage.1 h]
  cases paginated <;> simp [StartsClause]

/-! ## Joins -/

/-- A join is that of a table in scope, and no left join if no row misses the
    table. -/
structure Seat.JoinedBy (seat : Seat) (j : JoinQuery) : Prop where
  table : j.table = seat.table.sqlName
  label : j.label = seat.label
  inner : seat.outer = false → j.kind = .inner

theorem JoinKind.read?_sql (kind : JoinKind) : JoinKind.read? kind.sql = some kind := by
  cases kind <;> decide

theorem UnionMode.read?_sql (mode : UnionMode) : UnionMode.read? mode.sql = some mode := by
  cases mode <;> decide

theorem readJoins_of_startsClause {ps : List Piece} (h : StartsClause ps) :
    readJoins ps = ([], ps) := by
  rw [readJoins]
  rintro kind table label keyLabel key baseLabel base rest rfl
  revert h
  simp [StartsClause]

theorem readJoins_writeJoins {s : Scope} {index : Nat} {js : List Join} {ps rest : List Piece}
    (joins : s.hasJoins = true) (sit : List.Forall₂ Join.SitsAt js (s.joined.drop index))
    (h : (writeJoins s index js).Yields () ps) (clause : StartsClause rest) :
    ∃ queries, readJoins (ps ++ rest) = (queries, rest) ∧
      List.Forall₂ Seat.JoinedBy (s.joined.drop index) queries := by
  induction js generalizing index ps with
  | nil =>
    obtain ⟨-, rfl⟩ := Draft.yields_pure.1 h
    rw [List.forall₂_nil_left_iff] at sit
    exact ⟨[], readJoins_of_startsClause clause, by rw [sit]; exact .nil⟩
  | cons j js ih =>
    obtain ⟨before, hjoin, behind, hrest, rfl⟩ := Draft.yields_bind_unit.1 h
    obtain ⟨seat, key, base, hseat, hkey, hbase, rfl⟩ := Join.yields_write hjoin
    obtain ⟨seat', later, place, sit', hdrop⟩ := List.forall₂_cons_left_iff.1 sit
    -- the join's own table is the next one in scope
    have found : s.joined[index]? = some seat' := by
      rw [← List.head?_drop, hdrop, List.head?_cons]
    rw [Scope.seat_of_source_join rfl found] at hseat
    cases hseat
    have tail : s.joined.drop (index + 1) = later := by
      rw [← List.tail_drop, hdrop, List.tail_cons]
    obtain ⟨queries, hread, each⟩ := ih (tail ▸ sit') hrest
    obtain ⟨keySeat, keyColumn, -, -, rfl⟩ := Scope.columnPieces_eq_ok_iff.1 hkey
    obtain ⟨baseSeat, baseColumn, -, -, rfl⟩ := Scope.columnPieces_eq_ok_iff.1 hbase
    refine ⟨⟨j.kind, j.table.sqlName, seat.label, ⟨keySeat.label, keyColumn.sqlName⟩,
      ⟨baseSeat.label, baseColumn.sqlName⟩⟩ :: queries, ?_, ?_⟩
    · simp only [joins, ↓reduceIte, List.cons_append, List.nil_append]
      rw [readJoins, JoinKind.read?_sql, hread]
    · rw [hdrop]
      exact .cons ⟨by rw [place.table], rfl, place.inner⟩ (tail ▸ each)

/-! ## Selects -/

/-- The entry of an output is what the output shows. -/
theorem Output.Legible.read_item {o : Output} (h : o.Legible) :
    Entry.read o.item = Entry.ofPieces o.expression := by
  have within : ∀ p ∈ o.expression, (p != Piece.text " AS ") = true := by
    intro p hp
    rw [bne_iff_ne]
    rintro rfl
    have word := h.words _ hp
    revert word
    decide
  rw [Entry.read, Output.item]
  split
  · rw [List.takeWhile_append_of_pos within]
    simp
  · rw [← List.append_nil o.expression, List.takeWhile_append_of_pos within, List.takeWhile_nil]

/-- A query reads a select: it shows the outputs, over the tables in scope. -/
structure SelectQuery.Reads (scope : Scope) (outputs : List Output) (q : SelectQuery) : Prop where
  entries : q.entries = outputs.map fun o => Entry.ofPieces o.expression
  table : q.table = scope.main.table.sqlName
  label : q.label = scope.main.label
  joins : List.Forall₂ Seat.JoinedBy scope.joined q.joins

theorem SelectQuery.read?_alone {ps rest : List Piece} {table : String}
    (behind : ps.dropWhile (· != .text " FROM ") = .text " FROM " :: .name table :: rest)
    (clause : StartsClause rest) :
    SelectQuery.read? ps =
      some ⟨(Statement.mk ps).selectItems.map Entry.read, table, table, [], rest⟩ := by
  rw [SelectQuery.read?, behind]
  split
  · next eq =>
    cases eq
    revert clause
    simp [StartsClause]
  · next eq =>
    cases eq
    rfl
  · next none => exact absurd rfl (none _ _ _)

theorem SelectQuery.read?_joined {ps rest : List Piece} {table label : String}
    (behind : ps.dropWhile (· != .text " FROM ") =
      .text " FROM " :: .name table :: .text " AS " :: .name label :: rest) :
    SelectQuery.read? ps =
      some ⟨(Statement.mk ps).selectItems.map Entry.read, table, label, (readJoins rest).1,
        (readJoins rest).2⟩ := by
  rw [SelectQuery.read?, behind]
  rfl

/-- A select is its list, its table, its joins and clauses. -/
theorem Select.pieces_write {naming : Naming} {main : Table} {s : Select} {outputs : List Output}
    {ps : List Piece} (h : (s.write naming main).Yields outputs ps) :
    ∃ scope list joins rest, Scope.resolve main s.joins = .ok scope ∧
      (writeSelectList scope naming {} (s.effectiveColumns main)).Yields outputs list ∧
      (writeJoins scope 0 s.joins).Yields () joins ∧ StartsClause rest ∧
      ps = [] ++ .text "SELECT " :: (List.intercalate [.text ", "] (outputs.map Output.item) ++
        .text " FROM " :: .name main.sqlName ::
          ((if scope.hasJoins then [.text " AS ", .name scope.main.label] else []) ++ joins ++
            rest)) := by
  obtain ⟨scope, list, tables, filter, order, page, hscope, -, hlist, htables, hfilter, horder,
    hpage, rfl⟩ := Select.yields_write h
  obtain ⟨joins, hjoins, rfl⟩ := Select.yields_writeTables.1 htables
  refine ⟨scope, list, joins, filter ++ (order ++ page), hscope, hlist, hjoins, ?_, ?_⟩
  · exact (Filter.startsClause_write hfilter).append
      ((startsClause_writeOrder horder).append (startsClause_writePage hpage))
  · rw [(writeSelectList_eq hlist).1]
    simp

/-- The statement of a select is read back: its outputs, over the tables in
    scope. -/
theorem Select.read?_write {naming : Naming} {main : Table} {s : Select} {outputs : List Output}
    {ps : List Piece} (h : (s.write naming main).Yields outputs ps) :
    ∃ scope list q, Scope.resolve main s.joins = .ok scope ∧
      (writeSelectList scope naming {} (s.effectiveColumns main)).Yields outputs list ∧
      SelectQuery.read? ps = some q ∧ q.Reads scope outputs := by
  have named := Select.wellNamed_write h
  obtain ⟨scope, list, joins, rest, hscope, hlist, hjoins, clause, pieces⟩ := Select.pieces_write h
  obtain ⟨hmain, -, sit⟩ := Scope.sitsAt_of_resolve hscope
  have entries : (Statement.mk ps).selectItems.map Entry.read =
      outputs.map fun o => Entry.ofPieces o.expression := by
    rw [Statement.selectItems_eq (List.forall_mem_nil _) named.nonempty named.legible pieces,
      List.map_map]
    exact List.map_congr_left fun o ho => (named.legible o ho).read_item
  have dropped : ps.dropWhile (· != .text " FROM ") = .text " FROM " :: .name main.sqlName ::
      ((if scope.hasJoins then [.text " AS ", .name scope.main.label] else []) ++ joins ++
        rest) := by
    rw [pieces, List.nil_append, List.dropWhile_cons_of_pos (by decide),
      List.dropWhile_append_of_pos (bne_from_of_mem_list named.legible),
      List.dropWhile_cons_of_neg (by decide)]
  cases joined : scope.hasJoins with
  | false =>
    have none : scope.joined = [] := by simpa [Scope.hasJoins] using joined
    rw [none, List.forall₂_nil_right_iff] at sit
    rw [sit] at hjoins
    obtain ⟨-, rfl⟩ := Draft.yields_pure.1 hjoins
    have label : scope.main.label = main.sqlName := by
      rcases (Scope.resolve_eq_ok hscope).2 with ⟨-, rfl⟩ | ⟨some_join, -⟩
      · rfl
      · exact absurd sit some_join
    rw [joined] at dropped
    exact ⟨scope, list, _, hscope, hlist, SelectQuery.read?_alone dropped clause, entries,
      by rw [hmain], label.symm, by rw [none]; exact .nil⟩
  | true =>
    obtain ⟨queries, hread, each⟩ := readJoins_writeJoins joined sit hjoins clause
    rw [joined] at dropped
    refine ⟨scope, list, _, hscope, hlist, SelectQuery.read?_joined dropped, entries,
      by rw [hmain], rfl, ?_⟩
    show List.Forall₂ Seat.JoinedBy scope.joined (readJoins (joins ++ rest)).1
    rw [hread]
    exact each

/-! ## Parentheses that match -/

/-- Whether a piece is no parenthesis of the compiler. -/
def Piece.isFlat (p : Piece) : Bool := p != .text "(" && p != .text ")"

/-- Pieces whose parentheses match: a group that they stand in goes on behind
    them. -/
def Closed (ps : List Piece) : Prop :=
  ∀ depth rest, splitGroup depth (ps ++ rest) =
    (ps ++ (splitGroup depth rest).1, (splitGroup depth rest).2)

theorem closed_nil : Closed [] := fun _ _ => rfl

theorem Closed.append {ps qs : List Piece} (hp : Closed ps) (hq : Closed qs) :
    Closed (ps ++ qs) := by
  intro depth rest
  rw [List.append_assoc, hp, hq, List.append_assoc]

theorem closed_singleton {p : Piece} (flat : p.isFlat = true) : Closed [p] := by
  intro depth rest
  simp only [Piece.isFlat, Bool.and_eq_true, bne_iff_ne] at flat
  rw [List.singleton_append, splitGroup, if_neg flat.1, if_neg flat.2, List.singleton_append]

theorem closed_of_forall {ps : List Piece} (flat : ∀ p ∈ ps, p.isFlat = true) : Closed ps := by
  induction ps with
  | nil => exact closed_nil
  | cons p ps ih =>
    rw [List.forall_mem_cons] at flat
    exact (closed_singleton flat.1).append (ih flat.2)

theorem Closed.group {ps : List Piece} (h : Closed ps) :
    Closed ([.text "("] ++ ps ++ [.text ")"]) := by
  intro depth rest
  have closing : splitGroup (depth + 1) (.text ")" :: rest) =
      (.text ")" :: (splitGroup depth rest).1, (splitGroup depth rest).2) := by
    rw [splitGroup, if_neg (by decide), if_pos rfl, if_neg (Nat.succ_ne_zero depth),
      Nat.add_sub_cancel]
  rw [List.append_assoc, List.append_assoc, List.singleton_append, splitGroup, if_pos rfl,
    List.singleton_append, h, closing]
  simp

/-- A group is split from what stands behind it. -/
theorem Closed.splitGroup_eq {ps : List Piece} (h : Closed ps) (rest : List Piece) :
    splitGroup 0 (ps ++ .text ")" :: rest) = (ps, rest) := by
  rw [h, splitGroup, if_neg (by decide), if_pos rfl, if_pos rfl, List.append_nil]

theorem closed_intercalate {pss : List (List Piece)} (each : ∀ ps ∈ pss, Closed ps) :
    Closed (List.intercalate [.text ", "] pss) := by
  induction pss with
  | nil => exact closed_nil
  | cons ps rest ih =>
    rw [List.forall_mem_cons] at each
    cases rest with
    | nil => simpa using each.1
    | cons qs rest =>
      rw [List.intercalate_cons_cons]
      exact (each.1.append (closed_singleton (by decide))).append (ih each.2)

/-- Only SQL of the compiler has its parentheses. -/
theorem closed_of_words {ps : List Piece}
    (words : ∀ w, Piece.text w ∈ ps → (Piece.text w).isFlat = true) : Closed ps := by
  refine closed_of_forall fun p hp => ?_
  cases p with
  | text w => exact words w hp
  | name s => rfl
  | value v => rfl
  | fallback v => rfl
  | raw s => rfl
  | slot b => rfl

theorem closed_columnPieces {s : Scope} {c : ColumnRef} {ps : List Piece}
    (h : s.columnPieces c = .ok ps) : Closed ps := by
  refine closed_of_words fun w hw => ?_
  obtain rfl := words_columnPieces h hw
  decide

theorem Fragment.closed_write {s : Scope} {f : Fragment} {ps : List Piece}
    (h : (f.write s).Yields () ps) : Closed ps := by
  refine closed_of_words fun w hw => ?_
  obtain rfl := words_writeParts h hw
  decide

theorem Output.Legible.closed_expression {o : Output} (h : o.Legible) : Closed o.expression := by
  refine closed_of_words fun w hw => ?_
  obtain rfl := h.words w hw
  decide

theorem Output.Legible.closed_item {o : Output} (h : o.Legible) : Closed o.item := by
  refine closed_of_words fun w hw => ?_
  rcases h.words_item hw with rfl | rfl <;> decide

theorem Operand.closed_write {s : Scope} {x : Operand} {ps : List Piece}
    (h : (x.write s).Yields () ps) : Closed ps := by
  cases x with
  | column c => exact closed_columnPieces (Scope.yields_writeColumn.1 h)
  | param p =>
    rw [Param.yields_write.1 h]
    exact closed_singleton rfl
  | literal v =>
    rw [Draft.yields_write.1 h]
    exact closed_singleton rfl
  | raw sql =>
    rw [Draft.yields_write.1 h]
    exact closed_singleton rfl

theorem closed_writeRight {s : Scope} {right : Option Operand} {ps : List Piece}
    (h : (writeRight s right).Yields () ps) : Closed ps := by
  cases right with
  | none =>
    obtain ⟨-, rfl⟩ := Draft.yields_pure.1 h
    exact closed_nil
  | some x =>
    obtain ⟨behind, hx, rfl⟩ := Draft.yields_write_bind.1 h
    exact (closed_singleton rfl).append (Operand.closed_write hx)

mutual

theorem Condition.closed_write {s : Scope} (c : Condition) {ps : List Piece}
    (h : (c.write s).Yields () ps) : Closed ps := by
  match c with
  | .compare left op right =>
    rw [Condition.write] at h
    obtain ⟨before, hleft, _, h₁, rfl⟩ := Draft.yields_bind_unit.1 h
    obtain ⟨behind, hright, rfl⟩ := Draft.yields_write_bind.1 h₁
    have words : Closed [.text " ", .text op.sql] := by
      refine closed_of_forall ?_
      cases op <;> decide
    exact (Operand.closed_write hleft).append (words.append (closed_writeRight hright))
  | .fragment f =>
    rw [Condition.write] at h
    exact f.closed_write h
  | .group connective conditions =>
    rw [Condition.write] at h
    obtain ⟨_, h₁, rfl⟩ := Draft.yields_write_bind.1 h
    obtain ⟨inner, hinner, _, hclose, rfl⟩ := Draft.yields_bind_unit.1 h₁
    rw [Draft.yields_write.1 hclose, ← List.append_assoc]
    exact (closed_writeConditions conditions hinner).group

theorem closed_writeConditions {s : Scope} {connective : Connective} (cs : List Condition)
    {ps : List Piece} (h : (writeConditions s connective cs).Yields () ps) : Closed ps := by
  match cs with
  | [] =>
    rw [writeConditions] at h
    obtain ⟨-, rfl⟩ := Draft.yields_pure.1 h
    exact closed_nil
  | [c] =>
    rw [writeConditions] at h
    exact c.closed_write h
  | c :: d :: rest =>
    rw [writeConditions] at h
    obtain ⟨before, hc, _, h₁, rfl⟩ := Draft.yields_bind_unit.1 h
    obtain ⟨behind, hrest, rfl⟩ := Draft.yields_write_bind.1 h₁
    have word : Closed [.text connective.sql] := closed_singleton (by cases connective <;> decide)
    exact (c.closed_write hc).append (word.append (closed_writeConditions (d :: rest) hrest))

end

theorem Filter.closed_write {s : Scope} {f : Filter} {ps : List Piece}
    (h : (f.write s).Yields () ps) : Closed ps := by
  rcases Filter.yields_write.1 h with ⟨-, rfl⟩ | ⟨-, tree, htree, rfl⟩
  · exact closed_nil
  · exact (closed_singleton rfl).append (closed_writeConditions _ htree)

theorem closed_writeOrder {outputs : List Output} {s : Scope}
    (legible : ∀ o ∈ outputs, o.Legible) {keys : List OrderKey} {ps : List Piece}
    (h : (writeOrder outputs (.select s) keys).Yields () ps) : Closed ps := by
  have target : ∀ t qs, (OrderTarget.write outputs (.select s) t).Yields () qs → Closed qs := by
    intro t qs ht
    rcases OrderTarget.yields_write ht with ⟨_, o, -, found, key⟩ | ⟨c, _, -, -, hcolumn⟩ |
      ⟨_, _, -, other, -⟩ | ⟨sql, -, rfl⟩
    · rcases key with ⟨-, rfl⟩ | ⟨-, -, rfl⟩
      · exact closed_singleton rfl
      · exact (legible o (mem_of_findOutput? found)).closed_expression
    · exact closed_columnPieces hcolumn
    · cases other
    · exact closed_singleton rfl
  have each : ∀ k qs, (OrderKey.write outputs (.select s) k).Yields () qs → Closed qs := by
    intro k qs hk
    obtain ⟨written, hwritten, rfl⟩ := OrderKey.yields_write.1 hk
    refine (target _ _ hwritten).append ?_
    split
    · exact closed_singleton rfl
    · exact closed_nil
  rcases yields_writeOrder.1 h with ⟨-, rfl⟩ | ⟨-, pss, hkeys, rfl⟩
  · exact closed_nil
  · exact (closed_singleton rfl).append
      (closed_intercalate (forall_of_forall₂ (fun k _ => each k) hkeys))

theorem closed_writePage {paginated : Bool} {ps : List Piece}
    (h : (writePage paginated).Yields () ps) : Closed ps := by
  rw [yields_writePage.1 h]
  refine closed_of_forall ?_
  cases paginated <;> simp [Piece.isFlat]

theorem closed_writeJoins {s : Scope} {index : Nat} {js : List Join} {ps : List Piece}
    (h : (writeJoins s index js).Yields () ps) : Closed ps := by
  induction js generalizing index ps with
  | nil =>
    obtain ⟨-, rfl⟩ := Draft.yields_pure.1 h
    exact closed_nil
  | cons j rest ih =>
    obtain ⟨before, hjoin, behind, hrest, rfl⟩ := Draft.yields_bind_unit.1 h
    obtain ⟨seat, key, base, -, hkey, hbase, rfl⟩ := Join.yields_write hjoin
    have lead : Closed [.text " ", .text j.kind.sql, .text " ", .name j.table.sqlName,
        .text " AS ", .name seat.label, .text " ON "] := by
      refine closed_of_forall ?_
      cases j.kind <;> simp [Piece.isFlat, JoinKind.sql]
    have equals : Closed [.text " = "] := closed_singleton (by decide)
    have sides := ((lead.append (closed_columnPieces hkey)).append equals).append
      (closed_columnPieces hbase)
    exact sides.append (ih hrest)

theorem Select.closed_writeTables {s : Select} {scope : Scope} {main : Table} {ps : List Piece}
    (h : (s.writeTables scope main).Yields () ps) : Closed ps := by
  obtain ⟨joins, hjoins, rfl⟩ := Select.yields_writeTables.1 h
  refine Closed.append (closed_of_forall ?_) (closed_writeJoins hjoins)
  cases scope.hasJoins <;> simp [Piece.isFlat]

theorem Select.closed_write {naming : Naming} {main : Table} {s : Select} {outputs : List Output}
    {ps : List Piece} (h : (s.write naming main).Yields outputs ps) : Closed ps := by
  have legible := (Select.wellNamed_write h).legible
  obtain ⟨scope, list, tables, filter, order, page, -, -, hlist, htables, hfilter, horder, hpage,
    rfl⟩ := Select.yields_write h
  rw [(writeSelectList_eq hlist).1]
  have items : Closed (List.intercalate [.text ", "] (outputs.map Output.item)) := by
    refine closed_intercalate fun item hitem => ?_
    obtain ⟨o, ho, rfl⟩ := List.mem_map.1 hitem
    exact (legible o ho).closed_item
  have select : Closed [.text "SELECT "] := closed_singleton (by decide)
  have head := (select.append items).append (Select.closed_writeTables htables)
  exact ((head.append (Filter.closed_write hfilter)).append
    (closed_writeOrder legible horder)).append (closed_writePage hpage)

/-! ## Unions -/

/-- A query reads a branch of a union: it shows its outputs. -/
def UnionBranch.ReadBy (naming : Naming) (b : UnionBranch) (outputs : List Output)
    (q : SelectQuery) : Prop :=
  ∃ scope list, Scope.resolve b.table b.select.joins = .ok scope ∧
    (writeSelectList scope naming {} (b.select.effectiveColumns b.table)).Yields outputs list ∧
    q.Reads scope outputs

/-- Queries read the later branches of a union, whose outputs are merged into those
    of the branches before them. -/
inductive Merged (naming : Naming) : List Output → List (UnionMode × UnionBranch) →
    List (UnionMode × SelectQuery) → List Output → Prop
  | nil (outputs : List Output) : Merged naming outputs [] [] outputs
  | cons {outputs later outputs' : List Output} {mode : UnionMode} {b : UnionBranch}
      {q : SelectQuery} {bs : List (UnionMode × UnionBranch)}
      {qs : List (UnionMode × SelectQuery)} (read : b.ReadBy naming later q)
      (count : later.length = outputs.length)
      (rest : Merged naming (List.zipWith Output.merge outputs later) bs qs outputs') :
      Merged naming outputs ((mode, b) :: bs) ((mode, q) :: qs) outputs'

/-- A branch is read back from the parentheses around it. -/
theorem UnionBranch.read?_write {naming : Naming} {b : UnionBranch} {outputs : List Output}
    {ps : List Piece} (h : (b.write naming).Yields outputs ps) :
    ∃ inner q, ps = .text "(" :: (inner ++ [.text ")"]) ∧
      (∀ rest, splitGroup 0 (inner ++ .text ")" :: rest) = (inner, rest)) ∧
      SelectQuery.read? inner = some q ∧ b.ReadBy naming outputs q := by
  obtain ⟨inner, hinner, rfl⟩ := UnionBranch.yields_write h
  obtain ⟨scope, list, q, hscope, hlist, hread, reads⟩ := Select.read?_write hinner
  exact ⟨inner, q, by simp, (Select.closed_write hinner).splitGroup_eq, hread, scope, list, hscope,
    hlist, reads⟩

theorem readBranches_of_startsClause {ps : List Piece} (h : StartsClause ps) :
    readBranches ps = ([], ps) := by
  rw [readBranches]
  rintro mode rest rfl
  revert h
  simp [StartsClause]

theorem readBranches_writeBranches {naming : Naming} {outputs outputs' : List Output}
    {number : Nat} {bs : List (UnionMode × UnionBranch)} {ps rest : List Piece}
    (h : (writeBranches naming outputs number bs).Yields outputs' ps)
    (clause : StartsClause rest) :
    ∃ qs, readBranches (ps ++ rest) = (qs, rest) ∧ Merged naming outputs bs qs outputs' := by
  induction bs generalizing outputs number ps with
  | nil =>
    obtain ⟨rfl, rfl⟩ := Draft.yields_pure.1 h
    exact ⟨[], readBranches_of_startsClause clause, .nil _⟩
  | cons mb bs ih =>
    obtain ⟨mode, b⟩ := mb
    obtain ⟨later, branch, tail, hbranch, count, htail, rfl⟩ := yields_writeBranches_cons h
    obtain ⟨inner, q, rfl, split, hread, reads⟩ := UnionBranch.read?_write hbranch
    obtain ⟨qs, hqs, merged⟩ := ih htail
    refine ⟨(mode, q) :: qs, ?_, .cons reads count merged⟩
    simp only [List.append_assoc, List.cons_append, List.nil_append]
    rw [readBranches, split (tail ++ rest), UnionMode.read?_sql, hread, hqs]

/-! ## Statements -/

theorem Query.read?_select {naming : Naming} {main : Table} {s : Select} {outputs : List Output}
    {ps : List Piece} (h : (s.write naming main).Yields outputs ps) :
    ∃ q, Query.read? ps = some (.select q) ∧
      UnionBranch.ReadBy naming ⟨main, s⟩ outputs q := by
  obtain ⟨scope, list, q, hscope, hlist, hread, reads⟩ := Select.read?_write h
  refine ⟨q, ?_, scope, list, hscope, hlist, reads⟩
  obtain ⟨rest, rfl⟩ := Select.list_write h
  rw [Query.read?, hread]
  · rfl
  · intro ps eq
    simp at eq

theorem Query.read?_union {naming : Naming} {u : Union} {outputs : List Output}
    {ps : List Piece} (h : (u.write naming).Yields outputs ps) :
    ∃ first later head q qs rest, u.branches = first :: later.map (·.2) ∧
      Query.read? ps = some (.union q qs rest) ∧ first.ReadBy naming head q ∧
      Merged naming head later qs outputs := by
  obtain ⟨first, later, head, branch, branches, order, page, hsplit, hfirst, hlater, -, horder,
    hpage, rfl⟩ := Union.yields_write h
  obtain ⟨inner, q, rfl, split, hread, reads⟩ := UnionBranch.read?_write hfirst
  obtain ⟨qs, hqs, merged⟩ := readBranches_writeBranches hlater
    ((startsClause_writeOrder horder).append (startsClause_writePage hpage))
  refine ⟨first, later, head, q, qs, order ++ page, (Union.split_eq_ok hsplit).1, ?_, reads,
    merged⟩
  simp only [List.append_assoc, List.cons_append, List.nil_append]
  rw [Query.read?, split, hread, hqs]
  rfl

end Bindery
