import Bindery.Statement.Prepared
import Bindery.Proofs.Outcome

/-!
# What drafts write

A draft that ends without a fault yields a result and the pieces it has written.
Every writer of a statement is opened here once, as the parts it yields in the
order of the text; later proofs take a statement apart by these lemmas and do not
unfold the writers again.

* `Draft.yields_bind`: what a draft yields that goes on with another one.
* `Select.yields_write`, `Union.yields_write`: the parts of a select and a union.
* `Insert.yields_write`, `Update.yields_write`, `Delete.yields_write`: the parts
  of a write.
-/

namespace Bindery

namespace Draft

variable {α β : Type}

/-- The draft ends without a fault, with result `a` and the pieces `ps`. -/
def Yields (x : Draft α) (a : α) (ps : List Piece) : Prop := x.result = .ok a ∧ x.pieces = ps

@[simp] theorem yields_pure {a b : α} {ps : List Piece} :
    (pure a : Draft α).Yields b ps ↔ a = b ∧ ps = [] := by
  simp [Yields, eq_comm]

@[simp] theorem yields_write {qs ps : List Piece} {u : Unit} :
    (write qs).Yields u ps ↔ ps = qs := by
  simp [Yields, write, eq_comm]

@[simp] theorem not_yields_fail {fault : Fault} {a : α} {ps : List Piece} :
    ¬ (fail fault : Draft α).Yields a ps := by
  simp [Yields, fail]

@[simp] theorem yields_lift {r : Except Fault α} {a : α} {ps : List Piece} :
    (liftM r : Draft α).Yields a ps ↔ r = .ok a ∧ ps = [] := by
  show (ofExcept r).Yields a ps ↔ _
  simp [Yields, ofExcept, eq_comm]

@[simp low] theorem yields_bind {x : Draft α} {f : α → Draft β} {b : β} {ps : List Piece} :
    (x >>= f).Yields b ps ↔
      ∃ a before, x.Yields a before ∧ ∃ behind, (f a).Yields b behind ∧ ps = before ++ behind := by
  cases h : x.result with
  | error fault => simp [bind_of_error h, Yields, h]
  | ok a =>
    rw [bind_of_ok h]
    constructor
    · rintro ⟨hb, rfl⟩
      exact ⟨a, x.pieces, ⟨h, rfl⟩, (f a).pieces, ⟨hb, rfl⟩, rfl⟩
    · rintro ⟨a', _, ⟨ha, rfl⟩, _, ⟨hb, rfl⟩, rfl⟩
      rw [h] at ha
      cases ha
      exact ⟨hb, rfl⟩

@[simp] theorem yields_lift_bind {r : Except Fault α} {f : α → Draft β} {b : β} {ps : List Piece} :
    ((liftM r : Draft α) >>= f).Yields b ps ↔ ∃ a, r = .ok a ∧ (f a).Yields b ps := by
  rw [yields_bind]
  constructor
  · rintro ⟨a, _, hr, behind, hb, rfl⟩
    obtain ⟨ha, rfl⟩ := yields_lift.1 hr
    exact ⟨a, ha, by simpa using hb⟩
  · rintro ⟨a, hr, hb⟩
    exact ⟨a, [], yields_lift.2 ⟨hr, rfl⟩, ps, hb, rfl⟩

@[simp] theorem yields_write_bind {qs : List Piece} {f : Unit → Draft β} {b : β}
    {ps : List Piece} :
    (write qs >>= f).Yields b ps ↔ ∃ behind, (f ()).Yields b behind ∧ ps = qs ++ behind := by
  rw [yields_bind]
  constructor
  · rintro ⟨_, _, hq, behind, hb, rfl⟩
    exact ⟨behind, hb, by rw [yields_write.1 hq]⟩
  · rintro ⟨behind, hb, rfl⟩
    exact ⟨(), qs, yields_write.2 rfl, behind, hb, rfl⟩

@[simp] theorem not_yields_fail_bind {fault : Fault} {f : α → Draft β} {b : β} {ps : List Piece} :
    ¬ ((fail fault : Draft α) >>= f).Yields b ps := by
  rw [yields_bind]
  rintro ⟨_, _, h, _⟩
  exact not_yields_fail h

@[simp 500] theorem yields_bind_unit {x : Draft Unit} {f : Unit → Draft β} {b : β}
    {ps : List Piece} :
    (x >>= f).Yields b ps ↔
      ∃ before, x.Yields () before ∧ ∃ behind, (f ()).Yields b behind ∧ ps = before ++ behind := by
  rw [yields_bind]
  constructor
  · rintro ⟨⟨⟩, before, h⟩
    exact ⟨before, h⟩
  · rintro ⟨before, h⟩
    exact ⟨(), before, h⟩

/-- A draft may be settled when it yields a result and its parameters agree. -/
theorem settle_eq_ok_iff_yields {x : Draft α} {a : α} {s : Statement} :
    x.settle = .ok (a, s) ↔ conflict? s.bindings = none ∧ x.Yields a s.pieces := by
  rw [settle_eq_ok_iff]
  constructor
  · rintro ⟨agree, result, rfl⟩
    exact ⟨agree, result, rfl⟩
  · rintro ⟨agree, result, pieces⟩
    obtain ⟨ps⟩ := s
    cases pieces
    exact ⟨agree, result, rfl⟩

/-- Drafts that all yield, one after the other, yield their pieces with the
    separator between every two. -/
theorem yields_separated {separator : String} {xs : List (Draft Unit)} {u : Unit}
    {ps : List Piece} :
    (separated separator xs).Yields u ps ↔
      ∃ pss, List.Forall₂ (fun x qs => x.Yields () qs) xs pss ∧
        ps = List.intercalate [.text separator] pss := by
  fun_induction separated separator xs generalizing ps with
  | case1 => simp [List.intercalate]
  | case2 x =>
    constructor
    · intro h
      exact ⟨[ps], .cons h .nil, by simp [List.intercalate]⟩
    · rintro ⟨_, h, rfl⟩
      obtain ⟨qs, _, hx, hnil, rfl⟩ := List.forall₂_cons_left_iff.1 h
      cases hnil
      simpa [List.intercalate] using hx
  | case3 x rest nonempty ih =>
    rw [yields_bind]
    simp only [yields_write_bind, ih]
    constructor
    · rintro ⟨_, before, h, _, ⟨behind, ⟨pss, hs, rfl⟩, rfl⟩, rfl⟩
      refine ⟨before :: pss, .cons h hs, ?_⟩
      cases hs with
      | nil => exact absurd rfl nonempty
      | cons _ _ => simp [List.intercalate]
    · rintro ⟨_, h, rfl⟩
      obtain ⟨qs, pss, hx, hs, rfl⟩ := List.forall₂_cons_left_iff.1 h
      refine ⟨(), qs, hx, _, ⟨_, ⟨pss, hs, rfl⟩, rfl⟩, ?_⟩
      cases hs with
      | nil => exact absurd rfl nonempty
      | cons _ _ => simp [List.intercalate]

theorem yields_separated_map {γ : Type} {separator : String} {f : γ → Draft Unit} {xs : List γ}
    {u : Unit} {ps : List Piece} :
    (separated separator (xs.map f)).Yields u ps ↔
      ∃ pss, List.Forall₂ (fun x qs => (f x).Yields () qs) xs pss ∧
        ps = List.intercalate [.text separator] pss := by
  rw [yields_separated]
  simp only [List.forall₂_map_left_iff]

end Draft

/-! ## Columns and filters -/

@[simp] theorem Scope.yields_writeColumn {s : Scope} {c : ColumnRef} {u : Unit}
    {ps : List Piece} : (s.writeColumn c).Yields u ps ↔ s.columnPieces c = .ok ps := by
  simp [Scope.writeColumn]

/-- The pieces of a column are its name, and the label of its table before it if
    there are joins. -/
theorem Scope.columnPieces_eq_ok_iff {s : Scope} {c : ColumnRef} {ps : List Piece} :
    s.columnPieces c = .ok ps ↔
      ∃ seat column, s.seat c = .ok seat ∧ seat.table.column c.column = .ok column ∧
        ps = if s.hasJoins then [.name seat.label, .text ".", .name column.sqlName]
          else [.name column.sqlName] := by
  simp only [Scope.columnPieces, bind_eq_ok_iff, pure_eq_ok_iff]
  constructor
  · rintro ⟨seat, hseat, column, hcolumn, rfl⟩
    exact ⟨seat, column, hseat, hcolumn, rfl⟩
  · rintro ⟨seat, column, hseat, hcolumn, rfl⟩
    exact ⟨seat, hseat, column, hcolumn, rfl⟩

@[simp] theorem Param.yields_write {p : Param} {origin : Origin} {u : Unit} {ps : List Piece} :
    (p.write origin).Yields u ps ↔ ps = [.slot (p.bind origin)] := by
  simp [Param.write]

/-- A filter without conditions writes nothing; any other one its conditions
    behind `WHERE`. -/
theorem Filter.yields_write {s : Scope} {f : Filter} {u : Unit} {ps : List Piece} :
    (f.write s).Yields u ps ↔
      (f.conditions = [] ∧ ps = []) ∨
      (f.conditions ≠ [] ∧ ∃ tree, (writeConditions s f.connective f.conditions).Yields () tree ∧
        ps = .text " WHERE " :: tree) := by
  by_cases h : f.conditions = []
  · simp [Filter.write, Filter.isEmpty, h]
  · simp [Filter.write, Filter.isEmpty, h]

/-! ## Orders and pages -/

theorem mem_of_findOutput? {outputs : List Output} {name : String} {o : Output}
    (h : findOutput? outputs name = some o) : o ∈ outputs := by
  obtain ⟨i, -, hi⟩ := Option.bind_eq_some_iff.1 h
  exact List.mem_of_getElem? hi

/-- An order key is the name of an output, what an unnamed output of a select
    shows, a column of a select, or SQL taken as it is. -/
theorem OrderTarget.yields_write {outputs : List Output} {scope : OrderScope} {t : OrderTarget}
    {u : Unit} {ps : List Piece} (h : (t.write outputs scope).Yields u ps) :
    (∃ name o, t = .output name ∧ findOutput? outputs name = some o ∧
      ((o.named = true ∨ scope = .union) ∧ ps = [.name o.name] ∨
        o.named = false ∧ (∃ s, scope = .select s) ∧ ps = o.expression)) ∨
    (∃ c s, t = .column c ∧ scope = .select s ∧ s.columnPieces c = .ok ps) ∨
    (∃ c o, t = .column c ∧ scope = .union ∧ outputs.find? (·.source == some c) = some o ∧
      ps = [.name o.name]) ∨
    ∃ sql, t = .raw sql ∧ ps = [.raw sql] := by
  cases t with
  | output name =>
    rw [OrderTarget.write] at h
    split at h
    · next o found =>
      refine .inl ⟨name, o, rfl, found, ?_⟩
      cases scope with
      | union => exact .inl ⟨.inr rfl, Draft.yields_write.1 h⟩
      | select s =>
        rw [Output.writeKey] at h
        cases named : o.named with
        | true =>
          rw [named] at h
          exact .inl ⟨.inl rfl, Draft.yields_write.1 h⟩
        | false =>
          rw [named] at h
          exact .inr ⟨rfl, ⟨s, rfl⟩, Draft.yields_write.1 h⟩
    · exact absurd h Draft.not_yields_fail
  | column c =>
    cases scope with
    | select s => exact .inr (.inl ⟨c, s, rfl, rfl, Scope.yields_writeColumn.1 h⟩)
    | union =>
      rw [OrderTarget.write] at h
      split at h
      · next o found => exact .inr (.inr (.inl ⟨c, o, rfl, rfl, found, Draft.yields_write.1 h⟩))
      · exact absurd h Draft.not_yields_fail
  | raw sql => exact .inr (.inr (.inr ⟨sql, rfl, Draft.yields_write.1 h⟩))

theorem OrderKey.yields_write {outputs : List Output} {scope : OrderScope} {k : OrderKey}
    {u : Unit} {ps : List Piece} :
    (k.write outputs scope).Yields u ps ↔
      ∃ target, (k.target.write outputs scope).Yields () target ∧
        ps = target ++ if k.descending then [.text " DESC"] else [] := by
  cases h : k.descending <;> simp [OrderKey.write, h]

/-- An order without keys writes nothing; any other one its keys, separated. -/
theorem yields_writeOrder {outputs : List Output} {scope : OrderScope} {keys : List OrderKey}
    {u : Unit} {ps : List Piece} :
    (writeOrder outputs scope keys).Yields u ps ↔
      (keys = [] ∧ ps = []) ∨
      (keys ≠ [] ∧ ∃ pss,
        List.Forall₂ (fun k qs => (OrderKey.write outputs scope k).Yields () qs) keys pss ∧
        ps = .text " ORDER BY " :: List.intercalate [.text ", "] pss) := by
  cases keys with
  | nil => simp [writeOrder]
  | cons k rest =>
    simp only [writeOrder, Draft.yields_write_bind, Draft.yields_separated_map]
    simp

theorem yields_writePage {paginated : Bool} {u : Unit} {ps : List Piece} :
    (writePage paginated).Yields u ps ↔
      ps = if paginated then [.text " LIMIT ", .slot (limitParam.bind .pagination),
        .text " OFFSET ", .slot (offsetParam.bind .pagination)] else [] := by
  cases paginated <;> simp [writePage]

/-! ## Selects and unions -/

/-- The output of a column shows its pieces under a name from the allocator. -/
theorem columnOutput_eq_ok {s : Scope} {naming : Naming} {names names' : Name.Allocator}
    {c : ColumnRef} {outputName : Option String} {o : Output}
    (h : columnOutput s naming names c outputName = .ok (o, names')) :
    ∃ column base, s.column c = .ok column ∧ s.columnPieces c = .ok o.expression ∧
      (outputName = some base ∨ outputName = none ∧ s.outputName naming c = .ok base) ∧
      s.isOuter c = .ok o.outer ∧
      names.allocate base = ((o.name, (names.allocate base).1.2), names') ∧
      o.named = (s.hasJoins || outputName.isSome || (names.allocate base).1.2 ||
        o.name != column.sqlName) ∧
      o.source = some c ∧ o.type = column.type.valueType := by
  simp only [columnOutput, bind_eq_ok_iff] at h
  obtain ⟨column, hcolumn, expression, hexpression, h⟩ := h
  cases outputName with
  | some name =>
    simp only [bind_eq_ok_iff, pure_eq_ok_iff] at h
    obtain ⟨base, rfl, outer, houter, h⟩ := h
    cases h
    exact ⟨column, name, hcolumn, hexpression, .inl rfl, houter, rfl, rfl, rfl, rfl⟩
  | none =>
    simp only [bind_eq_ok_iff, pure_eq_ok_iff] at h
    obtain ⟨base, hbase, outer, houter, h⟩ := h
    cases h
    exact ⟨column, base, hcolumn, hexpression, .inr ⟨rfl, hbase⟩, houter, rfl, rfl, rfl, rfl⟩

/-- The output of an expression shows its fragment, settled alone, under a name
    from the allocator. -/
theorem expressionOutput_eq_ok {s : Scope} {names names' : Name.Allocator} {f : Fragment}
    {outputName : String} {type : Option ColumnType} {o : Output}
    (h : expressionOutput s names f outputName type = .ok (o, names')) :
    conflict? (Statement.mk o.expression).bindings = none ∧
      (f.write s).Yields () o.expression ∧ o.named = true ∧ o.source = f.singleColumn? ∧
      expressionType s outputName f.singleColumn? type = .ok o.type ∧
      names.allocate outputName = ((o.name, (names.allocate outputName).1.2), names') := by
  simp only [expressionOutput, bind_eq_ok_iff] at h
  obtain ⟨type', htype, h⟩ := h
  cases hsingle : f.singleColumn? with
  | some c =>
    simp only [hsingle, bind_eq_ok_iff, pure_eq_ok_iff] at h htype
    obtain ⟨outer, -, ⟨_, statement⟩, hsettle, h⟩ := h
    obtain ⟨agree, yields⟩ := Draft.settle_eq_ok_iff_yields.1 hsettle
    cases h
    exact ⟨agree, yields, rfl, rfl, htype, rfl⟩
  | none =>
    simp only [hsingle, bind_eq_ok_iff, pure_eq_ok_iff] at h htype
    obtain ⟨outer, -, ⟨_, statement⟩, hsettle, h⟩ := h
    obtain ⟨agree, yields⟩ := Draft.settle_eq_ok_iff_yields.1 hsettle
    cases h
    exact ⟨agree, yields, rfl, rfl, htype, rfl⟩

theorem yields_writeSelectList_cons {s : Scope} {naming : Naming} {names : Name.Allocator}
    {c : SelectColumn} {rest : List SelectColumn} {outputs : List Output} {ps : List Piece}
    (h : (writeSelectList s naming names (c :: rest)).Yields outputs ps) :
    ∃ o names' later tail, c.output s naming names = .ok (o, names') ∧
      (writeSelectList s naming names' rest).Yields later tail ∧ outputs = o :: later ∧
      ps = o.item ++ (if rest = [] then [] else [.text ", "]) ++ tail := by
  rw [writeSelectList, Draft.yields_lift_bind] at h
  obtain ⟨⟨o, names'⟩, houtput, h₁⟩ := h
  obtain ⟨behind, h₂, rfl⟩ := Draft.yields_write_bind.1 h₁
  cases rest with
  | nil =>
    obtain ⟨later, tail, hlater, _, h₃, rfl⟩ := Draft.yields_bind.1 h₂
    obtain ⟨rfl, rfl⟩ := Draft.yields_pure.1 h₃
    exact ⟨o, names', later, tail, houtput, hlater, rfl, by simp⟩
  | cons c' rest' =>
    obtain ⟨_, h₃, rfl⟩ := Draft.yields_write_bind.1 h₂
    obtain ⟨later, tail, hlater, _, h₄, rfl⟩ := Draft.yields_bind.1 h₃
    obtain ⟨rfl, rfl⟩ := Draft.yields_pure.1 h₄
    exact ⟨o, names', later, tail, houtput, hlater, rfl, by simp⟩

/-- A join is its table under its label, and the condition that its key equals
    the base column. -/
theorem Join.yields_write {s : Scope} {index : Nat} {j : Join} {u : Unit} {ps : List Piece}
    (h : (j.write s index).Yields u ps) :
    ∃ seat key base, s.seat (.ofJoin index j.key) = .ok seat ∧
      s.columnPieces (.ofJoin index j.key) = .ok key ∧ s.columnPieces j.base = .ok base ∧
      ps = [.text " ", .text j.kind.sql, .text " ", .name j.table.sqlName, .text " AS ",
        .name seat.label, .text " ON "] ++ key ++ [.text " = "] ++ base := by
  obtain ⟨seat, hseat, h₁⟩ := Draft.yields_lift_bind.1 h
  obtain ⟨_, h₂, rfl⟩ := Draft.yields_write_bind.1 h₁
  obtain ⟨key, hkey, _, h₃, rfl⟩ := Draft.yields_bind_unit.1 h₂
  obtain ⟨base, hbase, rfl⟩ := Draft.yields_write_bind.1 h₃
  refine ⟨seat, key, base, hseat, ?_, ?_, by simp⟩
  · exact Scope.yields_writeColumn.1 hkey
  · exact Scope.yields_writeColumn.1 hbase

/-- The tables of a select are its main table and its joins. -/
theorem Select.yields_writeTables {s : Select} {scope : Scope} {main : Table} {u : Unit}
    {ps : List Piece} :
    (s.writeTables scope main).Yields u ps ↔
      ∃ joins, (writeJoins scope 0 s.joins).Yields () joins ∧
        ps = [.text " FROM ", .name main.sqlName] ++
          (if scope.hasJoins then [.text " AS ", .name scope.main.label] else []) ++ joins := by
  cases h : scope.hasJoins <;> simp [Select.writeTables, h]

/-- A select is its list, its tables, its filter, its order and its page. -/
theorem Select.yields_write {naming : Naming} {main : Table} {s : Select} {outputs : List Output}
    {ps : List Piece} (h : (s.write naming main).Yields outputs ps) :
    ∃ scope list tables filter order page, Scope.resolve main s.joins = .ok scope ∧
      checkArity s.mode (s.effectiveColumns main).length = .ok () ∧
      (writeSelectList scope naming {} (s.effectiveColumns main)).Yields outputs list ∧
      (s.writeTables scope main).Yields () tables ∧ (s.filter.write scope).Yields () filter ∧
      (writeOrder outputs (.select scope) s.orderBy).Yields () order ∧
      (writePage s.paginated).Yields () page ∧
      ps = [.text "SELECT "] ++ list ++ tables ++ filter ++ order ++ page := by
  obtain ⟨scope, hscope, h₁⟩ := Draft.yields_lift_bind.1 h
  obtain ⟨⟨⟩, harity, h₂⟩ := Draft.yields_lift_bind.1 h₁
  obtain ⟨_, h₃, rfl⟩ := Draft.yields_write_bind.1 h₂
  obtain ⟨outputs', list, hlist, _, h₄, rfl⟩ := Draft.yields_bind.1 h₃
  obtain ⟨tables, htables, _, h₅, rfl⟩ := Draft.yields_bind_unit.1 h₄
  obtain ⟨filter, hfilter, _, h₆, rfl⟩ := Draft.yields_bind_unit.1 h₅
  obtain ⟨order, horder, _, h₇, rfl⟩ := Draft.yields_bind_unit.1 h₆
  obtain ⟨page, hpage, _, h₈, rfl⟩ := Draft.yields_bind_unit.1 h₇
  obtain ⟨rfl, rfl⟩ := Draft.yields_pure.1 h₈
  exact ⟨scope, list, tables, filter, order, page, hscope, harity, hlist, htables, hfilter,
    horder, hpage, by simp⟩

/-- A branch of a union is the select it would be alone, between parentheses. -/
theorem UnionBranch.yields_write {naming : Naming} {b : UnionBranch} {outputs : List Output}
    {ps : List Piece} (h : (b.write naming).Yields outputs ps) :
    ∃ inner, (b.select.write naming b.table).Yields outputs inner ∧
      ps = [.text "("] ++ inner ++ [.text ")"] := by
  obtain ⟨⟨outputs', statement⟩, hsettle, h₁⟩ := Draft.yields_lift_bind.1 h
  obtain ⟨_, h₂, rfl⟩ := Draft.yields_write_bind.1 h₁
  obtain ⟨rfl, rfl⟩ := Draft.yields_pure.1 h₂
  exact ⟨statement.pieces, (Draft.settle_eq_ok_iff_yields.1 hsettle).2, by simp⟩

theorem yields_writeBranches_cons {naming : Naming} {outputs outputs' : List Output}
    {number : Nat} {mode : UnionMode} {b : UnionBranch} {rest : List (UnionMode × UnionBranch)}
    {ps : List Piece}
    (h : (writeBranches naming outputs number ((mode, b) :: rest)).Yields outputs' ps) :
    ∃ later branch tail, (b.write naming).Yields later branch ∧ later.length = outputs.length ∧
      (writeBranches naming (List.zipWith Output.merge outputs later) (number + 1) rest).Yields
        outputs' tail ∧
      ps = [.text " ", .text mode.sql, .text " "] ++ branch ++ tail := by
  rw [writeBranches] at h
  obtain ⟨_, h₁, rfl⟩ := Draft.yields_write_bind.1 h
  obtain ⟨later, branch, hbranch, _, h₂, rfl⟩ := Draft.yields_bind.1 h₁
  by_cases hlength : later.length = outputs.length
  · simp only [hlength, ne_eq, not_true_eq_false, ↓reduceIte] at h₂
    exact ⟨later, branch, _, hbranch, hlength, h₂, by simp⟩
  · simp [hlength] at h₂

/-- A union that is split has its first branch, and every later one behind its
    mode. -/
theorem Union.split_eq_ok {u : Union} {first : UnionBranch} {later : List (UnionMode × UnionBranch)}
    (h : u.split = .ok (first, later)) :
    u.branches = first :: later.map (·.2) ∧ u.modes = later.map (·.1) ∧ later ≠ [] := by
  unfold Union.split at h
  split at h
  · next first' second rest hbranches =>
    split at h
    · next hmodes =>
      cases h
      have hlength : u.modes.length = (second :: rest).length := by simpa using hmodes
      refine ⟨?_, (List.map_fst_zip (Nat.le_of_eq hlength)).symm, ?_⟩
      · rw [hbranches, List.map_snd_zip (Nat.le_of_eq hlength.symm)]
      · intro hnil
        have := congrArg List.length hnil
        simp [hmodes] at this
    · cases h
  · cases h

/-- A union is its first branch, its later branches, its order and its page. -/
theorem Union.yields_write {naming : Naming} {u : Union} {outputs : List Output}
    {ps : List Piece} (h : (u.write naming).Yields outputs ps) :
    ∃ first later head branch branches order page, u.split = .ok (first, later) ∧
      (first.write naming).Yields head branch ∧
      (writeBranches naming head 2 later).Yields outputs branches ∧
      checkArity u.mode outputs.length = .ok () ∧
      (writeOrder outputs .union u.orderBy).Yields () order ∧
      (writePage u.paginated).Yields () page ∧ ps = branch ++ branches ++ order ++ page := by
  obtain ⟨⟨first, later⟩, hsplit, h₁⟩ := Draft.yields_lift_bind.1 h
  obtain ⟨head, branch, hbranch, _, h₂, rfl⟩ := Draft.yields_bind.1 h₁
  obtain ⟨outputs', branches, hbranches, _, h₃, rfl⟩ := Draft.yields_bind.1 h₂
  obtain ⟨⟨⟩, harity, h₄⟩ := Draft.yields_lift_bind.1 h₃
  obtain ⟨order, horder, _, h₅, rfl⟩ := Draft.yields_bind_unit.1 h₄
  obtain ⟨page, hpage, _, h₆, rfl⟩ := Draft.yields_bind_unit.1 h₅
  obtain ⟨rfl, rfl⟩ := Draft.yields_pure.1 h₆
  exact ⟨first, later, head, branch, branches, order, page, hsplit, hbranch, hbranches, harity,
    horder, hpage, by simp⟩

/-! ## Writes -/

/-- Assigned columns come in the order of the assignments, each with the value it
    is assigned. -/
theorem assignedTargets_eq_ok {table : Table} {earlier ts : List Target} {as : List Assignment}
    (h : assignedTargets table earlier as = .ok ts) :
    ∃ added, ts = earlier ++ added ∧
      List.Forall₂ (fun a t => table.column a.column = .ok t.column ∧ t.value = a.value)
        as added := by
  induction as generalizing earlier with
  | nil =>
    cases h
    exact ⟨[], by simp, .nil⟩
  | cons a rest ih =>
    rw [assignedTargets] at h
    obtain ⟨column, hcolumn, h₁⟩ := bind_eq_ok_iff.1 h
    split at h₁
    · cases h₁
    · obtain ⟨added, rfl, each⟩ := ih h₁
      exact ⟨⟨column, a.value⟩ :: added, by simp, .cons ⟨hcolumn, rfl⟩ each⟩

/-- The columns that are set are those assigned and, if asked, those that get
    their defaults; at least one is set. -/
theorem targets_eq_ok {table : Table} {as : List Assignment} {fill : Bool} {skip : Column → Bool}
    {ts : List Target} (h : targets table as fill skip = .ok ts) :
    ∃ assigned,
      List.Forall₂ (fun a t => table.column a.column = .ok t.column ∧ t.value = a.value)
        as assigned ∧
      ts = assigned ++ (if fill then defaultTargets table assigned skip else []) ∧ ts ≠ [] := by
  rw [targets] at h
  obtain ⟨assigned, hassigned, h₁⟩ := bind_eq_ok_iff.1 h
  obtain ⟨_, rfl, each⟩ := assignedTargets_eq_ok hassigned
  have all_eq : (if fill then assigned ++ defaultTargets table assigned skip else assigned) =
      assigned ++ if fill then defaultTargets table assigned skip else [] := by
    cases fill <;> simp
  simp only [all_eq] at h₁
  refine ⟨assigned, each, ?_⟩
  generalize assigned ++ (if fill then defaultTargets table assigned skip else []) = all at h₁ ⊢
  split at h₁
  · cases h₁
  · next nonempty =>
    cases h₁
    exact ⟨rfl, fun empty => nonempty (by rw [empty]; rfl)⟩

/-- The value of a column is a parameter, a fragment or the default of the
    column. -/
theorem Target.yields_writeValue {s : Scope} {t : Target} {u : Unit} {ps : List Piece}
    (h : (t.writeValue s).Yields u ps) :
    (∃ p, t.value = .param p ∧ ps = [.slot (p.bind .assignment)]) ∨
    (∃ f, t.value = .fragment f ∧ (f.write s).Yields () ps) ∨
    ∃ v, t.value = .default ∧ t.column.fallback? = some v ∧ ps = [.fallback v] := by
  rw [Target.writeValue] at h
  cases value : t.value with
  | param p =>
    rw [value] at h
    exact .inl ⟨p, rfl, Param.yields_write.1 h⟩
  | fragment f =>
    rw [value] at h
    exact .inr (.inl ⟨f, rfl, h⟩)
  | default =>
    rw [value] at h
    dsimp only at h
    split at h
    · next v fallback => exact .inr (.inr ⟨v, rfl, fallback, Draft.yields_write.1 h⟩)
    · exact absurd h Draft.not_yields_fail

theorem Target.yields_writeAssignment {s : Scope} {t : Target} {u : Unit} {ps : List Piece}
    (h : (t.writeAssignment s).Yields u ps) :
    ∃ column value, s.columnPieces (.ofMain t.column.name) = .ok column ∧
      (t.writeValue s).Yields () value ∧ ps = column ++ [.text " = "] ++ value := by
  obtain ⟨column, hcolumn, _, h₁, rfl⟩ := Draft.yields_bind_unit.1 h
  obtain ⟨value, hvalue, rfl⟩ := Draft.yields_write_bind.1 h₁
  exact ⟨column, value, Scope.yields_writeColumn.1 hcolumn, hvalue, by simp⟩

theorem settleTargets_eq_ok {draft : Draft (List Target)} {s : Statement}
    (h : settleTargets draft = .ok s) :
    ∃ ts, draft.settle = .ok (ts, s) ∧ shadowedDefault? (s.bindings.map (·.name)) ts = none := by
  rw [settleTargets] at h
  obtain ⟨⟨ts, statement⟩, hsettle, h₁⟩ := bind_eq_ok_iff.1 h
  dsimp only at h₁
  split at h₁
  · cases h₁
  · next unshadowed =>
    cases h₁
    exact ⟨ts, hsettle, unshadowed⟩

theorem Insert.yields_write {table : Table} {i : Insert} {ts : List Target} {ps : List Piece}
    (h : (i.write table).Yields ts ps) :
    ∃ scope names values, Scope.resolve table [] = .ok scope ∧
      targets table i.assignments i.fillDefaults (·.type.autoIncrement) = .ok ts ∧
      List.Forall₂ (fun t qs => qs = [.name t.column.sqlName]) ts names ∧
      List.Forall₂ (fun t qs => (Target.writeValue scope t).Yields () qs) ts values ∧
      ps = [.text "INSERT INTO ", .name table.sqlName, .text " ("] ++
        List.intercalate [.text ", "] names ++ [.text ") VALUES ("] ++
        List.intercalate [.text ", "] values ++ [.text ")"] := by
  obtain ⟨scope, hscope, h₁⟩ := Draft.yields_lift_bind.1 h
  obtain ⟨ts', htargets, h₂⟩ := Draft.yields_lift_bind.1 h₁
  obtain ⟨_, h₃, rfl⟩ := Draft.yields_write_bind.1 h₂
  obtain ⟨_, hnames, _, h₄, rfl⟩ := Draft.yields_bind_unit.1 h₃
  obtain ⟨_, h₅, rfl⟩ := Draft.yields_write_bind.1 h₄
  obtain ⟨_, hvalues, _, h₆, rfl⟩ := Draft.yields_bind_unit.1 h₅
  obtain ⟨_, h₇, rfl⟩ := Draft.yields_write_bind.1 h₆
  obtain ⟨rfl, rfl⟩ := Draft.yields_pure.1 h₇
  obtain ⟨names, each_name, rfl⟩ := Draft.yields_separated_map.1 hnames
  obtain ⟨values, each_value, rfl⟩ := Draft.yields_separated_map.1 hvalues
  exact ⟨scope, names, values, hscope, htargets, by simpa using each_name, each_value,
    by simp⟩

theorem Update.yields_write {table : Table} {u : Update} {ts : List Target} {ps : List Piece}
    (h : (u.write table).Yields ts ps) :
    ∃ scope sets filter, checkRestricted "UPDATE" u.filter u.unrestricted = .ok () ∧
      Scope.resolve table [] = .ok scope ∧
      targets table u.assignments u.fillDefaults (·.type.primaryKey) = .ok ts ∧
      List.Forall₂ (fun t qs => (Target.writeAssignment scope t).Yields () qs) ts sets ∧
      (u.filter.write scope).Yields () filter ∧
      ps = [.text "UPDATE ", .name table.sqlName, .text " SET "] ++
        List.intercalate [.text ", "] sets ++ filter := by
  obtain ⟨⟨⟩, hrestricted, h₁⟩ := Draft.yields_lift_bind.1 h
  obtain ⟨scope, hscope, h₂⟩ := Draft.yields_lift_bind.1 h₁
  obtain ⟨ts', htargets, h₃⟩ := Draft.yields_lift_bind.1 h₂
  obtain ⟨_, h₄, rfl⟩ := Draft.yields_write_bind.1 h₃
  obtain ⟨_, hsets, _, h₅, rfl⟩ := Draft.yields_bind_unit.1 h₄
  obtain ⟨filter, hfilter, _, h₆, rfl⟩ := Draft.yields_bind_unit.1 h₅
  obtain ⟨rfl, rfl⟩ := Draft.yields_pure.1 h₆
  obtain ⟨sets, each_set, rfl⟩ := Draft.yields_separated_map.1 hsets
  exact ⟨scope, sets, filter, hrestricted, hscope, htargets, each_set, hfilter, by simp⟩

theorem Delete.yields_write {table : Table} {d : Delete} {u : Unit} {ps : List Piece}
    (h : (d.write table).Yields u ps) :
    ∃ scope filter, checkRestricted "DELETE" d.filter d.unrestricted = .ok () ∧
      Scope.resolve table [] = .ok scope ∧ (d.filter.write scope).Yields () filter ∧
      ps = [.text "DELETE FROM ", .name table.sqlName] ++ filter := by
  obtain ⟨⟨⟩, hrestricted, h₁⟩ := Draft.yields_lift_bind.1 h
  obtain ⟨scope, hscope, h₂⟩ := Draft.yields_lift_bind.1 h₁
  obtain ⟨filter, hfilter, rfl⟩ := Draft.yields_write_bind.1 h₂
  exact ⟨scope, filter, hrestricted, hscope, hfilter, by simp⟩

/-! ## Tasks -/

theorem prepareRows_eq_ok {kind kind' : ActionKind} {draft : Draft (List Output)}
    {statement : Statement} {shape : Option Shape}
    (h : prepareRows kind draft = .ok (kind', statement, shape)) :
    ∃ outputs, draft.settle = .ok (outputs, statement) ∧ kind' = kind ∧
      shape = some (.ofOutputs outputs) := by
  obtain ⟨⟨outputs, _⟩, hsettle, h₁⟩ := bind_eq_ok_iff.1 h
  cases h₁
  exact ⟨outputs, hsettle, rfl, rfl⟩

/-- The statement of a task is that of its draft when it is settled. -/
theorem Task.settle_of_prepare {naming : Naming} {table : Table} {task : Task} {kind : ActionKind}
    {statement : Statement} {shape : Option Shape}
    (h : task.prepare naming table = .ok (kind, statement, shape)) :
    match task with
    | .select s => ∃ outputs, (s.write naming table).settle = .ok (outputs, statement)
    | .union u => ∃ outputs, (u.write naming).settle = .ok (outputs, statement)
    | .insert i => ∃ ts, (i.write table).settle = .ok (ts, statement)
    | .update u => ∃ ts, (u.write table).settle = .ok (ts, statement)
    | .delete d => (d.write table).settle = .ok ((), statement) := by
  cases task with
  | select s =>
    obtain ⟨outputs, hsettle, -⟩ := prepareRows_eq_ok h
    exact ⟨outputs, hsettle⟩
  | union u =>
    obtain ⟨outputs, hsettle, -⟩ := prepareRows_eq_ok h
    exact ⟨outputs, hsettle⟩
  | insert i =>
    obtain ⟨_, hstatement, h₁⟩ := bind_eq_ok_iff.1 h
    cases h₁
    obtain ⟨ts, hsettle, -⟩ := settleTargets_eq_ok hstatement
    exact ⟨ts, hsettle⟩
  | update u =>
    obtain ⟨_, hstatement, h₁⟩ := bind_eq_ok_iff.1 h
    cases h₁
    obtain ⟨ts, hsettle, -⟩ := settleTargets_eq_ok hstatement
    exact ⟨ts, hsettle⟩
  | delete d =>
    obtain ⟨_, hstatement, h₁⟩ := bind_eq_ok_iff.1 h
    cases h₁
    obtain ⟨⟨⟨⟩, _⟩, hsettle, rfl⟩ := map_eq_ok_iff.1 hstatement
    exact hsettle

/-- The draft behind the statement of a task yields its pieces. -/
theorem Task.yields_of_prepare {naming : Naming} {table : Table} {task : Task} {kind : ActionKind}
    {statement : Statement} {shape : Option Shape}
    (h : task.prepare naming table = .ok (kind, statement, shape)) :
    match task with
    | .select s => ∃ outputs, (s.write naming table).Yields outputs statement.pieces
    | .union u => ∃ outputs, (u.write naming).Yields outputs statement.pieces
    | .insert i => ∃ ts, (i.write table).Yields ts statement.pieces
    | .update u => ∃ ts, (u.write table).Yields ts statement.pieces
    | .delete d => (d.write table).Yields () statement.pieces := by
  have settled := settle_of_prepare h
  cases task with
  | select s => exact settled.imp fun _ hsettle => (Draft.settle_eq_ok_iff_yields.1 hsettle).2
  | union u => exact settled.imp fun _ hsettle => (Draft.settle_eq_ok_iff_yields.1 hsettle).2
  | insert i => exact settled.imp fun _ hsettle => (Draft.settle_eq_ok_iff_yields.1 hsettle).2
  | update u => exact settled.imp fun _ hsettle => (Draft.settle_eq_ok_iff_yields.1 hsettle).2
  | delete d => exact (Draft.settle_eq_ok_iff_yields.1 settled).2

/-! ## Actions -/

theorem Action.prepare_perform_eq_ok {naming : Naming} {name : String} {table : Table} {task : Task}
    {p : Prepared} (h : (Action.perform name table task).prepare naming = .ok p) :
    task.prepare naming table = .ok (p.kind, p.statement, p.shape) ∧ p.fixed = [] := by
  rw [Action.prepare] at h
  obtain ⟨⟨kind, statement, shape⟩, htask, h₁⟩ := bind_eq_ok_iff.1 h
  cases h₁
  exact ⟨htask, rfl⟩

/-- A wrapper has the statement of the action it wraps. -/
theorem Action.prepare_wrap_eq_ok {naming : Naming} {name : String} {table : Table}
    {inner : Action} {args : List (String × Value)} {p : Prepared}
    (h : (Action.wrap name table inner args).prepare naming = .ok p) :
    ∃ q, inner.prepare naming = .ok q ∧ p.statement = q.statement ∧ p.kind = q.kind ∧
      p.shape = q.shape ∧
      fixArguments (q.statement.bindings.map (·.name)) q.fixed args = .ok p.fixed := by
  rw [Action.prepare] at h
  obtain ⟨q, hinner, h₁⟩ := bind_eq_ok_iff.1 h
  obtain ⟨fixed, hfixed, h₂⟩ := bind_eq_ok_iff.1 h₁
  cases h₂
  exact ⟨q, hinner, rfl, rfl, rfl, hfixed⟩

end Bindery
