import Bindery.Proofs.Statement.Acceptance

/-!
# Unions and their branches

A union is put together from selects that are settled one by one, so what it is
depends on its branches only through what each of them is alone. It compiles if
and only if they do and go together, and its statement is theirs between
parentheses, with the modes between them and its own order and page behind.

* `Union.yields_write_iff`: a union in terms of its settled branches.
* `Union.Composes`: the checks of a union, on its branches compiled alone.
* `Union.compile_composes`: they decide whether it compiles, and its text,
  parameters and field names are put together from those of the branches.
-/

namespace Bindery

/-- Outputs with the statement that shows them. -/
abbrev Rows := List Output × Statement

/-- Two lists that are related member by member through a third thing are related
    through a list of these. -/
theorem exists_forall₂_between {α β γ : Type} {R : α → β → Prop} {S : β → γ → Prop} {xs : List α}
    {zs : List γ} (h : List.Forall₂ (fun x z => ∃ y, R x y ∧ S y z) xs zs) :
    ∃ ys, List.Forall₂ R xs ys ∧ List.Forall₂ S ys zs := by
  induction h with
  | nil => exact ⟨[], .nil, .nil⟩
  | cons related _ ih =>
    obtain ⟨y, before, behind⟩ := related
    obtain ⟨ys, hbefore, hbehind⟩ := ih
    exact ⟨y :: ys, .cons before hbefore, .cons behind hbehind⟩

/-! ## Settled branches -/

/-- The branch settles as the given rows. -/
def UnionBranch.Settles (naming : Naming) (b : UnionBranch) (r : Rows) : Prop :=
  (b.select.write naming b.table).settle = .ok r

/-- Pieces between parentheses. -/
def inParentheses (ps : List Piece) : List Piece := [.text "("] ++ ps ++ [.text ")"]

theorem UnionBranch.yields_write_iff {naming : Naming} {b : UnionBranch} {outputs : List Output}
    {ps : List Piece} :
    (b.write naming).Yields outputs ps ↔
      ∃ s, b.Settles naming (outputs, s) ∧ ps = inParentheses s.pieces := by
  rw [UnionBranch.write, Draft.yields_lift_bind]
  constructor
  · rintro ⟨⟨outputs', s⟩, settled, h⟩
    obtain ⟨_, h₁, rfl⟩ := Draft.yields_write_bind.1 h
    obtain ⟨rfl, rfl⟩ := Draft.yields_pure.1 h₁
    exact ⟨s, settled, List.append_nil _⟩
  · rintro ⟨s, settled, rfl⟩
    refine ⟨(outputs, s), settled, Draft.yields_write_bind.2 ⟨[], ?_, (List.append_nil _).symm⟩⟩
    exact Draft.yields_pure.2 ⟨rfl, rfl⟩

/-- Outputs merged with those of later branches. -/
def mergeAll (outputs : List Output) (rows : List Rows) : List Output :=
  rows.foldl (fun merged r => List.zipWith Output.merge merged r.1) outputs

theorem length_zipWith_merge {outputs later : List Output} (h : later.length = outputs.length) :
    (List.zipWith Output.merge outputs later).length = outputs.length := by
  rw [List.length_zipWith, h, Nat.min_self]

/-- Merging changes nothing but what a row may lack. -/
theorem map_inner_mergeAll {outputs : List Output} {rows : List Rows}
    (width : ∀ r ∈ rows, r.1.length = outputs.length) :
    (mergeAll outputs rows).map Output.inner = outputs.map Output.inner := by
  induction rows generalizing outputs with
  | nil => rfl
  | cons r rest ih =>
    obtain ⟨width_r, width_rest⟩ := List.forall_mem_cons.1 width
    rw [← map_inner_zipWith_merge width_r]
    refine ih fun r' hr' => ?_
    rw [width_rest r' hr', length_zipWith_merge width_r]

theorem branchPieces_cons (mode : UnionMode) (modes : List UnionMode) (ps : List Piece)
    (pss : List (List Piece)) :
    branchPieces (mode :: modes) (ps :: pss) =
      [.text " ", .text mode.sql, .text " "] ++ ps ++ branchPieces modes pss := by
  simp [branchPieces]

/-- Later branches are written if each of them settles with as many outputs as the
    first. -/
theorem yields_writeBranches_iff {naming : Naming} {outputs outputs' : List Output} {number : Nat}
    {bs : List (UnionMode × UnionBranch)} {ps : List Piece} :
    (writeBranches naming outputs number bs).Yields outputs' ps ↔
      ∃ rows, List.Forall₂ (UnionBranch.Settles naming) (bs.map (·.2)) rows ∧
        (∀ r ∈ rows, r.1.length = outputs.length) ∧ outputs' = mergeAll outputs rows ∧
        ps = branchPieces (bs.map (·.1)) (rows.map fun r => inParentheses r.2.pieces) := by
  induction bs generalizing outputs number ps with
  | nil =>
    rw [writeBranches, Draft.yields_pure]
    constructor
    · rintro ⟨rfl, rfl⟩
      exact ⟨[], .nil, by simp, rfl, rfl⟩
    · rintro ⟨_, ⟨⟩, -, rfl, rfl⟩
      exact ⟨rfl, rfl⟩
  | cons mb rest ih =>
    obtain ⟨mode, b⟩ := mb
    constructor
    · intro h
      obtain ⟨later, branch, tail, hbranch, count, htail, rfl⟩ := yields_writeBranches_cons h
      obtain ⟨s, settled, rfl⟩ := UnionBranch.yields_write_iff.1 hbranch
      obtain ⟨rows, each, width, rfl, rfl⟩ := ih.1 htail
      refine ⟨(later, s) :: rows, .cons settled each, ?_, rfl, (branchPieces_cons ..).symm⟩
      rw [List.forall_mem_cons]
      refine ⟨count, fun r hr => ?_⟩
      rw [width r hr, length_zipWith_merge count]
    · rintro ⟨_, each, width, rfl, rfl⟩
      obtain ⟨⟨later, s⟩, rows, settled, settle_rest, rfl⟩ := List.forall₂_cons_left_iff.1 each
      obtain ⟨count, width_rest⟩ := List.forall_mem_cons.1 width
      have tail : (writeBranches naming (List.zipWith Output.merge outputs later) (number + 1)
          rest).Yields (mergeAll outputs ((later, s) :: rows))
            (branchPieces (rest.map (·.1)) (rows.map fun r => inParentheses r.2.pieces)) := by
        refine ih.2 ⟨rows, settle_rest, fun r hr => ?_, rfl, rfl⟩
        rw [width_rest r hr, length_zipWith_merge count]
      rw [writeBranches, Draft.yields_write_bind]
      refine ⟨inParentheses s.pieces ++ branchPieces (rest.map (·.1))
        (rows.map fun r => inParentheses r.2.pieces), ?_, by
          simpa using branchPieces_cons ..⟩
      rw [Draft.yields_bind]
      refine ⟨later, inParentheses s.pieces, UnionBranch.yields_write_iff.2 ⟨s, settled, rfl⟩,
        _, ?_, rfl⟩
      have same_width : later.length = outputs.length := count
      simpa [same_width] using tail

/-- A union with two branches or more and a mode between every two is split. -/
theorem Union.split_of_lengths {u : Union} {first : UnionBranch} {rest : List UnionBranch}
    (branches : u.branches = first :: rest) (several : 2 ≤ u.branches.length)
    (joined : u.modes.length + 1 = u.branches.length) :
    u.split = .ok (first, u.modes.zip rest) := by
  cases rest with
  | nil =>
    rw [branches] at several
    exact absurd several (by simp)
  | cons second rest =>
    rw [branches] at joined
    have modes : u.modes.length = rest.length + 1 := by simpa using joined
    simp [Union.split, branches, modes]

/-- The pieces of the bounds of a page. -/
def pagePieces (paginated : Bool) : List Piece :=
  if paginated then [.text " LIMIT ", .slot (limitParam.bind .pagination), .text " OFFSET ",
    .slot (offsetParam.bind .pagination)] else []

/-- The pieces of a union whose branches are the given rows. -/
def Union.pieces (u : Union) (head : Rows) (rows : List Rows) (order : List Piece) : List Piece :=
  inParentheses head.2.pieces ++
    branchPieces u.modes (rows.map fun r => inParentheses r.2.pieces) ++ order ++
    pagePieces u.paginated

/-- A union is written if its branches settle with equally many outputs and its
    order is written for the outputs of the first. -/
theorem Union.yields_write_iff {naming : Naming} {u : Union} {outputs : List Output}
    {ps : List Piece} :
    (u.write naming).Yields outputs ps ↔
      2 ≤ u.branches.length ∧ u.modes.length + 1 = u.branches.length ∧
      ∃ head rows order,
        List.Forall₂ (UnionBranch.Settles naming) u.branches (head :: rows) ∧
        (∀ r ∈ rows, r.1.length = head.1.length) ∧ outputs = mergeAll head.1 rows ∧
        (u.mode = .field → outputs.length = 1) ∧
        (writeOrder outputs .union u.orderBy).Yields () order ∧
        ps = u.pieces head rows order := by
  constructor
  · intro h
    obtain ⟨first, later, head, branch, branches, order, page, hsplit, hfirst, hlater, harity,
      horder, hpage, rfl⟩ := Union.yields_write h
    obtain ⟨all, modes, several⟩ := Union.split_eq_ok hsplit
    obtain ⟨s, settled, rfl⟩ := UnionBranch.yields_write_iff.1 hfirst
    obtain ⟨rows, each, width, rfl, rfl⟩ := yields_writeBranches_iff.1 hlater
    obtain rfl := yields_writePage.1 hpage
    have count := List.length_pos_iff.2 several
    refine ⟨by simp [all]; omega, by simp [all, modes], (head, s), rows, order, ?_, width, rfl,
      checkArity_eq_ok_iff.1 harity, horder, by rw [Union.pieces, modes]; rfl⟩
    rw [all]
    exact .cons settled each
  · rintro ⟨several, joined, ⟨head, s⟩, rows, order, each, width, rfl, single, horder, rfl⟩
    obtain ⟨first, rest, settled, settle_rest, all⟩ := List.forall₂_cons_right_iff.1 each
    have modes : u.modes.length = rest.length := by simpa [all] using joined
    have tail : (writeBranches naming head 2 (u.modes.zip rest)).Yields (mergeAll head rows)
        (branchPieces u.modes (rows.map fun r => inParentheses r.2.pieces)) := by
      refine yields_writeBranches_iff.2 ⟨rows, ?_, width, rfl, ?_⟩
      · rwa [List.map_snd_zip (Nat.le_of_eq modes.symm)]
      · rw [List.map_fst_zip (Nat.le_of_eq modes)]
    rw [Union.write, Draft.yields_lift_bind]
    refine ⟨_, Union.split_of_lengths all several joined, ?_⟩
    rw [Draft.yields_bind, Union.pieces, List.append_assoc, List.append_assoc]
    refine ⟨head, _, UnionBranch.yields_write_iff.2 ⟨s, settled, rfl⟩, _, ?_, rfl⟩
    rw [Draft.yields_bind]
    refine ⟨_, _, tail, _, ?_, rfl⟩
    rw [Draft.yields_lift_bind]
    refine ⟨(), checkArity_eq_ok_iff.2 single, ?_⟩
    rw [Draft.yields_bind_unit]
    refine ⟨order, horder, pagePieces u.paginated, ?_, rfl⟩
    rw [Draft.yields_bind_unit]
    exact ⟨_, yields_writePage.2 rfl, [], Draft.yields_pure.2 ⟨rfl, rfl⟩, by simp [pagePieces]⟩

/-! ## Orders -/

/-- The SQL of an order key of a union, by the fields of its first branch: a field
    found by name or by the column it shows, or SQL taken as it is. -/
def OrderTarget.unionSql? (d : Dialect) (shape : Shape) : OrderTarget → Option String
  | .output name => (shape.field? name).map fun f => d.quote f.2.name
  | .column c => (shape.fields.find? (·.source == some c)).map fun f => d.quote f.name
  | .raw sql => some sql

/-- The SQL of an order key of a union with its direction. -/
def OrderKey.unionSql? (d : Dialect) (shape : Shape) (k : OrderKey) : Option String :=
  (k.target.unionSql? d shape).map (· ++ if k.descending then " DESC" else "")

/-- An `ORDER BY` clause of the given keys. -/
def orderSql : List String → String
  | [] => ""
  | keys => " ORDER BY " ++ String.intercalate ", " keys

variable {d : Dialect}

theorem OrderTarget.unionSql?_ofOutputs (outputs : List Output) (t : OrderTarget) :
    t.unionSql? d (.ofOutputs outputs) =
      match t with
      | .output name => (findOutput? outputs name).map fun o => d.quote o.name
      | .column c => (outputs.find? (·.source == some c)).map fun o => d.quote o.name
      | .raw sql => some sql := by
  cases t with
  | output name =>
    simp [unionSql?, Shape.field?, Shape.ofOutputs, findOutput?, Option.map_bind, Function.comp_def,
      Output.field]
  | column c => simp [unionSql?, Shape.ofOutputs, List.find?_map, Function.comp_def, Output.field]
  | raw sql => rfl

/-- An order key of a union finds the same fields whatever rows may lack. -/
theorem OrderTarget.unionSql?_of_map_inner {outputs outputs' : List Output}
    (same : outputs'.map Output.inner = outputs.map Output.inner) (t : OrderTarget) :
    t.unionSql? d (.ofOutputs outputs') = t.unionSql? d (.ofOutputs outputs) := by
  have inner : ∀ os : List Output,
      t.unionSql? d (.ofOutputs (os.map Output.inner)) = t.unionSql? d (.ofOutputs os) := by
    intro os
    simp only [unionSql?_ofOutputs]
    cases t with
    | output name =>
      simp [findOutput?, Option.map_bind, Function.comp_def, Output.inner]
    | column c => simp [List.find?_map, Function.comp_def, Output.inner]
    | raw sql => rfl
  rw [← inner outputs', same, inner]

theorem OrderTarget.yields_write_union {outputs : List Output} {t : OrderTarget} {sql : String} :
    (∃ ps, (t.write outputs .union).Yields () ps ∧ piecesSql d ps = sql) ↔
      t.unionSql? d (.ofOutputs outputs) = some sql := by
  rw [unionSql?_ofOutputs]
  cases t with
  | output name =>
    cases found : findOutput? outputs name with
    | none => simp [OrderTarget.write, found]
    | some o => simp [OrderTarget.write, found, Output.writeKey, piecesSql, Piece.sql]
  | column c =>
    cases found : outputs.find? (·.source == some c) with
    | none => simp [OrderTarget.write, found]
    | some o => simp [OrderTarget.write, found, piecesSql, Piece.sql]
  | raw sql => simp [OrderTarget.write, piecesSql, Piece.sql]

theorem OrderKey.yields_write_union {outputs : List Output} {k : OrderKey} {sql : String} :
    (∃ ps, (k.write outputs .union).Yields () ps ∧ piecesSql d ps = sql) ↔
      k.unionSql? d (.ofOutputs outputs) = some sql := by
  rw [OrderKey.unionSql?, Option.map_eq_some_iff]
  simp only [OrderKey.yields_write, ← OrderTarget.yields_write_union]
  have direction : piecesSql d (if k.descending then [.text " DESC"] else []) =
      if k.descending then " DESC" else "" := by
    cases k.descending <;> simp [piecesSql, Piece.sql]
  constructor
  · rintro ⟨_, ⟨target, htarget, rfl⟩, rfl⟩
    exact ⟨_, ⟨target, htarget, rfl⟩, by rw [piecesSql_append, direction]⟩
  · rintro ⟨_, ⟨target, htarget, rfl⟩, rfl⟩
    exact ⟨_, ⟨target, htarget, rfl⟩, by rw [piecesSql_append, direction]⟩

theorem piecesSql_orderClause (written : List (List Piece)) :
    piecesSql d (orderClause written) = orderSql (written.map (piecesSql d)) := by
  cases written with
  | nil => rfl
  | cons ps pss =>
    show piecesSql d ([.text " ORDER BY "] ++ List.intercalate [.text ", "] (ps :: pss)) = _
    rw [piecesSql_append, piecesSql_intercalate]
    simp [orderSql, piecesSql, Piece.sql]

/-- The order of a union is written if its keys find fields, and shows these. -/
theorem yields_writeOrder_union {outputs : List Output} {keys : List OrderKey} {sql : String} :
    (∃ ps, (writeOrder outputs .union keys).Yields () ps ∧ piecesSql d ps = sql) ↔
      ∃ texts, List.Forall₂ (fun k t => k.unionSql? d (.ofOutputs outputs) = some t) keys texts ∧
        sql = orderSql texts := by
  simp only [yields_writeOrder_iff_clause, ← OrderKey.yields_write_union]
  constructor
  · rintro ⟨_, ⟨pss, each, rfl⟩, rfl⟩
    refine ⟨pss.map (piecesSql d), ?_, piecesSql_orderClause pss⟩
    rw [List.forall₂_map_right_iff]
    exact each.imp fun k ps h => ⟨ps, h, rfl⟩
  · rintro ⟨texts, each, rfl⟩
    obtain ⟨pss, written, shown⟩ := exists_forall₂_between each
    rw [← List.forall₂_map_left_iff, List.forall₂_eq_eq_eq] at shown
    obtain rfl := shown
    exact ⟨_, ⟨pss, written, rfl⟩, piecesSql_orderClause pss⟩

/-! ## Compiled rows -/

/-- A compiled action has the text, the parameters and the shape of rows. -/
structure Compiled.Shows (d : Dialect) (c : Compiled) (r : Rows) : Prop where
  sql_eq : c.sql = r.2.sql d
  params_eq : c.params = r.2.bindings
  shape_eq : c.shape = some (.ofOutputs r.1)

section Rows

variable {o : Options} {name : String} {table : Table} {task : Task} {kind : ActionKind}
  {draft : Draft (List Output)}

theorem Action.settle_of_compile (rows : task.prepare o.naming table = prepareRows kind draft)
    {c : Compiled} (h : (Action.perform name table task).compile o = .ok c) :
    ∃ r, draft.settle = .ok r ∧ c.Shows o.dialect r := by
  obtain ⟨p, hp, rfl⟩ := Action.compile_eq_ok_iff.1 h
  obtain ⟨htask, -⟩ := Action.prepare_perform_eq_ok hp
  rw [rows] at htask
  obtain ⟨outputs, settled, -, shape⟩ := prepareRows_eq_ok htask
  exact ⟨(outputs, p.statement), settled, rfl, rfl, shape⟩

theorem Action.compile_of_settle (rows : task.prepare o.naming table = prepareRows kind draft)
    {r : Rows} (h : draft.settle = .ok r) :
    ∃ c, (Action.perform name table task).compile o = .ok c ∧ c.Shows o.dialect r := by
  have prepared : task.prepare o.naming table = .ok (kind, r.2, some (.ofOutputs r.1)) := by
    rw [rows]
    exact bind_eq_ok_iff.2 ⟨r, h, rfl⟩
  exact ⟨_, Action.compile_eq_ok_iff.2 ⟨_, bind_eq_ok_iff.2 ⟨_, prepared, rfl⟩, rfl⟩, rfl, rfl, rfl⟩

end Rows

/-- The branch compiled alone, as a select on its own table. -/
def UnionBranch.compileAlone (o : Options) (name : String) (b : UnionBranch) :
    Except Fault Compiled :=
  (Action.perform name b.table (.select b.select)).compile o

theorem UnionBranch.exists_settles {o : Options} {name : String} {bs : List UnionBranch}
    {cs : List Compiled} (h : List.Forall₂ (fun b c => b.compileAlone o name = .ok c) bs cs) :
    ∃ rows, List.Forall₂ (UnionBranch.Settles o.naming) bs rows ∧
      List.Forall₂ (fun r c => c.Shows o.dialect r) rows cs :=
  exists_forall₂_between (h.imp fun _ _ alone => Action.settle_of_compile rfl alone)

theorem UnionBranch.exists_compileAlone {o : Options} (name : String) {bs : List UnionBranch}
    {rows : List Rows} (h : List.Forall₂ (UnionBranch.Settles o.naming) bs rows) :
    ∃ cs, List.Forall₂ (fun b c => b.compileAlone o name = .ok c) bs cs ∧
      List.Forall₂ (fun c r => c.Shows o.dialect r) cs rows :=
  exists_forall₂_between (h.imp fun _ _ settled => Action.compile_of_settle rfl settled)

/-! ## The composition of a union -/

/-- What a union is put together from: its branches compiled alone, the fields of
    the first and the SQL of the order keys. -/
structure UnionParts where
  first : Compiled
  later : List Compiled
  shape : Shape
  keys : List String

/-- The parameters of the branches and the bounds of a page. -/
def UnionParts.params (parts : UnionParts) (u : Union) : List Binding :=
  parts.first.params ++ parts.later.flatMap (·.params) ++ pageOccurrences u.paginated

/-- The branches between parentheses, with the modes between them, the order and
    the bounds of a page. -/
def UnionParts.sql (parts : UnionParts) (u : Union) : String :=
  "(" ++ parts.first.sql ++ ")" ++
    String.join (List.zipWith (fun m c => " " ++ m.sql ++ " " ++ "(" ++ c.sql ++ ")") u.modes
      parts.later) ++
    orderSql parts.keys ++ if u.paginated then " LIMIT ? OFFSET ?" else ""

/-- The checks of a union, on its branches compiled alone under some name. -/
structure Union.Composes (o : Options) (branchName : String) (u : Union) (parts : UnionParts) :
    Prop where
  /-- There are two branches or more. -/
  several : 2 ≤ u.branches.length
  /-- There is a mode between every two branches. -/
  joined : u.modes.length + 1 = u.branches.length
  /-- Every branch compiles alone. -/
  alone : List.Forall₂ (fun b c => b.compileAlone o branchName = .ok c) u.branches
    (parts.first :: parts.later)
  shape_eq : parts.first.shape = some parts.shape
  /-- The branches have equally many fields. -/
  width : ∀ c ∈ parts.later, ∃ s, c.shape = some s ∧ s.fields.length = parts.shape.fields.length
  /-- Parameters of one name have one type in all branches and in the page. -/
  agree : Agree (parts.params u)
  /-- The order keys find fields of the first branch. -/
  ordered : List.Forall₂ (fun k sql => k.unionSql? o.dialect parts.shape = some sql) u.orderBy
    parts.keys
  /-- A single value has one field. -/
  single : u.mode = .field → parts.shape.fields.length = 1

theorem piecesSql_inParentheses (ps : List Piece) :
    piecesSql d (inParentheses ps) = "(" ++ piecesSql d ps ++ ")" := by
  simp [inParentheses, piecesSql, Piece.sql, String.append_assoc]

theorem slots_inParentheses (ps : List Piece) : slots (inParentheses ps) = slots ps := by
  simp [inParentheses]

theorem piecesSql_pagePieces (paginated : Bool) :
    piecesSql d (pagePieces paginated) = if paginated then " LIMIT ? OFFSET ?" else "" := by
  cases paginated <;> rfl

theorem slots_pagePieces (paginated : Bool) :
    slots (pagePieces paginated) = pageOccurrences paginated := by
  cases paginated <;> rfl

theorem piecesSql_branchPieces {modes : List UnionMode} {rows : List Rows} {cs : List Compiled}
    (shown : List.Forall₂ (fun r c => c.Shows d r) rows cs) :
    piecesSql d (branchPieces modes (rows.map fun r => inParentheses r.2.pieces)) =
      String.join
        (List.zipWith (fun m c => " " ++ m.sql ++ " " ++ "(" ++ c.sql ++ ")") modes cs) := by
  induction shown generalizing modes with
  | nil => simp [branchPieces, piecesSql]
  | @cons r c rows cs first _ ih =>
    cases modes with
    | nil => simp [branchPieces, piecesSql]
    | cons m modes =>
      have sql_eq : c.sql = piecesSql d r.2.pieces := first.sql_eq
      rw [List.map_cons, branchPieces_cons, piecesSql_append, piecesSql_append, ih,
        piecesSql_inParentheses, ← sql_eq, List.zipWith_cons_cons, String.join_cons]
      simp only [piecesSql, Piece.sql, List.map_cons, List.map_nil, String.join_cons,
        String.join_nil, String.append_empty, String.append_assoc]

theorem slots_branchPieces {modes : List UnionMode} {rows : List Rows} {cs : List Compiled}
    (shown : List.Forall₂ (fun r c => c.Shows d r) rows cs) (count : modes.length = rows.length) :
    slots (branchPieces modes (rows.map fun r => inParentheses r.2.pieces)) =
      cs.flatMap (·.params) := by
  induction shown generalizing modes with
  | nil => simp [branchPieces]
  | @cons r c rows cs first _ ih =>
    obtain ⟨m, modes, rfl⟩ := List.exists_cons_of_length_eq_add_one count
    have params_eq : c.params = slots r.2.pieces := first.params_eq
    rw [List.map_cons, branchPieces_cons, slots_append, ih (by simpa using count)]
    simp [slots_inParentheses, params_eq]

section Composition

variable {o : Options} {branchName : String} {u : Union} {parts : UnionParts} {head : Rows}
  {rows : List Rows} {order : List Piece}

theorem UnionParts.sql_eq_piecesSql
    (shown : List.Forall₂ (fun r c => c.Shows d r) (head :: rows) (parts.first :: parts.later))
    (ordered : piecesSql d order = orderSql parts.keys) :
    piecesSql d (u.pieces head rows order) = parts.sql u := by
  obtain ⟨first, later⟩ := List.forall₂_cons.1 shown
  have sql_eq : parts.first.sql = piecesSql d head.2.pieces := first.sql_eq
  rw [Union.pieces, piecesSql_append, piecesSql_append, piecesSql_append, piecesSql_inParentheses,
    piecesSql_branchPieces later, piecesSql_pagePieces, ordered, ← sql_eq]
  rfl

theorem UnionParts.params_eq_slots
    (shown : List.Forall₂ (fun r c => c.Shows d r) (head :: rows) (parts.first :: parts.later))
    (count : u.modes.length = rows.length) (ordered : slots order = []) :
    slots (u.pieces head rows order) = parts.params u := by
  obtain ⟨first, later⟩ := List.forall₂_cons.1 shown
  have params_eq : parts.first.params = slots head.2.pieces := first.params_eq
  rw [Union.pieces, slots_append, slots_append, slots_append, slots_inParentheses,
    slots_branchPieces later count, slots_pagePieces, ordered, ← params_eq, List.append_nil]
  rfl

/-- The parameters in the pieces of a union are those of its parts. -/
theorem Union.slots_pieces (settled : List.Forall₂ (UnionBranch.Settles o.naming) u.branches
      (head :: rows))
    (shown : List.Forall₂ (fun r c => c.Shows d r) (head :: rows) (parts.first :: parts.later))
    (joined : u.modes.length + 1 = u.branches.length) {outputs : List Output}
    (ordered : (writeOrder outputs .union u.orderBy).Yields () order) :
    slots (u.pieces head rows order) = parts.params u := by
  have count : u.modes.length = rows.length := by
    simpa [settled.length_eq] using joined
  exact UnionParts.params_eq_slots shown count (slots_writeOrder (by intro _ h; cases h) ordered)

/-- A union whose checks hold settles, put together from its parts. -/
theorem Union.Composes.settles (h : u.Composes o branchName parts) :
    ∃ r : Rows, (u.write o.naming).settle = .ok r ∧ r.2.sql o.dialect = parts.sql u ∧
      r.2.bindings = parts.params u ∧
      (Shape.ofOutputs r.1).fields.map (·.name) = parts.shape.fields.map (·.name) := by
  obtain ⟨all, settled, shown⟩ := UnionBranch.exists_settles h.alone
  obtain ⟨head, rows, first, later, rfl⟩ := List.forall₂_cons_right_iff.1 shown
  have shape_eq : parts.shape = .ofOutputs head.1 := by
    have same := h.shape_eq.symm.trans first.shape_eq
    exact Option.some.inj same
  have width : ∀ r ∈ rows, r.1.length = head.1.length := by
    refine forall_of_forall₂ (fun c hc r shows => ?_) later.flip
    obtain ⟨s, hs, count⟩ := h.width c hc
    rw [shows.shape_eq] at hs
    cases hs
    simpa [shape_eq, Shape.ofOutputs] using count
  have same := map_inner_mergeAll width
  have single : u.mode = .field → (mergeAll head.1 rows).length = 1 := by
    intro field
    have count := congrArg List.length same
    rw [List.length_map, List.length_map] at count
    rw [count]
    simpa [shape_eq, Shape.ofOutputs] using h.single field
  -- Keys are looked up in the merged outputs, which show the same fields as the first branch.
  have ordered : List.Forall₂ (fun k sql => k.unionSql? o.dialect
      (.ofOutputs (mergeAll head.1 rows)) = some sql) u.orderBy parts.keys := by
    refine h.ordered.imp fun k sql found => ?_
    rwa [OrderKey.unionSql?, OrderTarget.unionSql?_of_map_inner same, ← shape_eq]
  obtain ⟨order, horder, order_sql⟩ := yields_writeOrder_union.2 ⟨parts.keys, ordered, rfl⟩
  have params := Union.slots_pieces settled shown h.joined horder
  have written : (u.write o.naming).Yields (mergeAll head.1 rows) (u.pieces head rows order) :=
    Union.yields_write_iff.2 ⟨h.several, h.joined, head, rows, order, settled, width, rfl, single,
      horder, rfl⟩
  have agree : Agree (slots (u.pieces head rows order)) := params ▸ h.agree
  refine ⟨(mergeAll head.1 rows, ⟨u.pieces head rows order⟩),
    Draft.settle_eq_ok_iff_yields.2 ⟨conflict?_eq_none_iff.2 agree, written⟩,
    UnionParts.sql_eq_piecesSql shown order_sql, params, ?_⟩
  have names := congrArg (List.map Output.name) same
  simpa [shape_eq, Shape.ofOutputs, Function.comp_def, Output.inner, Output.field] using names

/-- The checks of a union that settles hold. -/
theorem Union.exists_composes (branchName : String) {r : Rows}
    (h : (u.write o.naming).settle = .ok r) : ∃ parts, u.Composes o branchName parts := by
  obtain ⟨agree, written⟩ := Draft.settle_eq_ok_iff_yields.1 h
  obtain ⟨several, joined, head, rows, order, settled, width, outputs, single, horder, pieces⟩ :=
    Union.yields_write_iff.1 written
  obtain ⟨all, alone, shown⟩ := UnionBranch.exists_compileAlone branchName settled
  obtain ⟨first, later, hfirst, hlater, rfl⟩ := List.forall₂_cons_right_iff.1 shown
  have same := map_inner_mergeAll width
  rw [outputs] at single horder
  obtain ⟨keys, ordered, -⟩ := (yields_writeOrder_union (d := o.dialect)).1 ⟨order, horder, rfl⟩
  refine ⟨⟨first, later, .ofOutputs head.1, keys⟩, several, joined, alone, hfirst.shape_eq, ?_, ?_,
    ?_, ?_⟩
  · refine forall_of_forall₂ (fun r hr c shows => ⟨_, shows.shape_eq, ?_⟩) hlater.flip
    simpa [Shape.ofOutputs] using width r hr
  · rw [← Union.slots_pieces settled shown.flip joined horder, ← pieces]
    exact conflict?_eq_none_iff.1 agree
  · refine ordered.imp fun k sql found => ?_
    rwa [OrderKey.unionSql?, ← OrderTarget.unionSql?_of_map_inner same]
  · intro field
    have count := congrArg List.length same
    rw [List.length_map, List.length_map, single field] at count
    simpa [Shape.ofOutputs] using count.symm

end Composition

/-- A union compiles if and only if its branches compile alone and go together, and
    then its text, its parameters and its field names are put together from theirs. -/
theorem Union.compile_composes (o : Options) (name branchName : String) (table : Table)
    (u : Union) :
    ((∃ c, (Action.perform name table (.union u)).compile o = .ok c) ↔
      ∃ parts, u.Composes o branchName parts) ∧
    ∀ c parts, (Action.perform name table (.union u)).compile o = .ok c →
      u.Composes o branchName parts →
        c.sql = parts.sql u ∧ c.params = parts.params u ∧
        ∃ shape, c.shape = some shape ∧
          shape.fields.map (·.name) = parts.shape.fields.map (·.name) := by
  refine ⟨⟨?_, ?_⟩, ?_⟩
  · rintro ⟨c, h⟩
    obtain ⟨r, settled, -⟩ := Action.settle_of_compile rfl h
    exact Union.exists_composes branchName settled
  · rintro ⟨parts, h⟩
    obtain ⟨r, settled, -⟩ := h.settles
    have compiled : ∃ c, (Action.perform name table (.union u)).compile o = .ok c ∧
        c.Shows o.dialect r := Action.compile_of_settle rfl settled
    exact compiled.imp fun c hc => hc.1
  · intro c parts hc h
    obtain ⟨r, settled, shows⟩ := Action.settle_of_compile rfl hc
    obtain ⟨r', settled', sql, params, names⟩ := h.settles
    have same : r = r' := Except.ok.inj (settled.symm.trans settled')
    subst same
    exact ⟨shows.sql_eq.trans sql, shows.params_eq.trans params, _, shows.shape_eq, names⟩

/-- Two lists of accounts, the last key first, in pages. -/
def rankedAccounts : Union where
  branches := [⟨accounts, accountsAbove "low" false⟩, ⟨accounts, accountsAbove "high" true⟩]
  modes := [.unionAll]
  orderBy := [⟨.output "key", true⟩, ⟨.column (.ofMain "name"), false⟩]
  paginated := true

theorem rankedAccounts_composes :
    ∃ c parts, (Action.perform "ranked" accounts (.union rankedAccounts)).compile {} = .ok c ∧
      rankedAccounts.Composes {} "alone" parts ∧ c.sql = parts.sql rankedAccounts ∧
      c.params = parts.params rankedAccounts := by
  have compiles : ∃ c, (Action.perform "ranked" accounts (.union rankedAccounts)).compile {} =
      .ok c := ⟨_, rfl⟩
  obtain ⟨accepted, composed⟩ := Union.compile_composes {} "ranked" "alone" accounts rankedAccounts
  obtain ⟨parts, hparts⟩ := accepted.1 compiles
  obtain ⟨c, hc⟩ := compiles
  obtain ⟨sql, params, -⟩ := composed c parts hc hparts
  exact ⟨c, parts, hc, hparts, sql, params⟩

end Bindery
