import Bindery.Group
import Bindery.Proofs.Outcome

/-!
# Builds that report failures

A build goes through the items of a group, its actions and then its transactions.
An item becomes part of the output or is reported, and one that is reported leaves
no trace but its name. That name can only make later items fail, so a group without
all of its failed items is built alike.

* `Build.outcomes`: what becomes of each item, by the state that it meets.
* `Build.Covers`: a build that has made the same of fewer items.
* `Group.build_sorts_items`: every item is in the output or in the reports, and the
  rest of the group is built alike without those that failed.
-/

namespace Bindery

open Code (Module)

/-! ## Items -/

/-- An action or a transaction of a group. -/
inductive Item where
  | action (a : Action)
  | transaction (t : Transaction)

/-- What an item becomes. -/
inductive Product where
  | action (c : Compiled)
  | transaction (p : Plan)

namespace Item

/-- The name of an item. -/
def name : Item → String
  | .action a => a.name
  | .transaction t => t.name

/-- An item on its own: an action compiled, or a transaction planned. -/
def produce (o : Options) : Item → Except Fault Product
  | .action a => (a.compile o).map .action
  | .transaction t => (t.plan o).map .transaction

/-- An item as an action. -/
def action? : Item → Option Action
  | .action a => some a
  | .transaction _ => none

/-- An item as a transaction. -/
def transaction? : Item → Option Transaction
  | .action _ => none
  | .transaction t => some t

end Item

/-- A product as a compiled action. -/
def Product.compiled? : Product → Option Compiled
  | .action c => some c
  | .transaction _ => none

/-- A product as a plan. -/
def Product.plan? : Product → Option Plan
  | .action _ => none
  | .transaction p => some p

/-- The module with the method of a product. -/
def Code.Module.add (m : Module) : Product → Except Fault Module
  | .action c => m.addCompiled c
  | .transaction p => m.addPlan p

namespace Build

/-- The product of an item under a name that is free, and the module with its
    method. -/
def tryItem (o : Options) (b : Build) : Item → Except Fault (Product × Module)
  | .action a => (b.tryAction o a).map fun (c, m) => (.action c, m)
  | .transaction t => (b.tryTransaction o t).map fun (p, m) => (.transaction p, m)

/-- The build after an item. -/
def addItem (o : Options) (b : Build) : Item → Build
  | .action a => b.addAction o a
  | .transaction t => b.addTransaction o t

/-- The build after an item that succeeded. -/
def accept (b : Build) (name : String) (m : Module) : Product → Build
  | .action c => { b with module := m, actions := b.actions ++ [c], names := b.names ++ [name] }
  | .transaction p =>
    { b with module := m, transactions := b.transactions ++ [p], names := b.names ++ [name] }

/-- A guarded attempt succeeds if the guard lets it pass and both of its parts
    succeed. -/
theorem attempt_eq_ok_iff {α : Type} {used : Bool} {fault : Fault} {make : Except Fault α}
    {add : α → Except Fault Module} {x : α} {m : Module} :
    (do
      if used then .error fault
      let y ← make
      return (y, ← add y) : Except Fault (α × Module)) = .ok (x, m) ↔
      used = false ∧ make = .ok x ∧ add x = .ok m := by
  cases used with
  | true => simp [bind, Except.bind]
  | false =>
    simp only [Bool.false_eq_true, ↓reduceIte, bind_eq_ok_iff, pure_eq_ok_iff, true_and]
    constructor
    · rintro ⟨y, made, m', added, ⟨⟩⟩
      exact ⟨made, added⟩
    · rintro ⟨made, added⟩
      exact ⟨x, made, m, added, rfl⟩

/-- An item succeeds if its name is free, it has a product, and the module takes
    it. -/
theorem tryItem_eq_ok_iff {o : Options} {b : Build} {x : Item} {p : Product} {m : Module} :
    b.tryItem o x = .ok (p, m) ↔
      x.name ∉ b.names ∧ x.produce o = .ok p ∧ b.module.add p = .ok m := by
  cases x with
  | action a =>
    rw [tryItem, map_eq_ok_iff, Item.produce, map_eq_ok_iff]
    constructor
    · rintro ⟨⟨c, m'⟩, tried, ⟨⟩⟩
      obtain ⟨free, made, added⟩ := attempt_eq_ok_iff.1 tried
      exact ⟨by simpa [Item.name] using free, ⟨c, made, rfl⟩, added⟩
    · rintro ⟨free, ⟨c, made, rfl⟩, added⟩
      exact ⟨(c, m), attempt_eq_ok_iff.2 ⟨by simpa [Item.name] using free, made, added⟩, rfl⟩
  | transaction t =>
    rw [tryItem, map_eq_ok_iff, Item.produce, map_eq_ok_iff]
    constructor
    · rintro ⟨⟨q, m'⟩, tried, ⟨⟩⟩
      obtain ⟨free, made, added⟩ := attempt_eq_ok_iff.1 tried
      exact ⟨by simpa [Item.name] using free, ⟨q, made, rfl⟩, added⟩
    · rintro ⟨free, ⟨q, made, rfl⟩, added⟩
      exact ⟨(q, m), attempt_eq_ok_iff.2 ⟨by simpa [Item.name] using free, made, added⟩, rfl⟩

theorem addItem_of_ok {o : Options} {b : Build} {x : Item} {p : Product} {m : Module}
    (h : b.tryItem o x = .ok (p, m)) : b.addItem o x = b.accept x.name m p := by
  cases x with
  | action a =>
    obtain ⟨⟨c, m'⟩, tried, ⟨⟩⟩ := map_eq_ok_iff.1 h
    simp [addItem, addAction, tried, accept, Item.name]
  | transaction t =>
    obtain ⟨⟨p', m'⟩, tried, ⟨⟩⟩ := map_eq_ok_iff.1 h
    simp [addItem, addTransaction, tried, accept, Item.name]

theorem addItem_of_error {o : Options} {b : Build} {x : Item} {fault : Fault}
    (h : b.tryItem o x = .error fault) : b.addItem o x = b.report x.name fault := by
  cases x with
  | action a => simp [addItem, addAction, map_eq_error_iff.1 h, Item.name]
  | transaction t => simp [addItem, addTransaction, map_eq_error_iff.1 h, Item.name]

/-! ## Runs -/

/-- What becomes of items that are added one after the other, each by the build
    that it meets. -/
def outcomes (o : Options) (b : Build) : List Item → List (Except Fault Product)
  | [] => []
  | x :: rest => (b.tryItem o x).map (·.1) :: (b.addItem o x).outcomes o rest

theorem outcomes_of_ok {o : Options} {b : Build} {x : Item} {p : Product} {m : Module}
    (h : b.tryItem o x = .ok (p, m)) (rest : List Item) :
    b.outcomes o (x :: rest) = .ok p :: (b.accept x.name m p).outcomes o rest := by
  rw [outcomes, addItem_of_ok h, h]
  rfl

theorem outcomes_of_error {o : Options} {b : Build} {x : Item} {fault : Fault}
    (h : b.tryItem o x = .error fault) (rest : List Item) :
    b.outcomes o (x :: rest) = .error fault :: (b.report x.name fault).outcomes o rest := by
  rw [outcomes, addItem_of_error h, h]
  rfl

/-- The items that succeeded. -/
def kept : List Item → List (Except Fault Product) → List Item
  | x :: items, .ok _ :: results => x :: kept items results
  | _ :: items, .error _ :: results => kept items results
  | _, _ => []

/-- The products of the items that succeeded. -/
def products : List (Except Fault Product) → List Product
  | .ok p :: results => p :: products results
  | .error _ :: results => products results
  | [] => []

/-- The reports of the items that failed, for a table of the given name. -/
def failures (table : String) : List Item → List (Except Fault Product) → List Report
  | _ :: items, .ok _ :: results => failures table items results
  | x :: items, .error fault :: results =>
    ⟨table, some x.name, fault⟩ :: failures table items results
  | _, _ => []

theorem table_add {m m' : Module} {p : Product} (h : m.add p = .ok m') : m'.table = m.table := by
  cases p with
  | action c =>
    obtain ⟨_, -, h₁⟩ := bind_eq_ok_iff.1 h
    obtain ⟨_, -, h₂⟩ := bind_eq_ok_iff.1 h₁
    cases h₂
    rfl
  | transaction q =>
    obtain ⟨_, -, h₁⟩ := bind_eq_ok_iff.1 h
    obtain ⟨_, -, h₂⟩ := bind_eq_ok_iff.1 h₁
    cases h₂
    rfl

/-- What is in a build after items: their products and reports in their order,
    behind those that were there. -/
structure Holds (o : Options) (b : Build) (items : List Item) (after : Build) : Prop where
  actions : after.actions = b.actions ++ (products (b.outcomes o items)).filterMap Product.compiled?
  transactions : after.transactions =
    b.transactions ++ (products (b.outcomes o items)).filterMap Product.plan?
  reports : after.reports = b.reports ++ failures b.module.table items (b.outcomes o items)

theorem holds_foldl_addItem (o : Options) (b : Build) (items : List Item) :
    b.Holds o items (items.foldl (addItem o) b) := by
  induction items generalizing b with
  | nil => exact ⟨by simp [outcomes, products], by simp [outcomes, products],
      by simp [failures]⟩
  | cons x rest ih =>
    rw [List.foldl_cons]
    cases tried : b.tryItem o x with
    | error fault =>
      rw [addItem_of_error tried]
      obtain ⟨actions, transactions, reports⟩ := ih (b.report x.name fault)
      refine ⟨?_, ?_, ?_⟩
      · rw [actions, outcomes_of_error tried, products]
        rfl
      · rw [transactions, outcomes_of_error tried, products]
        rfl
      · rw [reports, outcomes_of_error tried, failures]
        simp [report]
    | ok made =>
      obtain ⟨p, m⟩ := made
      obtain ⟨-, produced, added⟩ := tryItem_eq_ok_iff.1 tried
      rw [addItem_of_ok tried]
      obtain ⟨actions, transactions, reports⟩ := ih (b.accept x.name m p)
      refine ⟨?_, ?_, ?_⟩
      · rw [actions, outcomes_of_ok tried, products]
        cases p <;> simp [accept, Product.compiled?, List.filterMap_cons]
      · rw [transactions, outcomes_of_ok tried, products]
        cases p <;> simp [accept, Product.plan?, List.filterMap_cons]
      · rw [reports, outcomes_of_ok tried, failures, ← table_add added]
        cases p <;> rfl

/-- An item that succeeded is in the output as what it is on its own. -/
theorem produce_of_outcomes (o : Options) (b : Build) (items : List Item) :
    List.Forall₂ (fun x result => ∀ p, result = .ok p → x.produce o = .ok p)
      items (b.outcomes o items) := by
  induction items generalizing b with
  | nil => exact .nil
  | cons x rest ih =>
    refine .cons ?_ (ih (b.addItem o x))
    intro p succeeded
    obtain ⟨⟨p', m⟩, tried, rfl⟩ := map_eq_ok_iff.1 succeeded
    exact (tryItem_eq_ok_iff.1 tried).2.1

/-! ## Builds without the failed items -/

/-- The build `b` holds the same products as `b'`, and has used its names. -/
structure Covers (b b' : Build) : Prop where
  module : b'.module = b.module
  actions : b'.actions = b.actions
  transactions : b'.transactions = b.transactions
  names : b'.names ⊆ b.names

theorem Covers.tryItem {o : Options} {b b' : Build} (h : b.Covers b') {x : Item}
    {made : Product × Module} (tried : b.tryItem o x = .ok made) : b'.tryItem o x = .ok made := by
  obtain ⟨free, produced, added⟩ := tryItem_eq_ok_iff.1 tried
  refine tryItem_eq_ok_iff.2 ⟨fun used => free (h.names used), produced, ?_⟩
  rw [h.module]
  exact added

theorem Covers.report {b b' : Build} (h : b.Covers b') (name : String) (fault : Fault) :
    (b.report name fault).Covers b' where
  module := h.module
  actions := h.actions
  transactions := h.transactions
  names := fun _ used => List.mem_append_left _ (h.names used)

theorem Covers.accept {b b' : Build} (h : b.Covers b') (name : String) (m : Module) (p : Product) :
    (b.accept name m p).Covers (b'.accept name m p) := by
  have names : b'.names ++ [name] ⊆ b.names ++ [name] := by
    intro used member
    rw [List.mem_append] at member ⊢
    exact member.imp_left (h.names ·)
  cases p with
  | action c => exact ⟨rfl, by simp [Build.accept, h.actions], h.transactions, names⟩
  | transaction q => exact ⟨rfl, h.actions, by simp [Build.accept, h.transactions], names⟩

theorem reports_accept (b : Build) (name : String) (m : Module) (p : Product) :
    (b.accept name m p).reports = b.reports := by
  cases p <;> rfl

/-- A build that meets only the items that succeeded ends with the same products,
    and reports nothing. -/
theorem Covers.foldl_kept {o : Options} {b b' : Build} (h : b.Covers b') (items : List Item) :
    (items.foldl (addItem o) b).Covers
        ((kept items (b.outcomes o items)).foldl (addItem o) b') ∧
      ((kept items (b.outcomes o items)).foldl (addItem o) b').reports = b'.reports := by
  induction items generalizing b b' with
  | nil => exact ⟨h, rfl⟩
  | cons x rest ih =>
    rw [List.foldl_cons]
    cases tried : b.tryItem o x with
    | error fault =>
      -- The other build does not meet the item at all, and so has used one name less.
      rw [outcomes_of_error tried, kept, addItem_of_error tried]
      exact ih (h.report x.name fault)
    | ok made =>
      obtain ⟨p, m⟩ := made
      rw [outcomes_of_ok tried, kept, List.foldl_cons, addItem_of_ok tried,
        addItem_of_ok (h.tryItem tried)]
      obtain ⟨covers, reports⟩ := ih (h.accept x.name m p)
      exact ⟨covers, reports.trans (reports_accept b' x.name m p)⟩

/-- What a build is when it ends. -/
def output (o : Options) (b : Build) : BuildOutput :=
  ⟨b.module.text o, b.actions, b.transactions, b.reports⟩

theorem kept_sublist (items : List Item) (results : List (Except Fault Product)) :
    (kept items results).Sublist items := by
  fun_induction kept items results with
  | case1 x items _ results ih => exact ih.cons_cons x
  | case2 x items _ results ih => exact ih.cons x
  | case3 => exact List.nil_sublist _

end Build

namespace Group

/-- The items of a group, in the order in which they are built. -/
def items (g : Group) : List Item := g.actions.map .action ++ g.transactions.map .transaction

/-- The group with the given items only. -/
def restrict (g : Group) (xs : List Item) : Group :=
  { g with actions := xs.filterMap Item.action?, transactions := xs.filterMap Item.transaction? }

/-- A group is built by adding its items one after the other. -/
theorem build_of_ofTable {o : Options} {g : Group} {m : Module}
    (h : Module.ofTable g.table = .ok m) :
    g.build o = (g.items.foldl (Build.addItem o) { module := m }).output o := by
  have added : g.buildIn o m = g.items.foldl (Build.addItem o) { module := m } := by
    rw [buildIn, items, List.foldl_append, List.foldl_map, List.foldl_map]
    rfl
  rw [build, h, ← added]
  rfl

/-- A part of the items of a group is all that the group has left with it. -/
theorem items_restrict {g : Group} {xs : List Item} (h : xs.Sublist g.items) :
    (g.restrict xs).items = xs := by
  obtain ⟨as, ts, rfl, has, hts⟩ := List.sublist_append_iff.1 h
  obtain ⟨actions, -, rfl⟩ := List.sublist_map_iff.1 has
  obtain ⟨transactions, -, rfl⟩ := List.sublist_map_iff.1 hts
  simp [items, restrict, List.filterMap_map, Function.comp_def, Item.action?, Item.transaction?]

/-- What becomes of each item of a group in a module. -/
def outcomes (o : Options) (g : Group) (m : Module) : List (Except Fault Product) :=
  ({ module := m } : Build).outcomes o g.items

/-- Every item of a group becomes a product of the output, in their order, or a
    report with the table and its name, in their order. Without the items that
    failed, the group has the same products and the same code, and no reports. -/
theorem build_sorts_items {o : Options} {g : Group} {m : Module}
    (h : Module.ofTable g.table = .ok m) :
    List.Forall₂ (fun x result => ∀ p, result = .ok p → x.produce o = .ok p)
        g.items (g.outcomes o m) ∧
      (g.build o).actions = (Build.products (g.outcomes o m)).filterMap Product.compiled? ∧
      (g.build o).transactions = (Build.products (g.outcomes o m)).filterMap Product.plan? ∧
      (g.build o).reports = Build.failures g.table.name g.items (g.outcomes o m) ∧
      (g.restrict (Build.kept g.items (g.outcomes o m))).build o =
        { g.build o with reports := [] } := by
  have held := Build.holds_foldl_addItem o { module := m } g.items
  have table_eq : m.table = g.table.name := by
    obtain ⟨_, -, h₁⟩ := bind_eq_ok_iff.1 h
    cases h₁
    rfl
  have start : Build.Covers { module := m } { module := m } := ⟨rfl, rfl, rfl, fun _ => id⟩
  obtain ⟨covers, reports⟩ := start.foldl_kept (o := o) g.items
  have kept_items := items_restrict (Build.kept_sublist g.items (g.outcomes o m))
  have rebuilt : (g.restrict (Build.kept g.items (g.outcomes o m))).build o = _ :=
    build_of_ofTable h
  rw [kept_items] at rebuilt
  rw [rebuilt, build_of_ofTable h]
  refine ⟨Build.produce_of_outcomes o _ g.items, ?_, ?_, ?_, ?_⟩
  · simpa [Build.output, outcomes] using held.actions
  · simpa [Build.output, outcomes] using held.transactions
  · simpa [Build.output, outcomes, table_eq] using held.reports
  · rw [Build.output, outcomes, covers.module, covers.actions, covers.transactions, reports]
    rfl

end Group

/-! ## A group with failures -/

/-- Books under a generated key. -/
def books : Table where
  name := "book"
  databaseName := none
  columns := [.primaryKey "id", .ofScalar "title" (.varChar 80)]
  distinct := by decide
  finite := by decide

/-- Books, selected by columns of the given names. -/
def selectBooks (name : String) (columns : List String) : Action :=
  .perform name books (.select { columns := columns.map fun c => .column (.ofMain c) none })

/-- A group in which an unknown column, a name in another spelling and two names
    that are taken fail. -/
def bookGroup : Group where
  table := books
  actions := [selectBooks "listTitles" ["title"], selectBooks "listAuthors" ["author"],
    selectBooks "list_titles" ["id"], selectBooks "listTitles" ["id"]]
  transactions := [{ name := "listAuthors", table := books }, { name := "shelve", table := books }]

theorem bookGroup_sorts :
    ∃ m, Module.ofTable bookGroup.table = .ok m ∧
      (bookGroup.build {}).reports =
        [⟨"book", some "listAuthors", .unknownColumn "book" "author"⟩,
          ⟨"book", some "list_titles", .duplicateFunction "list_titles"⟩,
          ⟨"book", some "listTitles", .duplicateAction "listTitles"⟩,
          ⟨"book", some "listAuthors", .duplicateAction "listAuthors"⟩] ∧
      (Build.kept bookGroup.items (bookGroup.outcomes {} m)).map Item.name =
        ["listTitles", "shelve"] ∧
      (bookGroup.restrict (Build.kept bookGroup.items (bookGroup.outcomes {} m))).build {} =
        { bookGroup.build {} with reports := [] } := by
  have named : ∃ m, Module.ofTable bookGroup.table = .ok m := ⟨_, rfl⟩
  obtain ⟨m, hm⟩ := named
  obtain ⟨-, -, -, -, rest⟩ := Group.build_sorts_items (o := {}) hm
  exact ⟨m, hm, rfl, by cases hm; rfl, rest⟩

end Bindery
