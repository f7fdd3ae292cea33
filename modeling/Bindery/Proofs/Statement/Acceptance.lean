import Bindery.Proofs.Scope
import Bindery.Proofs.Statement.Layout

/-!
# Selects that are accepted

The checks of a select are spread over its writers. Here they are read off its
definition, each on its own: which columns it refers to, which parameters it
mentions, and under which names its outputs are known. A select compiles if and
only if every one of them holds.

* `Select.Accepted`: the checks of a select.
* `Select.compile_isOk_iff_accepted`: they decide whether it compiles.
-/

namespace Bindery

open Name (Allocator)

/-! ## Parameters that agree -/

/-- Parameters of one name have one type. -/
def Agree (bs : List Binding) : Prop := ∀ b ∈ bs, ∀ b' ∈ bs, b.name = b'.name → b.type = b'.type

instance (bs : List Binding) : Decidable (Agree bs) :=
  inferInstanceAs (Decidable (∀ b ∈ bs, ∀ b' ∈ bs, b.name = b'.name → b.type = b'.type))

theorem Agree.of_subset {bs cs : List Binding} (h : Agree cs) (within : bs ⊆ cs) : Agree bs :=
  fun b hb b' hb' => h b (within hb) b' (within hb')

/-- Among parameters that agree, the first of a name speaks for all of them. -/
theorem Binding.conflicts_eq_false_iff {earlier : List Binding} (agree : Agree earlier)
    {b : Binding} : b.conflicts earlier = false ↔ Agree (earlier ++ [b]) := by
  constructor
  · intro h
    have same : ∀ e ∈ earlier, e.name = b.name → e.type = b.type := by
      intro e he name_eq
      cases found : earlier.find? (·.name == b.name) with
      | none => exact absurd (by simpa using name_eq) (List.find?_eq_none.1 found e he)
      | some first =>
        have first_name : first.name = b.name := by simpa using List.find?_some found
        have first_type : first.type = b.type := by simpa [Binding.conflicts, found] using h
        rw [← first_type]
        exact agree e he first (List.mem_of_find?_eq_some found) (name_eq.trans first_name.symm)
    intro c hc c' hc' name_eq
    rw [List.mem_append, List.mem_singleton] at hc hc'
    rcases hc with hc | rfl <;> rcases hc' with hc' | rfl
    · exact agree c hc c' hc' name_eq
    · exact same c hc name_eq
    · exact (same c' hc' name_eq.symm).symm
    · rfl
  · intro h
    cases found : earlier.find? (·.name == b.name) with
    | none => simp [Binding.conflicts, found]
    | some first =>
      have type_eq := h first (List.mem_append_left _ (List.mem_of_find?_eq_some found)) b
        (by simp) (by simpa using List.find?_some found)
      simp [Binding.conflicts, found, type_eq]

theorem conflictFrom?_eq_none_iff {earlier bs : List Binding} (agree : Agree earlier) :
    conflictFrom? earlier bs = none ↔ Agree (earlier ++ bs) := by
  induction bs generalizing earlier with
  | nil => simpa [conflictFrom?] using agree
  | cons b rest ih =>
    have shift : earlier ++ b :: rest = earlier ++ [b] ++ rest := List.append_cons earlier b rest
    rw [conflictFrom?, shift]
    cases conflict : b.conflicts earlier with
    | true =>
      -- the parameters up to the conflict would agree as well
      refine iff_of_false (by simp) fun all => ?_
      have none := (Binding.conflicts_eq_false_iff agree).2
        (all.of_subset (List.subset_append_left _ _))
      rw [conflict] at none
      cases none
    | false => exact ih ((Binding.conflicts_eq_false_iff agree).1 conflict)

theorem conflict?_eq_none_iff {bs : List Binding} : conflict? bs = none ↔ Agree bs := by
  have none : Agree [] := fun _ h => absurd h List.not_mem_nil
  exact conflictFrom?_eq_none_iff none

/-! ## Drafts that succeed -/

namespace Draft

variable {α β : Type}

/-- The draft ends without a fault. -/
def Succeeds (x : Draft α) : Prop := ∃ a ps, x.Yields a ps

@[simp] theorem succeeds_pure {a : α} : (pure a : Draft α).Succeeds :=
  ⟨a, [], yields_pure.2 ⟨rfl, rfl⟩⟩

@[simp] theorem succeeds_write {ps : List Piece} : (write ps).Succeeds :=
  ⟨(), ps, yields_write.2 rfl⟩

@[simp] theorem not_succeeds_fail {fault : Fault} : ¬ (fail fault : Draft α).Succeeds := by
  rintro ⟨_, _, h⟩
  exact not_yields_fail h

theorem succeeds_bind {x : Draft α} {f : α → Draft β} :
    (x >>= f).Succeeds ↔ ∃ a ps, x.Yields a ps ∧ (f a).Succeeds := by
  constructor
  · rintro ⟨b, _, h⟩
    obtain ⟨a, before, hx, behind, hf, -⟩ := yields_bind.1 h
    exact ⟨a, before, hx, b, behind, hf⟩
  · rintro ⟨a, before, hx, b, behind, hf⟩
    exact ⟨b, _, yields_bind.2 ⟨a, before, hx, behind, hf, rfl⟩⟩

@[simp] theorem succeeds_bind_unit {x : Draft Unit} {f : Unit → Draft β} :
    (x >>= f).Succeeds ↔ x.Succeeds ∧ (f ()).Succeeds := by
  rw [succeeds_bind]
  constructor
  · rintro ⟨⟨⟩, ps, hx, hf⟩
    exact ⟨⟨(), ps, hx⟩, hf⟩
  · rintro ⟨⟨⟨⟩, ps, hx⟩, hf⟩
    exact ⟨(), ps, hx, hf⟩

@[simp] theorem succeeds_lift_bind {r : Except Fault α} {f : α → Draft β} :
    ((liftM r : Draft α) >>= f).Succeeds ↔ ∃ a, r = .ok a ∧ (f a).Succeeds := by
  rw [succeeds_bind]
  simp only [yields_lift]
  constructor
  · rintro ⟨a, _, ⟨hr, -⟩, hf⟩
    exact ⟨a, hr, hf⟩
  · rintro ⟨a, hr, hf⟩
    exact ⟨a, [], ⟨hr, rfl⟩, hf⟩

theorem succeeds_separated {separator : String} {xs : List (Draft Unit)} :
    (separated separator xs).Succeeds ↔ ∀ x ∈ xs, x.Succeeds := by
  fun_induction separated separator xs with
  | case1 => simp
  | case2 x => simp
  | case3 x rest _ ih => simp [ih]

/-- A draft is settled if it succeeds and its parameters agree. -/
theorem settle_isOk_iff {x : Draft α} :
    (∃ r, x.settle = .ok r) ↔ ∃ a ps, x.Yields a ps ∧ Agree (slots ps) := by
  constructor
  · rintro ⟨⟨a, s⟩, h⟩
    obtain ⟨agree, yields⟩ := settle_eq_ok_iff_yields.1 h
    exact ⟨a, s.pieces, yields, conflict?_eq_none_iff.1 agree⟩
  · rintro ⟨a, ps, yields, agree⟩
    exact ⟨(a, ⟨ps⟩), settle_eq_ok_iff_yields.2 ⟨conflict?_eq_none_iff.2 agree, yields⟩⟩

end Draft

/-! ## References of a definition -/

/-- The column of a side of a comparison. -/
def Operand.references : Operand → List ColumnRef
  | .column c => [c]
  | .param _ | .literal _ | .raw _ => []

mutual

/-- The columns of a condition, depth first. -/
def Condition.references : Condition → List ColumnRef
  | .compare left _ right => left.references ++ right.toList.flatMap Operand.references
  | .fragment f => f.columns
  | .group _ conditions => treeReferences conditions

/-- The columns of conditions, one after the other. -/
def treeReferences : List Condition → List ColumnRef
  | [] => []
  | c :: rest => c.references ++ treeReferences rest

end

/-- The columns of an entry of a select list. -/
def SelectColumn.references : SelectColumn → List ColumnRef
  | .column c _ => [c]
  | .expression f _ _ => f.columns

/-- The column of an order key. -/
def OrderKey.references (k : OrderKey) : List ColumnRef :=
  match k.target with
  | .column c => [c]
  | .output _ | .raw _ => []

/-- The columns that a select on a table refers to outside of its joins. -/
def Select.references (main : Table) (s : Select) : List ColumnRef :=
  (s.effectiveColumns main).flatMap SelectColumn.references ++
    treeReferences s.filter.conditions ++ s.orderBy.flatMap OrderKey.references

/-! ## Columns and filters -/

variable {s : Scope}

@[simp] theorem Scope.succeeds_writeColumn {c : ColumnRef} :
    (s.writeColumn c).Succeeds ↔ s.Knows c := by
  constructor
  · rintro ⟨_, _, h⟩
    obtain ⟨seat, column, hseat, hcolumn, -⟩ :=
      Scope.columnPieces_eq_ok_iff.1 (Scope.yields_writeColumn.1 h)
    exact ⟨column, Scope.column_eq_ok_iff.2 ⟨seat, hseat, hcolumn⟩⟩
  · rintro ⟨column, h⟩
    obtain ⟨seat, hseat, hcolumn⟩ := Scope.column_eq_ok_iff.1 h
    exact ⟨(), _, Scope.yields_writeColumn.2
      (Scope.columnPieces_eq_ok_iff.2 ⟨seat, column, hseat, hcolumn, rfl⟩)⟩

theorem Fragment.columns_cons (part : FragmentPart) (rest : List FragmentPart) :
    Fragment.columns ⟨part :: rest⟩ = Fragment.columns ⟨[part]⟩ ++ Fragment.columns ⟨rest⟩ := by
  cases part <;> simp [Fragment.columns]

theorem FragmentPart.succeeds_write {part : FragmentPart} :
    (part.write s).Succeeds ↔ ∀ c ∈ Fragment.columns ⟨[part]⟩, s.Knows c := by
  cases part with
  | raw sql => simp [FragmentPart.write, Fragment.columns]
  | column c => simp [FragmentPart.write, Fragment.columns]
  | param p => simp [FragmentPart.write, Param.write, Fragment.columns]

theorem succeeds_writeParts {parts : List FragmentPart} :
    (writeParts s parts).Succeeds ↔ ∀ c ∈ Fragment.columns ⟨parts⟩, s.Knows c := by
  induction parts with
  | nil => simp [writeParts, Fragment.columns]
  | cons part rest ih =>
    rw [writeParts, Draft.succeeds_bind_unit, FragmentPart.succeeds_write, ih,
      Fragment.columns_cons part rest, List.forall_mem_append]

theorem Fragment.succeeds_write {f : Fragment} :
    (f.write s).Succeeds ↔ ∀ c ∈ f.columns, s.Knows c := succeeds_writeParts

theorem Operand.succeeds_write {x : Operand} :
    (x.write s).Succeeds ↔ ∀ c ∈ x.references, s.Knows c := by
  cases x with
  | column c => simp [Operand.write, Operand.references]
  | param p => simp [Operand.write, Param.write, Operand.references]
  | literal v => simp [Operand.write, Operand.references]
  | raw sql => simp [Operand.write, Operand.references]

theorem succeeds_writeRight {right : Option Operand} :
    (writeRight s right).Succeeds ↔
      ∀ c ∈ right.toList.flatMap Operand.references, s.Knows c := by
  cases right with
  | none => simp [writeRight]
  | some x => simp [writeRight, Operand.succeeds_write]

mutual

theorem Condition.succeeds_write (c : Condition) :
    (c.write s).Succeeds ↔ ∀ r ∈ c.references, s.Knows r := by
  match c with
  | .compare left op right =>
    rw [Condition.write, Condition.references, List.forall_mem_append,
      Draft.succeeds_bind_unit, Draft.succeeds_bind_unit, Operand.succeeds_write,
      succeeds_writeRight]
    simp
  | .fragment f => rw [Condition.write, Condition.references, Fragment.succeeds_write]
  | .group connective conditions =>
    rw [Condition.write, Condition.references, ← succeeds_writeConditions connective conditions]
    simp

theorem succeeds_writeConditions (connective : Connective) (cs : List Condition) :
    (writeConditions s connective cs).Succeeds ↔ ∀ r ∈ treeReferences cs, s.Knows r := by
  match cs with
  | [] => simp [writeConditions, treeReferences]
  | [c] =>
    rw [writeConditions, c.succeeds_write, treeReferences, treeReferences, List.append_nil]
  | c :: d :: rest =>
    rw [writeConditions, treeReferences, List.forall_mem_append, ← c.succeeds_write,
      ← succeeds_writeConditions connective (d :: rest)]
    simp

end

theorem Filter.succeeds_write {f : Filter} :
    (f.write s).Succeeds ↔ ∀ r ∈ treeReferences f.conditions, s.Knows r := by
  rw [Filter.write, Filter.isEmpty]
  split
  · next none =>
    rw [List.isEmpty_iff.1 none]
    simp [treeReferences]
  · rw [← succeeds_writeConditions f.connective]
    simp

/-! ## Orders -/

theorem Name.index?_isSome_iff {names : List String} {wanted : String} :
    (Name.index? names wanted).isSome = true ↔ ∃ n ∈ names, Name.snake n = Name.snake wanted := by
  rw [Name.index?, Option.isSome_or, List.findIdx?_isSome, List.findIdx?_isSome, Bool.or_eq_true,
    List.any_eq_true, List.any_eq_true]
  constructor
  · rintro (⟨n, member, same⟩ | ⟨n, member, same⟩)
    · exact ⟨n, member, congrArg Name.snake (beq_iff_eq.1 same)⟩
    · exact ⟨n, member, beq_iff_eq.1 same⟩
  · rintro ⟨n, member, same⟩
    exact .inr ⟨n, member, beq_iff_eq.2 same⟩

theorem Name.lt_of_index?_eq_some {names : List String} {wanted : String} {i : Nat}
    (h : Name.index? names wanted = some i) : i < names.length := by
  rw [Name.index?, Option.or_eq_some_iff] at h
  rcases h with h | ⟨-, h⟩
  · exact (List.findIdx?_eq_some_iff_getElem.1 h).1
  · exact (List.findIdx?_eq_some_iff_getElem.1 h).1

/-- An output is found if one of the outputs has the words of the name. -/
theorem exists_findOutput?_iff {outputs : List Output} {name : String} :
    (∃ o, findOutput? outputs name = some o) ↔
      ∃ n ∈ outputs.map (·.name), Name.snake n = Name.snake name := by
  rw [← Name.index?_isSome_iff, Option.isSome_iff_exists]
  constructor
  · rintro ⟨o, h⟩
    obtain ⟨i, hi, -⟩ := Option.bind_eq_some_iff.1 h
    exact ⟨i, hi⟩
  · rintro ⟨i, hi⟩
    have within : i < outputs.length := by simpa using Name.lt_of_index?_eq_some hi
    exact ⟨outputs[i], Option.bind_eq_some_iff.2 ⟨i, hi, List.getElem?_eq_getElem within⟩⟩

theorem OrderKey.succeeds_write {outputs : List Output} {k : OrderKey} :
    (k.write outputs (.select s)).Succeeds ↔
      (∀ c ∈ k.references, s.Knows c) ∧
      ∀ name, k.target = .output name →
        ∃ n ∈ outputs.map (·.name), Name.snake n = Name.snake name := by
  have descending : (k.write outputs (.select s)).Succeeds ↔
      (k.target.write outputs (.select s)).Succeeds := by
    rw [OrderKey.write, Draft.succeeds_bind_unit]
    split <;> simp
  rw [descending, OrderKey.references]
  cases target : k.target with
  | output name =>
    simp only [List.not_mem_nil, false_implies, implies_true, true_and, OrderTarget.output.injEq,
      forall_eq']
    rw [OrderTarget.write, ← exists_findOutput?_iff]
    cases found : findOutput? outputs name with
    | none => simp
    | some o =>
      have written : (o.writeKey (.select s)).Succeeds := by
        show (if o.named then _ else _ : Draft Unit).Succeeds
        split <;> exact Draft.succeeds_write
      simpa using written
  | column c => simp [OrderTarget.write]
  | raw sql => simp [OrderTarget.write]

theorem succeeds_writeOrder {outputs : List Output} {keys : List OrderKey} :
    (writeOrder outputs (.select s) keys).Succeeds ↔
      (∀ c ∈ keys.flatMap OrderKey.references, s.Knows c) ∧
      ∀ name, .output name ∈ keys.map (·.target) →
        ∃ n ∈ outputs.map (·.name), Name.snake n = Name.snake name := by
  have each : (writeOrder outputs (.select s) keys).Succeeds ↔
      ∀ k ∈ keys, (k.write outputs (.select s)).Succeeds := by
    cases keys with
    | nil => simp [writeOrder]
    | cons k rest =>
      rw [writeOrder, Draft.succeeds_bind_unit, Draft.succeeds_separated]
      · simp
      · exact List.cons_ne_nil k rest
  simp only [each, OrderKey.succeeds_write, List.mem_flatMap, List.mem_map]
  constructor
  · intro h
    refine ⟨?_, ?_⟩
    · rintro c ⟨k, hk, hc⟩
      exact (h k hk).1 c hc
    · rintro name ⟨k, hk, target⟩
      exact (h k hk).2 name target
  · rintro ⟨columns, outputs⟩ k hk
    exact ⟨fun c hc => columns c ⟨k, hk, hc⟩, fun name target => outputs name ⟨k, hk, target⟩⟩

/-! ## Select lists -/

/-- The type of an entry is known: that of its column, the one given, or that of
    the only column of an expression without parameters. -/
def SelectColumn.IsTyped : SelectColumn → Prop
  | .column _ _ => True
  | .expression f _ type => type.isSome = true ∨ f.columns.length = 1 ∧ f.params = []

theorem Fragment.exists_singleColumn?_iff {f : Fragment} :
    (∃ c, f.singleColumn? = some c) ↔ f.columns.length = 1 ∧ f.params = [] := by
  rw [Fragment.singleColumn?]
  constructor
  · rintro ⟨c, h⟩
    split at h
    · next columns params => exact ⟨by rw [columns]; rfl, params⟩
    · cases h
  · rintro ⟨columns, params⟩
    obtain ⟨c, columns⟩ := List.length_eq_one_iff.1 columns
    rw [columns, params]
    exact ⟨c, rfl⟩

theorem Fragment.mem_columns_of_singleColumn? {f : Fragment} {c : ColumnRef}
    (h : f.singleColumn? = some c) : c ∈ f.columns := by
  rw [Fragment.singleColumn?] at h
  split at h
  · next columns _ =>
    cases h
    rw [columns]
    exact List.mem_singleton_self c
  · cases h

theorem columnOutput_isOk_iff {naming : Naming} {names : Allocator} {c : ColumnRef}
    {outputName : Option String} :
    (∃ r, columnOutput s naming names c outputName = .ok r) ↔ s.Knows c := by
  constructor
  · rintro ⟨⟨o, names'⟩, h⟩
    obtain ⟨column, -, hcolumn, -⟩ := columnOutput_eq_ok h
    exact ⟨column, hcolumn⟩
  · rintro ⟨column, hcolumn⟩
    obtain ⟨seat, hseat, hplace⟩ := Scope.column_eq_ok_iff.1 hcolumn
    have pieces := Scope.columnPieces_eq_ok_iff.2 ⟨seat, column, hseat, hplace, rfl⟩
    have outer : s.isOuter c = .ok seat.outer := bind_eq_ok_iff.2 ⟨seat, hseat, rfl⟩
    simp only [columnOutput, hcolumn, pieces, outer]
    cases outputName with
    | some name => exact ⟨_, rfl⟩
    | none =>
      have derived : ∃ name, s.outputName naming c = .ok name :=
        ⟨_, bind_eq_ok_iff.2 ⟨seat, hseat, bind_eq_ok_iff.2 ⟨column, hplace, rfl⟩⟩⟩
      obtain ⟨name, hname⟩ := derived
      simp only [hname]
      exact ⟨_, rfl⟩

theorem expressionOutput_isOk_iff {names : Allocator} {f : Fragment} {outputName : String}
    {type : Option ColumnType} :
    (∃ r, expressionOutput s names f outputName type = .ok r) ↔
      (∀ c ∈ f.columns, s.Knows c) ∧
      (type.isSome = true ∨ f.columns.length = 1 ∧ f.params = []) ∧ Agree f.occurrences := by
  rw [← Fragment.exists_singleColumn?_iff]
  constructor
  · rintro ⟨⟨o, names'⟩, h⟩
    obtain ⟨agree, hwrite, -, -, htype, -⟩ := expressionOutput_eq_ok h
    refine ⟨Fragment.succeeds_write.1 ⟨(), _, hwrite⟩, ?_, ?_⟩
    · cases type with
      | some type => exact .inl rfl
      | none =>
        cases single : f.singleColumn? with
        | some c => exact .inr ⟨c, rfl⟩
        | none =>
          rw [single] at htype
          cases htype
    · rw [← Fragment.slots_write hwrite]
      exact conflict?_eq_none_iff.1 agree
  · rintro ⟨known, typed, agree⟩
    obtain ⟨⟨⟩, ps, hwrite⟩ := Fragment.succeeds_write.2 known
    have settles : (f.write s).settle = .ok ((), ⟨ps⟩) := by
      refine Draft.settle_eq_ok_iff_yields.2 ⟨conflict?_eq_none_iff.2 ?_, hwrite⟩
      show Agree (slots ps)
      rw [Fragment.slots_write hwrite]
      exact agree
    simp only [expressionOutput, settles]
    cases single : f.singleColumn? with
    | some c =>
      obtain ⟨column, hcolumn⟩ := known c (Fragment.mem_columns_of_singleColumn? single)
      obtain ⟨seat, hseat, -⟩ := Scope.column_eq_ok_iff.1 hcolumn
      cases type with
      | some type =>
        simp only [expressionType, Scope.isOuter, hseat]
        exact ⟨_, rfl⟩
      | none =>
        simp only [expressionType, Scope.isOuter, hseat, hcolumn]
        exact ⟨_, rfl⟩
    | none =>
      cases type with
      | some type => exact ⟨_, rfl⟩
      | none => simp [single] at typed

/-- An entry is accepted if its columns are in scope, its type is known and its
    parameters agree. -/
theorem SelectColumn.output_isOk_iff {naming : Naming} {names : Allocator} {c : SelectColumn} :
    (∃ r, c.output s naming names = .ok r) ↔
      (∀ r ∈ c.references, s.Knows r) ∧ c.IsTyped ∧ Agree c.occurrences := by
  cases c with
  | column c outputName =>
    rw [SelectColumn.output, columnOutput_isOk_iff]
    simp [SelectColumn.references, SelectColumn.IsTyped, SelectColumn.occurrences, Agree]
  | expression f outputName type => exact expressionOutput_isOk_iff

theorem succeeds_writeSelectList {naming : Naming} {names : Allocator} {cs : List SelectColumn} :
    (writeSelectList s naming names cs).Succeeds ↔
      ∀ c ∈ cs, (∀ r ∈ c.references, s.Knows r) ∧ c.IsTyped ∧ Agree c.occurrences := by
  induction cs generalizing names with
  | nil => simp [writeSelectList]
  | cons c rest ih =>
    have first := @SelectColumn.output_isOk_iff s naming names c
    rw [List.forall_mem_cons, ← first]
    constructor
    · rintro ⟨outputs, ps, h⟩
      obtain ⟨o, names', later, tail, houtput, hrest, -, -⟩ := yields_writeSelectList_cons h
      exact ⟨⟨(o, names'), houtput⟩, ih.1 ⟨later, tail, hrest⟩⟩
    · rintro ⟨⟨⟨o, names'⟩, houtput⟩, later⟩
      obtain ⟨outputs, tail, hrest⟩ := (@ih names').2 later
      rw [writeSelectList, Draft.succeeds_lift_bind]
      refine ⟨(o, names'), houtput, ?_⟩
      have tailSucceeds : (do return o :: (← writeSelectList s naming names' rest) :
          Draft (List Output)).Succeeds :=
        Draft.succeeds_bind.2 ⟨outputs, tail, hrest, Draft.succeeds_pure⟩
      rw [Draft.succeeds_bind_unit]
      refine ⟨Draft.succeeds_write, ?_⟩
      split
      · simpa using tailSucceeds
      · simpa using tailSucceeds

/-! ## Tables -/

theorem Join.succeeds_write {index : Nat} {j : Join} (base : s.Knows j.base)
    (key : s.Knows (.ofJoin index j.key)) : (j.write s index).Succeeds := by
  obtain ⟨column, hcolumn⟩ := key
  obtain ⟨seat, hseat, -⟩ := Scope.column_eq_ok_iff.1 hcolumn
  rw [Join.write, Draft.succeeds_lift_bind]
  refine ⟨seat, hseat, ?_⟩
  have known : s.Knows (.ofJoin index j.key) := ⟨column, hcolumn⟩
  simp [known, base]

theorem succeeds_writeJoins {index : Nat} {js : List Join}
    (known : ∀ i j, js[i]? = some j → s.Knows j.base ∧ s.Knows (.ofJoin (index + i) j.key)) :
    (writeJoins s index js).Succeeds := by
  induction js generalizing index with
  | nil => exact Draft.succeeds_pure
  | cons j rest ih =>
    obtain ⟨base, key⟩ := known 0 j rfl
    rw [writeJoins, Draft.succeeds_bind_unit]
    refine ⟨Join.succeeds_write base key, ih fun i j' hj' => ?_⟩
    have later := known (i + 1) j' hj'
    rw [← Nat.add_assoc, Nat.add_right_comm] at later
    exact later

/-- A scope that is resolved has the tables of its select, so that these are
    written. -/
theorem Select.succeeds_writeTables {select : Select} {main : Table}
    (h : Scope.resolve main select.joins = .ok s) : (select.writeTables s main).Succeeds := by
  have joins : (writeJoins s 0 select.joins).Succeeds := by
    refine succeeds_writeJoins fun i j hj => ?_
    rw [Nat.zero_add]
    exact Scope.knows_of_resolve h hj
  rw [Select.writeTables]
  cases s.hasJoins <;> simp [joins]

/-! ## Selects -/

/-- The table that a source of a select stands for. -/
def Select.table? (main : Table) (s : Select) : Source → Option Table
  | .main => some main
  | .join index => (s.joins[index]?).map (·.table)

/-- A reference names the main table or a join of the select, and a column of that
    table. -/
def Select.Declares (main : Table) (s : Select) (c : ColumnRef) : Prop :=
  ∃ t, s.table? main c.source = some t ∧ ∃ column ∈ t.columns, column.name = c.column

/-- The names of the outputs of a select. -/
def Select.outputNames (naming : Naming) (main : Table) (scope : Scope) (s : Select) :
    List String :=
  ({} : Allocator).allocateAll ((s.effectiveColumns main).filterMap (·.baseName? scope naming))

/-- The checks of a select on a table whose joins resolve to a scope. -/
structure Select.Accepted (naming : Naming) (main : Table) (scope : Scope) (s : Select) : Prop where
  /-- A single value has one column. -/
  arity : s.mode = .field → (s.effectiveColumns main).length = 1
  /-- Columns in the select list, in the filter and in the order exist. -/
  declared : ∀ c ∈ s.references main, s.Declares main c
  /-- Expressions have a type. -/
  typed : ∀ c ∈ s.effectiveColumns main, c.IsTyped
  /-- Order keys that name an output, in either spelling, name one there is. -/
  found : ∀ name, .output name ∈ s.orderBy.map (·.target) →
    ∃ n ∈ s.outputNames naming main scope, Name.snake n = Name.snake name
  /-- Parameters of one name have one type, the bounds of a page included. -/
  agree : Agree s.occurrences

theorem Table.column_isOk_iff {t : Table} {name : String} :
    (∃ column, t.column name = .ok column) ↔ ∃ column ∈ t.columns, column.name = name :=
  exists_congr fun _ => column_eq_ok_iff

/-- The columns in scope are those of the tables of the select. -/
theorem Scope.knows_iff_declares {main : Table} {select : Select}
    (h : Scope.resolve main select.joins = .ok s) {c : ColumnRef} :
    s.Knows c ↔ select.Declares main c := by
  obtain ⟨hmain, -, sit⟩ := Scope.sitsAt_of_resolve h
  have hjoined := Join.map_table_of_sitsAt sit
  have tables : ∀ t, (∃ seat, s.seat c = .ok seat ∧ seat.table = t) ↔
      select.table? main c.source = some t := by
    intro t
    cases source : c.source with
    | main => simp [Scope.seat, source, Select.table?, hmain]
    | join index =>
      rw [Select.table?, ← List.getElem?_map, ← hjoined, List.getElem?_map, Scope.seat, source]
      cases found : s.joined[index]? with
      | none => simp [found]
      | some seat => simp [found]
  constructor
  · rintro ⟨column, hcolumn⟩
    obtain ⟨seat, hseat, hplace⟩ := Scope.column_eq_ok_iff.1 hcolumn
    exact ⟨seat.table, (tables _).1 ⟨seat, hseat, rfl⟩, Table.column_isOk_iff.1 ⟨column, hplace⟩⟩
  · rintro ⟨t, source, known⟩
    obtain ⟨seat, hseat, rfl⟩ := (tables t).2 source
    obtain ⟨column, hplace⟩ := Table.column_isOk_iff.2 known
    exact ⟨column, Scope.column_eq_ok_iff.2 ⟨seat, hseat, hplace⟩⟩

theorem Select.accepted_of_yields {naming : Naming} {main : Table} {select : Select}
    {outputs : List Output} {ps : List Piece}
    (h : (select.write naming main).Yields outputs ps) (agree : Agree (slots ps)) :
    ∃ scope, Scope.resolve main select.joins = .ok scope ∧
      select.Accepted naming main scope := by
  rw [Select.slots_write h] at agree
  obtain ⟨scope, list, tables, filter, order, page, hscope, harity, hlist, -, hfilter, horder, -,
    -⟩ := Select.yields_write h
  have list_ok := succeeds_writeSelectList.1 ⟨outputs, list, hlist⟩
  obtain ⟨order_columns, order_outputs⟩ := succeeds_writeOrder.1 ⟨(), order, horder⟩
  refine ⟨scope, hscope, checkArity_eq_ok_iff.1 harity, ?_, fun c hc => (list_ok c hc).2.1, ?_,
    agree⟩
  · intro c hc
    rw [← Scope.knows_iff_declares hscope]
    rw [Select.references, List.mem_append, List.mem_append] at hc
    rcases hc with (hc | hc) | hc
    · obtain ⟨entry, hentry, hc⟩ := List.mem_flatMap.1 hc
      exact (list_ok entry hentry).1 c hc
    · exact Filter.succeeds_write.1 ⟨(), filter, hfilter⟩ c hc
    · exact order_columns c hc
  · rw [names_writeSelectList hlist] at order_outputs
    exact order_outputs

theorem Select.yields_of_accepted {naming : Naming} {main : Table} {select : Select}
    {scope : Scope} (hscope : Scope.resolve main select.joins = .ok scope)
    (h : select.Accepted naming main scope) :
    ∃ outputs ps, (select.write naming main).Yields outputs ps ∧ Agree (slots ps) := by
  have known : ∀ c ∈ select.references main, scope.Knows c :=
    fun c hc => (Scope.knows_iff_declares hscope).2 (h.declared c hc)
  rw [Select.references, List.forall_mem_append, List.forall_mem_append] at known
  obtain ⟨⟨list_known, filter_known⟩, order_known⟩ := known
  -- an expression is settled alone, with some of the parameters of the select
  have list_agree : ∀ c ∈ select.effectiveColumns main, Agree c.occurrences := by
    intro c hc
    refine h.agree.of_subset fun b hb => ?_
    rw [Select.occurrences, ← select.flatMap_occurrences_effectiveColumns main, List.mem_append,
      List.mem_append]
    exact .inl (.inl (List.mem_flatMap.2 ⟨c, hc, hb⟩))
  have list_ok : (writeSelectList scope naming {} (select.effectiveColumns main)).Succeeds :=
    succeeds_writeSelectList.2 fun c hc =>
      ⟨fun r hr => list_known r (List.mem_flatMap.2 ⟨c, hc, hr⟩), h.typed c hc, list_agree c hc⟩
  obtain ⟨outputs, list, hlist⟩ := list_ok
  have order_ok : (writeOrder outputs (.select scope) select.orderBy).Succeeds := by
    refine succeeds_writeOrder.2 ⟨order_known, ?_⟩
    rw [names_writeSelectList hlist]
    exact h.found
  have page_ok : (writePage select.paginated).Succeeds :=
    ⟨(), _, yields_writePage.2 rfl⟩
  have written : (select.write naming main).Succeeds := by
    rw [Select.write, Draft.succeeds_lift_bind]
    refine ⟨scope, hscope, ?_⟩
    rw [Draft.succeeds_lift_bind]
    refine ⟨(), checkArity_eq_ok_iff.2 h.arity, ?_⟩
    rw [Draft.succeeds_bind_unit, Draft.succeeds_bind]
    refine ⟨Draft.succeeds_write, outputs, list, hlist, ?_⟩
    simp only [Draft.succeeds_bind_unit, Draft.succeeds_pure, and_true]
    exact ⟨Select.succeeds_writeTables hscope, Filter.succeeds_write.2 filter_known, order_ok,
      page_ok⟩
  obtain ⟨outputs, ps, hwrite⟩ := written
  refine ⟨outputs, ps, hwrite, ?_⟩
  rw [Select.slots_write hwrite]
  exact h.agree

theorem Select.settle_isOk_iff_accepted {naming : Naming} {main : Table} {select : Select} :
    (∃ r, (select.write naming main).settle = .ok r) ↔
      ∃ scope, Scope.resolve main select.joins = .ok scope ∧
        select.Accepted naming main scope := by
  rw [Draft.settle_isOk_iff]
  constructor
  · rintro ⟨outputs, ps, h, agree⟩
    exact Select.accepted_of_yields h agree
  · rintro ⟨scope, hscope, h⟩
    exact Select.yields_of_accepted hscope h

theorem prepareRows_isOk_iff {kind : ActionKind} {draft : Draft (List Output)} :
    (∃ r, prepareRows kind draft = .ok r) ↔ ∃ r, draft.settle = .ok r := by
  constructor
  · rintro ⟨⟨kind', statement, shape⟩, h⟩
    obtain ⟨outputs, hsettle, -⟩ := prepareRows_eq_ok h
    exact ⟨_, hsettle⟩
  · rintro ⟨⟨outputs, statement⟩, h⟩
    exact ⟨_, bind_eq_ok_iff.2 ⟨_, h, rfl⟩⟩

/-- A select is written, and compiles as an action, if and only if its joins
    resolve and its checks hold. -/
theorem Select.compile_isOk_iff_accepted (o : Options) (name : String) (main : Table)
    (select : Select) :
    ((∃ r, (select.write o.naming main).settle = .ok r) ↔
      ∃ scope, Scope.resolve main select.joins = .ok scope ∧
        select.Accepted o.naming main scope) ∧
    ((∃ c, (Action.perform name main (.select select)).compile o = .ok c) ↔
      ∃ scope, Scope.resolve main select.joins = .ok scope ∧
        select.Accepted o.naming main scope) := by
  refine ⟨Select.settle_isOk_iff_accepted, ?_⟩
  rw [← Select.settle_isOk_iff_accepted, ← @prepareRows_isOk_iff (.ofSelect select.mode)]
  constructor
  · rintro ⟨c, h⟩
    obtain ⟨p, hp, -⟩ := Action.compile_eq_ok_iff.1 h
    exact ⟨_, (Action.prepare_perform_eq_ok hp).1⟩
  · rintro ⟨⟨kind, statement, shape⟩, h⟩
    exact ⟨_, Action.compile_eq_ok_iff.2 ⟨_, bind_eq_ok_iff.2 ⟨_, h, rfl⟩, rfl⟩⟩

end Bindery
