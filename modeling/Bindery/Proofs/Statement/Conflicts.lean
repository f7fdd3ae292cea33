import Bindery.Proofs.Scope.Resolution
import Bindery.Proofs.Statement.Acceptance

/-!
# Conflicts of parameters

A statement is refused over a parameter only if the definition uses the name of this
parameter with two types. A draft may end early and is checked all the same, so this
takes a law of drafts that holds wherever they end: they have written placeholders for
parameters of the definition only, and a conflict that they report is one of them.

* `Clash`: a name is used with two types.
* `Justified`: a conflict is reported of such a name only.
* `Draft.Within`: the law of drafts; each writer keeps it for the parameters of what it
  writes.
* `Action.justified_compile`: actions are refused over conflicts of their parameters.
-/

namespace Bindery

/-! ## Justified faults -/

/-- A name is used with two types. -/
def Clash (bs : List Binding) (name : String) : Prop :=
  ∃ b ∈ bs, ∃ b' ∈ bs, b.name = name ∧ b'.name = name ∧ b.type ≠ b'.type

instance (bs : List Binding) (name : String) : Decidable (Clash bs name) :=
  inferInstanceAs (Decidable
    (∃ b ∈ bs, ∃ b' ∈ bs, b.name = name ∧ b'.name = name ∧ b.type ≠ b'.type))

theorem Clash.of_subset {bs cs : List Binding} {name : String} (h : Clash bs name)
    (within : bs ⊆ cs) : Clash cs name := by
  obtain ⟨b, hb, b', hb', names⟩ := h
  exact ⟨b, within hb, b', within hb', names⟩

/-- A parameter conflicts with the first one of its name. -/
theorem Binding.exists_of_conflicts {earlier : List Binding} {b : Binding}
    (h : b.conflicts earlier = true) :
    ∃ first ∈ earlier, first.name = b.name ∧ first.type ≠ b.type := by
  unfold Binding.conflicts at h
  cases found : earlier.find? (·.name == b.name) with
  | none =>
    rw [found] at h
    cases h
  | some first =>
    rw [found, Option.any_some, bne_iff_ne] at h
    exact ⟨first, List.mem_of_find?_eq_some found, by simpa using List.find?_some found, h⟩

theorem clash_of_conflictFrom? {earlier bs : List Binding} {name : String}
    (h : conflictFrom? earlier bs = some name) : Clash (earlier ++ bs) name := by
  induction bs generalizing earlier with
  | nil => cases h
  | cons b rest ih =>
    rw [conflictFrom?] at h
    split at h
    · next conflicts =>
      cases h
      obtain ⟨first, member, name_eq, differ⟩ := Binding.exists_of_conflicts conflicts
      exact ⟨first, List.mem_append_left _ member, b, by simp, name_eq, rfl, differ⟩
    · rw [List.append_cons]
      exact ih h

theorem clash_of_conflict? {bs : List Binding} {name : String} (h : conflict? bs = some name) :
    Clash bs name := by
  have clash := clash_of_conflictFrom? h
  rwa [List.nil_append] at clash

/-- If the outcome is the fault that a parameter is in conflict, its name is used with
    two types. -/
def Justified {α : Type} (bs : List Binding) (r : Except Fault α) : Prop :=
  ∀ name, r = .error (.conflictingParam name) → Clash bs name

section

variable {α β : Type} {bs : List Binding}

@[simp] theorem justified_ok (a : α) : Justified bs (.ok a) := by
  intro name h
  cases h

@[simp] theorem justified_pure (a : α) : Justified bs (pure a) := justified_ok a

@[simp] theorem justified_error {fault : Fault} :
    Justified bs (.error fault : Except Fault α) ↔
      ∀ name, fault = .conflictingParam name → Clash bs name := by
  simp [Justified]

theorem Justified.bind {r : Except Fault α} {f : α → Except Fault β} (hr : Justified bs r)
    (hf : ∀ a, r = .ok a → Justified bs (f a)) : Justified bs (r >>= f) := by
  intro name h
  rcases bind_eq_error_iff.1 h with h | ⟨a, ha, h⟩
  · exact hr name h
  · exact hf a ha name h

theorem Justified.map {r : Except Fault α} (hr : Justified bs r) (f : α → β) :
    Justified bs (r.map f) := by
  intro name h
  exact hr name (map_eq_error_iff.1 h)

end

/-! ## Drafts -/

/-- A draft has placeholders for some of these parameters only, and a conflict it
    reports is one of them. -/
structure Draft.Within {α : Type} (bs : List Binding) (x : Draft α) : Prop where
  slots : Bindery.slots x.pieces ⊆ bs
  result : Justified bs x.result

namespace Draft

variable {α β : Type} {bs : List Binding}

@[simp] theorem within_pure (a : α) : (pure a : Draft α).Within bs :=
  ⟨List.nil_subset _, justified_ok a⟩

@[simp] theorem within_write {ps : List Piece} : (write ps).Within bs ↔ Bindery.slots ps ⊆ bs := by
  constructor
  · intro h
    exact h.slots
  · intro h
    exact ⟨h, justified_ok ()⟩

@[simp] theorem within_fail {fault : Fault} :
    (fail fault : Draft α).Within bs ↔ ∀ name, fault = .conflictingParam name → Clash bs name := by
  constructor
  · intro h
    exact justified_error.1 h.result
  · intro h
    exact ⟨List.nil_subset _, justified_error.2 h⟩

theorem within_lift {r : Except Fault α} (h : Justified bs r) : (liftM r : Draft α).Within bs :=
  ⟨List.nil_subset _, h⟩

/-- The pieces that were written before a fault stay, so the first part has to be looked at
    whether it ends the draft or not. -/
theorem Within.bind {x : Draft α} {f : α → Draft β} (hx : x.Within bs)
    (hf : ∀ a, x.Yields a x.pieces → (f a).Within bs) : (x >>= f).Within bs := by
  cases h : x.result with
  | error fault =>
    rw [bind_of_error h]
    refine ⟨hx.slots, ?_⟩
    have justified := hx.result
    rw [h, justified_error] at justified
    exact justified_error.2 justified
  | ok a =>
    have behind := hf a ⟨h, rfl⟩
    rw [bind_of_ok h]
    refine ⟨?_, behind.result⟩
    rw [slots_append]
    exact List.append_subset.2 ⟨hx.slots, behind.slots⟩

theorem Within.andThen {x : Draft Unit} {y : Unit → Draft β} (hx : x.Within bs)
    (hy : (y ()).Within bs) : (x >>= y).Within bs :=
  hx.bind fun _ _ => hy

theorem within_lift_bind {r : Except Fault α} {f : α → Draft β} (hr : Justified bs r)
    (hf : ∀ a, r = .ok a → (f a).Within bs) : ((liftM r : Draft α) >>= f).Within bs := by
  refine (within_lift hr).bind ?_
  intro a yields
  exact hf a (yields_lift.1 yields).1

theorem within_plain {ps : List Piece} (none : Bindery.slots ps = []) : (write ps).Within bs := by
  rw [within_write, none]
  exact List.nil_subset bs

/-- What is written first and has no placeholder leaves the rest to be looked at. -/
theorem within_plain_bind {ps : List Piece} {f : Unit → Draft β} (none : Bindery.slots ps = [])
    (hf : (f ()).Within bs) : (write ps >>= f).Within bs :=
  (within_plain none).andThen hf

theorem within_separated {separator : String} {xs : List (Draft Unit)}
    (each : ∀ x ∈ xs, x.Within bs) : (separated separator xs).Within bs := by
  fun_induction separated separator xs with
  | case1 => exact within_pure ()
  | case2 x => exact each x List.mem_cons_self
  | case3 x rest _ ih =>
    obtain ⟨first, others⟩ := List.forall_mem_cons.1 each
    exact first.andThen (within_plain_bind rfl (ih others))

/-- A draft that is settled reports the first conflict of its placeholders, or else its
    own fault. -/
theorem Within.settle {x : Draft α} (h : x.Within bs) : Justified bs x.settle := by
  rw [Draft.settle]
  split
  · next name conflict =>
    rw [justified_error]
    rintro _ ⟨⟩
    exact (clash_of_conflict? conflict).of_subset h.slots
  · exact h.result.map _

end Draft

/-! ## Tables and columns

Faults over tables and columns are no conflicts. -/

section

variable {bs : List Binding}

theorem Table.justified_column (t : Table) (name : String) : Justified bs (t.column name) := by
  rw [Table.column]
  split <;> simp

theorem Join.justified_parent (main : Seat) (earlier : List Seat) (j : Join) :
    Justified bs (j.parent main earlier) := by
  rw [Join.parent_eq]
  split <;> simp

theorem justified_seatJoins (main : Seat) (earlier : List Seat) (joins : List Join) :
    Justified bs (seatJoins main earlier joins) := by
  induction joins generalizing earlier with
  | nil => exact justified_ok earlier
  | cons j rest ih =>
    have seat : Justified bs (j.seat main earlier) := by
      refine (j.justified_parent main earlier).bind fun parent _ => ?_
      refine (parent.table.justified_column _).bind fun _ _ => ?_
      exact (j.table.justified_column _).bind fun _ _ => justified_pure _
    exact seat.bind fun seat _ => ih (earlier ++ [seat])

theorem Scope.justified_resolve (main : Table) (joins : List Join) :
    Justified bs (Scope.resolve main joins) := by
  unfold Scope.resolve
  split
  · simp
  · cases joins with
    | nil => exact justified_ok _
    | cons j rest =>
      refine (justified_seatJoins _ _ _).bind fun seats _ => ?_
      dsimp only
      split
      · next fault shadowed =>
        obtain ⟨t, -, rfl⟩ := Option.map_eq_some_iff.1 shadowed
        simp
      · exact justified_ok _

variable (s : Scope)

namespace Scope

theorem justified_seat (c : ColumnRef) : Justified bs (s.seat c) := by
  rw [seat_eq]
  split <;> simp

theorem justified_column (c : ColumnRef) : Justified bs (s.column c) :=
  (s.justified_seat c).bind fun seat _ => seat.table.justified_column _

theorem justified_columnPieces (c : ColumnRef) : Justified bs (s.columnPieces c) := by
  refine (s.justified_seat c).bind fun seat _ => ?_
  exact (seat.table.justified_column _).bind fun _ _ => justified_pure _

theorem justified_isOuter (c : ColumnRef) : Justified bs (s.isOuter c) :=
  (s.justified_seat c).bind fun _ _ => justified_pure _

theorem justified_outputName (naming : Naming) (c : ColumnRef) :
    Justified bs (s.outputName naming c) := by
  refine (s.justified_seat c).bind fun seat _ => ?_
  exact (seat.table.justified_column _).bind fun _ _ => justified_pure _

theorem within_writeColumn (c : ColumnRef) : (s.writeColumn c).Within bs := by
  refine Draft.within_lift_bind (s.justified_columnPieces c) fun ps hps => ?_
  exact Draft.within_plain (slots_columnPieces hps)

end Scope

/-! ## Filters -/

theorem FragmentPart.within_write {part : FragmentPart}
    (h : Fragment.occurrences ⟨[part]⟩ ⊆ bs) : (part.write s).Within bs := by
  cases part with
  | raw sql => exact Draft.within_plain rfl
  | column c => exact s.within_writeColumn c
  | param p => exact Draft.within_write.2 h

theorem Fragment.within_write {f : Fragment} (h : f.occurrences ⊆ bs) : (f.write s).Within bs := by
  obtain ⟨parts⟩ := f
  show (writeParts s parts).Within bs
  induction parts with
  | nil => exact Draft.within_pure ()
  | cons part rest ih =>
    rw [Fragment.occurrences_cons, List.append_subset] at h
    exact (part.within_write s h.1).andThen (ih h.2)

theorem Operand.within_write {x : Operand} (h : x.occurrences ⊆ bs) : (x.write s).Within bs := by
  cases x with
  | column c => exact s.within_writeColumn c
  | param p => exact Draft.within_write.2 h
  | literal v => exact Draft.within_plain rfl
  | raw sql => exact Draft.within_plain rfl

theorem within_writeRight {right : Option Operand}
    (h : right.toList.flatMap Operand.occurrences ⊆ bs) : (writeRight s right).Within bs := by
  cases right with
  | none => exact Draft.within_pure ()
  | some x =>
    refine Draft.within_plain_bind rfl (x.within_write s ?_)
    simpa using h

mutual

theorem Condition.within_write (c : Condition) (h : c.occurrences ⊆ bs) :
    (c.write s).Within bs := by
  match c with
  | .compare left op right =>
    rw [Condition.occurrences, List.append_subset] at h
    rw [Condition.write]
    exact (left.within_write s h.1).andThen
      (Draft.within_plain_bind rfl (within_writeRight s h.2))
  | .fragment f =>
    rw [Condition.occurrences] at h
    rw [Condition.write]
    exact f.within_write s h
  | .group connective conditions =>
    rw [Condition.occurrences] at h
    rw [Condition.write]
    refine Draft.within_plain_bind rfl ?_
    exact (within_writeConditions connective conditions h).andThen
      (Draft.within_plain rfl)

theorem within_writeConditions (connective : Connective) (cs : List Condition)
    (h : treeOccurrences cs ⊆ bs) : (writeConditions s connective cs).Within bs := by
  match cs with
  | [] =>
    rw [writeConditions]
    exact Draft.within_pure ()
  | [c] =>
    rw [treeOccurrences, List.append_subset] at h
    rw [writeConditions]
    exact Condition.within_write c h.1
  | c :: d :: rest =>
    rw [treeOccurrences, List.append_subset] at h
    rw [writeConditions]
    exact (Condition.within_write c h.1).andThen
      (Draft.within_plain_bind rfl (within_writeConditions connective (d :: rest) h.2))

end

theorem Filter.within_write {f : Filter} (h : f.occurrences ⊆ bs) : (f.write s).Within bs := by
  rw [Filter.write]
  split
  · exact Draft.within_pure ()
  · exact Draft.within_plain_bind rfl (within_writeConditions s f.connective f.conditions h)

/-! ## Selects -/

theorem justified_columnOutput (naming : Naming) (names : Name.Allocator) (c : ColumnRef)
    (outputName : Option String) : Justified bs (columnOutput s naming names c outputName) := by
  refine (s.justified_column c).bind fun column _ => ?_
  refine (s.justified_columnPieces c).bind fun expression _ => ?_
  cases outputName with
  | some name => exact (s.justified_isOuter c).bind fun _ _ => justified_pure _
  | none =>
    refine (s.justified_outputName naming c).bind fun base _ => ?_
    exact (s.justified_isOuter c).bind fun _ _ => justified_pure _

theorem justified_expressionType (name : String) (single : Option ColumnRef)
    (type : Option ColumnType) : Justified bs (expressionType s name single type) := by
  cases type with
  | some type => exact justified_ok type
  | none =>
    cases single with
    | some c => exact (s.justified_column c).map _
    | none => simp [expressionType]

theorem justified_expressionOutput (names : Name.Allocator) {f : Fragment} (outputName : String)
    (type : Option ColumnType) (h : f.occurrences ⊆ bs) :
    Justified bs (expressionOutput s names f outputName type) := by
  have settled : Justified bs (f.write s).settle := (f.within_write s h).settle
  refine (justified_expressionType s outputName _ type).bind fun type _ => ?_
  cases f.singleColumn? with
  | some c =>
    refine (s.justified_isOuter c).bind fun outer _ => ?_
    exact settled.bind fun _ _ => justified_pure _
  | none => exact settled.bind fun _ _ => justified_pure _

theorem SelectColumn.justified_output (naming : Naming) (names : Name.Allocator)
    {c : SelectColumn} (h : c.occurrences ⊆ bs) : Justified bs (c.output s naming names) := by
  cases c with
  | column c outputName => exact justified_columnOutput s naming names c outputName
  | expression f outputName type => exact justified_expressionOutput s names outputName type h

theorem within_writeSelectList (naming : Naming) (names : Name.Allocator)
    {cs : List SelectColumn} (h : cs.flatMap SelectColumn.occurrences ⊆ bs) :
    (writeSelectList s naming names cs).Within bs := by
  induction cs generalizing names with
  | nil => exact Draft.within_pure []
  | cons c rest ih =>
    rw [List.flatMap_cons, List.append_subset] at h
    rw [writeSelectList]
    refine Draft.within_lift_bind (c.justified_output s naming names h.1) ?_
    rintro ⟨o, names'⟩ houtput
    have item : slots o.item ⊆ bs := (c.slots_item houtput).1 ▸ h.1
    have later : (writeSelectList s naming names' rest >>= fun os => pure (o :: os)).Within bs :=
      (ih names' h.2).bind fun _ _ => Draft.within_pure _
    refine (Draft.within_write.2 item).andThen ?_
    dsimp only
    split
    · exact Draft.within_plain_bind rfl later
    · exact later

theorem Join.within_write (index : Nat) (j : Join) : (j.write s index).Within bs := by
  refine Draft.within_lift_bind (s.justified_seat _) fun seat _ => ?_
  refine Draft.within_plain_bind rfl ?_
  refine (s.within_writeColumn _).andThen ?_
  exact Draft.within_plain_bind rfl (s.within_writeColumn _)

theorem within_writeJoins (index : Nat) (js : List Join) : (writeJoins s index js).Within bs := by
  induction js generalizing index with
  | nil => exact Draft.within_pure ()
  | cons j rest ih => exact (j.within_write s index).andThen (ih (index + 1))

theorem Select.within_writeTables (select : Select) (main : Table) :
    (select.writeTables s main).Within bs := by
  refine Draft.within_plain_bind rfl ?_
  have joins : (writeJoins s 0 select.joins).Within bs := within_writeJoins s 0 select.joins
  dsimp only
  split
  · exact Draft.within_plain_bind rfl joins
  · exact joins

end

section

variable {bs : List Binding}

theorem OrderTarget.within_write {outputs : List Output} {scope : OrderScope}
    (plain : ∀ s, scope = .select s → ∀ o ∈ outputs, o.RepeatsNothing) (t : OrderTarget) :
    (t.write outputs scope).Within bs := by
  cases t with
  | output name =>
    rw [OrderTarget.write]
    split
    · next o found =>
      cases scope with
      | union => exact Draft.within_plain rfl
      | select s =>
        rw [Output.writeKey]
        split
        · exact Draft.within_plain rfl
        · next unnamed =>
          have none := plain s rfl o (mem_of_findOutput? found) (by simpa using unnamed)
          exact Draft.within_plain none
    · simp
  | column c =>
    cases scope with
    | select s => exact s.within_writeColumn c
    | union =>
      rw [OrderTarget.write]
      split
      · exact Draft.within_plain rfl
      · simp
  | raw sql => exact Draft.within_plain rfl

theorem within_writeOrder {outputs : List Output} {scope : OrderScope}
    (plain : ∀ s, scope = .select s → ∀ o ∈ outputs, o.RepeatsNothing) (keys : List OrderKey) :
    (writeOrder outputs scope keys).Within bs := by
  have each : ∀ k : OrderKey, (k.write outputs scope).Within bs := by
    intro k
    refine (k.target.within_write plain).andThen ?_
    split
    · exact Draft.within_plain rfl
    · exact Draft.within_pure ()
  cases keys with
  | nil => exact Draft.within_pure ()
  | cons k rest =>
    rw [writeOrder]
    · refine Draft.within_plain_bind rfl (Draft.within_separated ?_)
      intro x member
      obtain ⟨k', -, rfl⟩ := List.mem_map.1 member
      exact each k'
    · exact List.cons_ne_nil k rest

theorem within_writePage {paginated : Bool} (h : pageOccurrences paginated ⊆ bs) :
    (writePage paginated).Within bs := by
  cases paginated with
  | false => exact Draft.within_pure ()
  | true => exact Draft.within_write.2 h

theorem justified_checkArity (mode : SelectMode) (count : Nat) :
    Justified bs (checkArity mode count) := by
  rw [checkArity]
  split <;> simp

theorem Select.within_write (naming : Naming) (main : Table) {s : Select}
    (h : s.occurrences ⊆ bs) : (s.write naming main).Within bs := by
  rw [Select.occurrences, List.append_subset, List.append_subset,
    ← s.flatMap_occurrences_effectiveColumns main] at h
  obtain ⟨⟨columns, filter⟩, page⟩ := h
  refine Draft.within_lift_bind (Scope.justified_resolve main s.joins) fun scope _ => ?_
  refine Draft.within_lift_bind (justified_checkArity _ _) fun _ _ => ?_
  refine Draft.within_plain_bind rfl ?_
  -- An order is written only behind a whole select list, whose unnamed outputs have no
  -- parameters that it could repeat.
  refine (within_writeSelectList scope naming {} columns).bind fun outputs list => ?_
  refine (s.within_writeTables scope main).andThen ?_
  refine (s.filter.within_write scope filter).andThen ?_
  refine (within_writeOrder (fun _ _ => (slots_writeSelectList list).2) s.orderBy).andThen ?_
  exact (within_writePage page).andThen (Draft.within_pure outputs)

/-! ## Unions -/

theorem UnionBranch.within_write (naming : Naming) {b : UnionBranch}
    (h : b.select.occurrences ⊆ bs) : (b.write naming).Within bs := by
  -- A branch is settled alone: a conflict inside it is reported before it is written.
  have select := Select.within_write naming b.table h
  refine Draft.within_lift_bind select.settle ?_
  rintro ⟨outputs, statement⟩ settled
  obtain ⟨-, -, rfl⟩ := Draft.settle_eq_ok_iff.1 settled
  refine (Draft.within_write.2 ?_).andThen (Draft.within_pure outputs)
  simpa using select.slots

theorem within_writeBranches (naming : Naming) (outputs : List Output) (number : Nat)
    {branches : List (UnionMode × UnionBranch)}
    (h : branches.flatMap (·.2.select.occurrences) ⊆ bs) :
    (writeBranches naming outputs number branches).Within bs := by
  induction branches generalizing outputs number with
  | nil => exact Draft.within_pure outputs
  | cons first rest ih =>
    obtain ⟨mode, b⟩ := first
    rw [List.flatMap_cons, List.append_subset] at h
    rw [writeBranches]
    refine Draft.within_plain_bind rfl ?_
    refine (UnionBranch.within_write naming h.1).bind fun later _ => ?_
    dsimp only
    split
    · exact (Draft.within_fail.2 (by simp)).bind fun _ _ => ih _ _ h.2
    · exact ih _ _ h.2

theorem Union.justified_split (u : Union) : Justified bs u.split := by
  rw [Union.split]
  split
  · split <;> simp
  · simp

theorem Union.within_write (naming : Naming) {u : Union} (h : u.occurrences ⊆ bs) :
    (u.write naming).Within bs := by
  rw [Union.occurrences, List.append_subset] at h
  obtain ⟨branches, page⟩ := h
  refine Draft.within_lift_bind u.justified_split ?_
  rintro ⟨first, later⟩ split
  rw [(Union.split_eq_ok split).1, List.flatMap_cons, List.append_subset, List.flatMap_map]
    at branches
  refine (UnionBranch.within_write naming branches.1).bind fun head _ => ?_
  refine (within_writeBranches naming head 2 branches.2).bind fun outputs _ => ?_
  refine Draft.within_lift_bind (justified_checkArity _ _) fun _ _ => ?_
  refine (within_writeOrder (by intro _ union; cases union) u.orderBy).andThen ?_
  exact (within_writePage page).andThen (Draft.within_pure outputs)

/-! ## Writes -/

theorem justified_assignedTargets (table : Table) (earlier : List Target) (as : List Assignment) :
    Justified bs (assignedTargets table earlier as) := by
  induction as generalizing earlier with
  | nil => exact justified_ok earlier
  | cons a rest ih =>
    refine (table.justified_column a.column).bind fun column _ => ?_
    split
    · simp
    · exact ih _

theorem justified_targets (table : Table) (as : List Assignment) (fill : Bool)
    (skip : Column → Bool) : Justified bs (targets table as fill skip) := by
  refine (justified_assignedTargets table [] as).bind fun assigned _ => ?_
  dsimp only
  generalize (if fill then assigned ++ defaultTargets table assigned skip else assigned) = all
  split
  · simp
  · exact justified_ok all

theorem Target.within_writeValue (s : Scope) {t : Target} (h : t.value.occurrences ⊆ bs) :
    (t.writeValue s).Within bs := by
  rw [Target.writeValue]
  cases value : t.value with
  | param p =>
    rw [value] at h
    exact Draft.within_write.2 h
  | fragment f =>
    rw [value] at h
    exact f.within_write s h
  | default =>
    dsimp only
    split
    · exact Draft.within_plain rfl
    · simp

/-- The values of the columns that are set have the parameters of the assignments. -/
theorem occurrences_subset_of_mem_targets {table : Table} {as : List Assignment} {fill : Bool}
    {skip : Column → Bool} {ts : List Target} (h : targets table as fill skip = .ok ts)
    {t : Target} (member : t ∈ ts) : t.value.occurrences ⊆ assignmentOccurrences as := by
  rw [← flatMap_occurrences_targets h]
  intro b used
  exact List.mem_flatMap.2 ⟨t, member, used⟩

theorem Insert.within_write (table : Table) {i : Insert}
    (h : assignmentOccurrences i.assignments ⊆ bs) : (i.write table).Within bs := by
  refine Draft.within_lift_bind (Scope.justified_resolve table []) fun scope _ => ?_
  refine Draft.within_lift_bind (justified_targets table _ _ _) fun ts hts => ?_
  refine Draft.within_plain_bind rfl ?_
  refine Draft.Within.andThen (Draft.within_separated ?_) (Draft.within_plain_bind rfl
    (Draft.Within.andThen (Draft.within_separated ?_) (Draft.within_plain_bind rfl
      (Draft.within_pure ts))))
  · intro x member
    obtain ⟨t, -, rfl⟩ := List.mem_map.1 member
    exact Draft.within_plain rfl
  · intro x member
    obtain ⟨t, among, rfl⟩ := List.mem_map.1 member
    refine t.within_writeValue scope ?_
    exact List.Subset.trans (occurrences_subset_of_mem_targets hts among) h

theorem justified_checkRestricted (statement : String) (f : Filter) (unrestricted : Bool) :
    Justified bs (checkRestricted statement f unrestricted) := by
  rw [checkRestricted]
  split <;> simp

theorem Update.within_write (table : Table) {u : Update}
    (h : assignmentOccurrences u.assignments ++ u.filter.occurrences ⊆ bs) :
    (u.write table).Within bs := by
  obtain ⟨assigned, filter⟩ := List.append_subset.1 h
  refine Draft.within_lift_bind (justified_checkRestricted _ _ _) fun _ _ => ?_
  refine Draft.within_lift_bind (Scope.justified_resolve table []) fun scope _ => ?_
  refine Draft.within_lift_bind (justified_targets table _ _ _) fun ts hts => ?_
  refine Draft.within_plain_bind rfl ?_
  refine Draft.Within.andThen (Draft.within_separated ?_)
    ((u.filter.within_write scope filter).andThen (Draft.within_pure ts))
  intro x member
  obtain ⟨t, among, rfl⟩ := List.mem_map.1 member
  refine (scope.within_writeColumn _).andThen (Draft.within_plain_bind rfl ?_)
  exact t.within_writeValue scope
    (List.Subset.trans (occurrences_subset_of_mem_targets hts among) assigned)

theorem Delete.within_write (table : Table) {d : Delete} (h : d.filter.occurrences ⊆ bs) :
    (d.write table).Within bs := by
  refine Draft.within_lift_bind (justified_checkRestricted _ _ _) fun _ _ => ?_
  refine Draft.within_lift_bind (Scope.justified_resolve table []) fun scope _ => ?_
  exact Draft.within_plain_bind rfl (d.filter.within_write scope h)

theorem justified_settleTargets {draft : Draft (List Target)} (h : draft.Within bs) :
    Justified bs (settleTargets draft) := by
  refine h.settle.bind ?_
  rintro ⟨ts, statement⟩ -
  dsimp only
  split
  · next fault shadowed =>
    obtain ⟨t, -, rfl⟩ := Option.map_eq_some_iff.1 shadowed
    simp
  · exact justified_ok statement

/-! ## Actions -/

theorem justified_prepareRows (kind : ActionKind) {draft : Draft (List Output)}
    (h : draft.Within bs) : Justified bs (prepareRows kind draft) :=
  h.settle.bind fun _ _ => justified_pure _

theorem Task.justified_prepare (naming : Naming) (table : Table) (task : Task) :
    Justified task.occurrences (task.prepare naming table) := by
  cases task with
  | select s => exact justified_prepareRows _ (s.within_write naming table (List.Subset.refl _))
  | union u => exact justified_prepareRows _ (u.within_write naming (List.Subset.refl _))
  | insert i =>
    exact (justified_settleTargets (i.within_write table (List.Subset.refl _))).bind fun _ _ =>
      justified_pure _
  | update u =>
    exact (justified_settleTargets (u.within_write table (List.Subset.refl _))).bind fun _ _ =>
      justified_pure _
  | delete d =>
    exact ((d.within_write table (List.Subset.refl _)).settle.map _).bind fun _ _ =>
      justified_pure _

theorem justified_fixArguments (params : List String) (fixed args : List (String × Value)) :
    Justified bs (fixArguments params fixed args) := by
  induction args generalizing fixed with
  | nil => exact justified_ok fixed
  | cons arg rest ih =>
    rw [fixArguments]
    split
    · exact ih _
    · simp

theorem Action.justified_prepare (naming : Naming) (a : Action) :
    Justified a.occurrences (a.prepare naming) := by
  induction a with
  | perform name table task =>
    exact (task.justified_prepare naming table).bind fun _ _ => justified_pure _
  | wrap name table inner args ih =>
    exact ih.bind fun _ _ => (justified_fixArguments _ _ _).bind fun _ _ => justified_pure _

/-- An action is refused over a parameter only if its name is used with two types. -/
theorem Action.justified_compile (o : Options) (a : Action) :
    Justified a.occurrences (a.compile o) := by
  rw [compile_eq_map_prepare]
  exact (a.justified_prepare o.naming).map _

end

end Bindery
