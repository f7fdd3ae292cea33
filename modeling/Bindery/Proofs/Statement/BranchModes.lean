import Bindery.Proofs.Statement.Branches

/-!
# Modes of branches

How many rows a union gives is for its own mode to say. The mode of a branch changes
neither its statement nor its outputs; but a branch that asks for a single value has
its columns counted like a select that stands alone. A union with the modes of its
branches is therefore the union without them, or that one broken off at a branch in
field mode with another number of columns than one.

* `Draft.CutFrom`: a draft that is another one, unless a fault ends it before.
* `Union.relaxed`: the union without the modes of its branches.
* `Union.FitsModes`: every branch in field mode has one column.
* `Union.compile_of_relaxed_eq`: what unions that differ in these modes compile to.
-/

namespace Bindery

/-! ## Drafts that a fault ends -/

/-- A conflict is found again in a longer list. -/
theorem conflictFrom?_append_of_eq_some {earlier bs : List Binding} {name : String}
    (h : conflictFrom? earlier bs = some name) (cs : List Binding) :
    conflictFrom? earlier (bs ++ cs) = some name := by
  rw [conflictFrom?_append, h]
  rfl

namespace Draft

variable {α β : Type} {P Q : Fault → Prop}

/-- A draft is another one, or a fault of a kind ends it before. -/
def CutFrom (P : Fault → Prop) (x y : Draft α) : Prop :=
  x = y ∨ ∃ fault behind, P fault ∧ x.result = .error fault ∧ y.pieces = x.pieces ++ behind

theorem CutFrom.refl (x : Draft α) : CutFrom P x x := .inl rfl

theorem CutFrom.imp {x y : Draft α} (h : CutFrom P x y) (weaker : ∀ fault, P fault → Q fault) :
    CutFrom Q x y := by
  rcases h with same | ⟨fault, behind, kind, result, pieces⟩
  · exact .inl same
  · exact .inr ⟨fault, behind, weaker fault kind, result, pieces⟩

theorem exists_pieces_bind (x : Draft α) (f : α → Draft β) :
    ∃ behind, (x >>= f).pieces = x.pieces ++ behind := by
  cases h : x.result with
  | error fault => exact ⟨[], by simp [bind_of_error h]⟩
  | ok a => exact ⟨(f a).pieces, by rw [bind_of_ok h]⟩

/-- Drafts that go on alike stay alike up to the fault. -/
theorem CutFrom.bind {x y : Draft α} {f g : α → Draft β} (h : CutFrom P x y)
    (next : ∀ a, CutFrom P (f a) (g a)) : CutFrom P (x >>= f) (y >>= g) := by
  rcases h with rfl | ⟨fault, behind, kind, result, pieces⟩
  · cases result : x.result with
    | error fault =>
      rw [bind_of_error result, bind_of_error result]
      exact .refl _
    | ok a =>
      rw [bind_of_ok result, bind_of_ok result]
      rcases next a with same | ⟨fault, behind, kind, failed, pieces⟩
      · rw [same]
        exact .refl _
      · exact .inr ⟨fault, behind, kind, failed, by simp [pieces]⟩
  · rw [bind_of_error result]
    obtain ⟨further, hfurther⟩ := exists_pieces_bind y g
    exact .inr ⟨fault, behind ++ further, kind, rfl, by rw [hfurther, pieces, List.append_assoc]⟩

theorem CutFrom.lift {r r' : Except Fault α}
    (h : r = r' ∨ ∃ fault, P fault ∧ r = .error fault) :
    CutFrom P (liftM r : Draft α) (liftM r') := by
  rcases h with rfl | ⟨fault, kind, rfl⟩
  · exact .refl _
  · exact .inr ⟨fault, [], kind, rfl, rfl⟩

/-- A conflict in front of the fault ends both drafts alike. -/
theorem CutFrom.settle {x y : Draft α} (h : CutFrom P x y) :
    x.settle = y.settle ∨ ∃ fault, P fault ∧ x.settle = .error fault := by
  rcases h with rfl | ⟨fault, behind, kind, result, pieces⟩
  · exact .inl rfl
  · have bindings : (Statement.mk y.pieces).bindings =
        (Statement.mk x.pieces).bindings ++ slots behind := by
      rw [pieces]
      exact slots_append _ _
    cases conflict : conflict? (Statement.mk x.pieces).bindings with
    | some name =>
      have later : conflict? (Statement.mk y.pieces).bindings = some name := by
        rw [bindings]
        exact conflictFrom?_append_of_eq_some conflict _
      exact .inl (by rw [Draft.settle, Draft.settle, conflict, later])
    | none => exact .inr ⟨fault, kind, by rw [Draft.settle, conflict, result]; rfl⟩

end Draft

/-! ## Branches -/

namespace UnionBranch

/-- The branch without its mode. -/
def relaxed (b : UnionBranch) : UnionBranch := { b with select := { b.select with mode := .many } }

/-- The number of columns that a branch selects. -/
def width (b : UnionBranch) : Nat := (b.select.effectiveColumns b.table).length

/-- A branch that asks for a single value has one column. -/
def FitsMode (b : UnionBranch) : Prop := b.select.mode = .field → b.width = 1

instance (b : UnionBranch) : Decidable b.FitsMode :=
  inferInstanceAs (Decidable (b.select.mode = .field → b.width = 1))

/-- The fault of a branch whose columns do not fit its mode. -/
def Misfit (b : UnionBranch) (fault : Fault) : Prop :=
  ¬ b.FitsMode ∧ fault = .fieldSelectArity b.width

theorem checkArity_mode (b : UnionBranch) :
    checkArity b.select.mode b.width = checkArity .many b.width ∨
      ∃ fault, b.Misfit fault ∧ checkArity b.select.mode b.width = .error fault := by
  by_cases fits : b.FitsMode
  · left
    rw [checkArity_eq_ok_iff.2 fits, checkArity_eq_ok_iff.2 (by simp)]
  · right
    have both : b.select.mode = .field ∧ b.width ≠ 1 := Classical.not_imp.1 fits
    exact ⟨_, ⟨fits, rfl⟩, by rw [checkArity, if_pos both]⟩

/-- The select of a branch is written as without its mode, unless it does not fit. -/
theorem cutFrom_select (naming : Naming) (b : UnionBranch) :
    Draft.CutFrom b.Misfit (b.select.write naming b.table)
      (b.relaxed.select.write naming b.table) := by
  unfold Select.write
  refine (Draft.CutFrom.refl _).bind fun scope => ?_
  exact (Draft.CutFrom.lift b.checkArity_mode).bind fun _ => .refl _

theorem cutFrom_write (naming : Naming) (b : UnionBranch) :
    Draft.CutFrom b.Misfit (b.write naming) (b.relaxed.write naming) :=
  (Draft.CutFrom.lift (b.cutFrom_select naming).settle).bind fun _ => .refl _

/-- A branch that settles fits its mode and has an output for each column. -/
theorem Settles.width_eq {naming : Naming} {b : UnionBranch} {r : Rows}
    (h : b.Settles naming r) : b.FitsMode ∧ r.1.length = b.width := by
  obtain ⟨outputs, s⟩ := r
  obtain ⟨_, _, _, _, _, _, -, arity, hlist, -⟩ :=
    Select.yields_write (Draft.settle_eq_ok_iff_yields.1 h).2
  exact ⟨checkArity_eq_ok_iff.1 arity, length_writeSelectList hlist⟩

end UnionBranch

/-! ## Unions -/

namespace Union

/-- The union without the modes of its branches. -/
def relaxed (u : Union) : Union := { u with branches := u.branches.map UnionBranch.relaxed }

/-- Every branch that asks for a single value has one column. -/
def FitsModes (u : Union) : Prop := ∀ b ∈ u.branches, b.FitsMode

instance (u : Union) : Decidable u.FitsModes :=
  inferInstanceAs (Decidable (∀ b ∈ u.branches, b.FitsMode))

/-- The fault of a branch whose columns do not fit its mode. -/
def Misfit (u : Union) (fault : Fault) : Prop := ∃ b ∈ u.branches, b.Misfit fault

theorem cutFrom_writeBranches (naming : Naming) (outputs : List Output) (number : Nat)
    (bs : List (UnionMode × UnionBranch)) :
    Draft.CutFrom (fun fault => ∃ mb ∈ bs, mb.2.Misfit fault)
      (writeBranches naming outputs number bs)
      (writeBranches naming outputs number (bs.map fun mb => (mb.1, mb.2.relaxed))) := by
  induction bs generalizing outputs number with
  | nil => exact .refl _
  | cons mb rest ih =>
    obtain ⟨mode, b⟩ := mb
    rw [List.map_cons, writeBranches, writeBranches]
    refine (Draft.CutFrom.refl _).bind fun _ => ?_
    refine ((b.cutFrom_write naming).imp fun fault misfit =>
      ⟨(mode, b), List.mem_cons_self, misfit⟩).bind fun later => ?_
    by_cases width : later.length = outputs.length
    · simp only [width, ne_eq, not_true, if_false]
      refine (ih _ _).imp ?_
      rintro fault ⟨mb, member, misfit⟩
      exact ⟨mb, List.mem_cons_of_mem _ member, misfit⟩
    · simp only [ne_eq, width, not_false_eq_true, if_true]
      exact .refl _

theorem split_relaxed (u : Union) :
    u.relaxed.split =
      u.split.map fun fl => (fl.1.relaxed, fl.2.map fun mb => (mb.1, mb.2.relaxed)) := by
  rcases hu : u.branches with _ | ⟨first, _ | ⟨second, rest⟩⟩
  · simp [split, relaxed, hu, Except.map]
  · simp [split, relaxed, hu, Except.map]
  · by_cases joined : u.modes.length = rest.length + 1
    · have zipped : u.modes.zip (second.relaxed :: rest.map UnionBranch.relaxed) =
          (u.modes.zip (second :: rest)).map fun mb => (mb.1, mb.2.relaxed) := by
        rw [← List.map_cons]
        exact List.zip_map_right ..
      simp [split, relaxed, hu, joined, Except.map, zipped]
    · simp [split, relaxed, hu, joined, Except.map]

/-- A union is written as without the modes of its branches, up to the first branch
    that does not fit its own. -/
theorem cutFrom_write (naming : Naming) (u : Union) :
    Draft.CutFrom u.Misfit (u.write naming) (u.relaxed.write naming) := by
  rw [Union.write, Union.write, split_relaxed]
  cases hsplit : u.split with
  | error fault => exact .refl _
  | ok parts =>
    obtain ⟨first, later⟩ := parts
    obtain ⟨all, -, -⟩ := split_eq_ok hsplit
    have of_first : ∀ fault, first.Misfit fault → u.Misfit fault := by
      intro fault misfit
      exact ⟨first, by simp [all], misfit⟩
    have of_later : ∀ fault, (∃ mb ∈ later, mb.2.Misfit fault) → u.Misfit fault := by
      rintro fault ⟨mb, member, misfit⟩
      refine ⟨mb.2, ?_, misfit⟩
      rw [all]
      exact List.mem_cons_of_mem _ (List.mem_map_of_mem member)
    show Draft.CutFrom u.Misfit (first.write naming >>= _) (first.relaxed.write naming >>= _)
    refine ((first.cutFrom_write naming).imp of_first).bind fun outputs => ?_
    exact ((cutFrom_writeBranches naming outputs 2 later).imp of_later).bind fun _ => .refl _

section Compilation

variable {o : Options} {name : String} {table : Table} {u u' : Union}

/-- What a union compiles to depends on its mode and on what it settles as. -/
theorem compile_eq_of_settle (mode : u.mode = u'.mode)
    (settle : (u.write o.naming).settle = (u'.write o.naming).settle) :
    (Action.perform name table (.union u)).compile o =
      (Action.perform name table (.union u')).compile o := by
  have prepared : (Task.union u).prepare o.naming table = (Task.union u').prepare o.naming table := by
    rw [Task.prepare, Task.prepare, prepareRows, prepareRows, mode, settle]
  rw [Action.compile_eq_map_prepare, Action.compile_eq_map_prepare, Action.prepare, Action.prepare,
    prepared]

theorem compile_eq_error_of_settle {fault : Fault}
    (settle : (u.write o.naming).settle = .error fault) :
    (Action.perform name table (.union u)).compile o = .error fault := by
  rw [Action.compile_eq_map_prepare, Action.prepare, Task.prepare, prepareRows, settle]
  rfl

/-- A union compiles as without the modes of its branches, or fails at a branch that
    does not fit its own. -/
theorem compile_relaxed_or_misfit (o : Options) (name : String) (table : Table) (u : Union) :
    (Action.perform name table (.union u)).compile o =
        (Action.perform name table (.union u.relaxed)).compile o ∨
      ∃ b ∈ u.branches, ¬ b.FitsMode ∧
        (Action.perform name table (.union u)).compile o = .error (.fieldSelectArity b.width) := by
  rcases (u.cutFrom_write o.naming).settle with same | ⟨_, ⟨b, member, misfit, rfl⟩, failed⟩
  · exact .inl (compile_eq_of_settle rfl same)
  · exact .inr ⟨b, member, misfit, compile_eq_error_of_settle failed⟩

/-- The branches of a union that compiles fit their modes and have equally many
    columns. -/
theorem fitsModes_of_compile {c : Compiled}
    (h : (Action.perform name table (.union u)).compile o = .ok c) :
    u.FitsModes ∧ ∃ width, ∀ b ∈ u.branches, b.width = width := by
  obtain ⟨r, settled, -⟩ := Action.settle_of_compile rfl h
  obtain ⟨-, -, head, rows, _, each, width, -⟩ :=
    yields_write_iff.1 (Draft.settle_eq_ok_iff_yields.1 settled).2
  have equal : ∀ r ∈ head :: rows, r.1.length = head.1.length :=
    List.forall_mem_cons.2 ⟨rfl, width⟩
  have both : ∀ b ∈ u.branches, b.FitsMode ∧ b.width = head.1.length := by
    refine forall_of_forall₂ (fun r member b settles => ?_) each.flip
    obtain ⟨fits, count⟩ := UnionBranch.Settles.width_eq settles
    exact ⟨fits, count.symm.trans (equal r member)⟩
  exact ⟨fun b member => (both b member).1, head.1.length, fun b member => (both b member).2⟩

theorem compile_relaxed (fits : u.FitsModes) :
    (Action.perform name table (.union u)).compile o =
      (Action.perform name table (.union u.relaxed)).compile o := by
  rcases u.compile_relaxed_or_misfit o name table with same | ⟨b, member, misfit, -⟩
  · exact same
  · exact absurd (fits b member) misfit

/-- The error that a union compiles to if a branch does not fit its mode, and all would
    be well without. -/
theorem compile_eq_misfit {c : Compiled}
    (h : (Action.perform name table (.union u.relaxed)).compile o = .ok c) (misfit : ¬ u.FitsModes) :
    ∃ b ∈ u.relaxed.branches,
      (Action.perform name table (.union u)).compile o = .error (.fieldSelectArity b.width) := by
  rcases u.compile_relaxed_or_misfit o name table with same | ⟨b, member, -, failed⟩
  · exact absurd (fitsModes_of_compile (same.trans h)).1 misfit
  · exact ⟨b.relaxed, List.mem_map_of_mem member, failed⟩

end Compilation

/-- Unions that are equal without the modes of their branches compile to the same if
    every branch in field mode has one column. Where they compile without these modes,
    they compile to the same exactly if this holds of both or of neither; and a union
    never compiles to anything but what it does without them or the fault of a branch
    in field mode. -/
theorem compile_of_relaxed_eq (o : Options) (name : String) (table : Table) {u u' : Union}
    (same : u.relaxed = u'.relaxed) :
    (u.FitsModes → u'.FitsModes →
      (Action.perform name table (.union u)).compile o =
        (Action.perform name table (.union u')).compile o) ∧
    (∀ c, (Action.perform name table (.union u.relaxed)).compile o = .ok c →
      ((Action.perform name table (.union u)).compile o =
        (Action.perform name table (.union u')).compile o ↔ (u.FitsModes ↔ u'.FitsModes))) ∧
    ((Action.perform name table (.union u)).compile o =
        (Action.perform name table (.union u.relaxed)).compile o ∨
      ∃ b ∈ u.branches, ¬ b.FitsMode ∧
        (Action.perform name table (.union u)).compile o =
          .error (.fieldSelectArity b.width)) := by
  have fit_alike : u.FitsModes → u'.FitsModes →
      (Action.perform name table (.union u)).compile o =
        (Action.perform name table (.union u')).compile o := by
    intro fits fits'
    rw [compile_relaxed fits, compile_relaxed fits', same]
  refine ⟨fit_alike, fun c h => ⟨fun alike => ⟨fun fits => ?_, fun fits => ?_⟩, fun both => ?_⟩,
    u.compile_relaxed_or_misfit o name table⟩
  · exact (fitsModes_of_compile (alike.symm.trans ((compile_relaxed fits).trans h))).1
  · rw [same] at h
    exact (fitsModes_of_compile (alike.trans ((compile_relaxed fits).trans h))).1
  · by_cases fits : u.FitsModes
    · exact fit_alike fits (both.1 fits)
    · -- Both fail, each at a branch of its own; but all branches have equally many columns.
      obtain ⟨width, equal⟩ := (fitsModes_of_compile h).2
      obtain ⟨b, member, failed⟩ := compile_eq_misfit h fits
      obtain ⟨b', member', failed'⟩ := compile_eq_misfit (same ▸ h) (mt both.2 fits)
      rw [failed, failed', equal b member, equal b' (same ▸ member')]

end Union

/-- The ranked accounts, with a mode for the first of the lists. -/
def rankedAccountsBy (mode : SelectMode) : Union :=
  { rankedAccounts with
    branches := [⟨accounts, { accountsAbove "low" false with mode }⟩,
      ⟨accounts, accountsAbove "high" true⟩] }

theorem rankedAccountsBy_alike :
    (rankedAccountsBy .one).relaxed = (rankedAccountsBy .many).relaxed ∧
    (rankedAccountsBy .one).FitsModes ∧
    (Action.perform "ranked" accounts (.union (rankedAccountsBy .one))).compile {} =
      (Action.perform "ranked" accounts (.union (rankedAccountsBy .many))).compile {} := by
  have same : (rankedAccountsBy .one).relaxed = (rankedAccountsBy .many).relaxed := rfl
  have fits : (rankedAccountsBy .one).FitsModes := by decide
  obtain ⟨alike, -, -⟩ := Union.compile_of_relaxed_eq {} "ranked" accounts same
  exact ⟨same, fits, alike fits (by decide)⟩

/-- The mode of a branch is not without effect: it can make a union fail. -/
theorem rankedAccountsBy_field :
    (rankedAccountsBy .field).relaxed = (rankedAccountsBy .many).relaxed ∧
    (Action.perform "ranked" accounts (.union (rankedAccountsBy .field))).compile {} =
      .error (.fieldSelectArity 2) ∧
    ∃ c, (Action.perform "ranked" accounts (.union (rankedAccountsBy .many))).compile {} =
      .ok c :=
  ⟨rfl, rfl, _, rfl⟩

end Bindery
