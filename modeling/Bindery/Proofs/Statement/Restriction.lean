import Bindery.Proofs.Statement.Assignments
import Bindery.Proofs.Text.Token

/-!
# Filters that restrict

An update or a deletion needs a filter with conditions, unless it is marked as
unrestricted. Conditions always leave some text behind, but for one kind: a fragment
that is written as nothing. If it is the only condition of a filter, `WHERE` is left
without a condition, and if it is the only one of a group, or if a group has no
conditions, the parentheses are left empty.

* `Filter.isBlank`: no conditions, or a single fragment without any text.
* `Filter.groups`: the groups of a filter, at any depth.
* `Filter.text_eq_empty_iff`: the text of conditions is empty if the filter is blank.
* `Filter.standsIn_of_yields`: every group is written between parentheses.
* `Filter.restricts_iff`: what is written for a filter, and for the updates and deletions
  that it is to restrict.
-/

namespace Bindery

/-! ## Blank filters -/

/-- Whether the parts of a fragment are SQL without any text. -/
def Fragment.isBlank (f : Fragment) : Bool := f.parts.all (· == .raw "")

/-- Whether nothing is written for the condition. -/
def Condition.isBlank : Condition → Bool
  | .fragment f => f.isBlank
  | .compare .. | .group .. => false

/-- Whether nothing is written for the conditions. -/
def Filter.isBlank (f : Filter) : Bool :=
  match f.conditions with
  | [] => true
  | [c] => c.isBlank
  | _ :: _ :: _ => false

/-- Writes the conditions of a filter. -/
def Filter.writeBody (s : Scope) (f : Filter) : Draft Unit :=
  writeConditions s f.connective f.conditions

mutual

/-- The groups of a condition, at any depth. -/
def Condition.groups : Condition → List Filter
  | .compare .. | .fragment _ => []
  | .group connective conditions => ⟨connective, conditions⟩ :: treeGroups conditions

/-- The groups of conditions, one after the other. -/
def treeGroups : List Condition → List Filter
  | [] => []
  | c :: rest => c.groups ++ treeGroups rest

end

/-- The groups of a filter, at any depth. -/
def Filter.groups (f : Filter) : List Filter := treeGroups f.conditions

theorem Filter.isBlank_iff {f : Filter} :
    f.isBlank = true ↔
      f.isEmpty = true ∨ ∃ x, f.conditions = [.fragment x] ∧ x.isBlank = true := by
  obtain ⟨connective, conditions⟩ := f
  match conditions with
  | [] => simp [isBlank, isEmpty]
  | [.compare ..] => simp [isBlank, isEmpty, Condition.isBlank]
  | [.fragment x] => simp [isBlank, isEmpty, Condition.isBlank]
  | [.group ..] => simp [isBlank, isEmpty, Condition.isBlank]
  | _ :: _ :: _ => simp [isBlank, isEmpty]

/-! ## Empty texts -/

variable {d : Dialect} {s : Scope} {ps : List Piece}

theorem piecesSql_eq_empty_iff : piecesSql d ps = "" ↔ ∀ p ∈ ps, p.sql d = "" := by
  induction ps with
  | nil => simp [piecesSql]
  | cons p ps ih =>
    rw [← List.singleton_append, piecesSql_append, String.append_eq_empty_iff, ih,
      List.singleton_append, List.forall_mem_cons]
    simp [piecesSql]

/-- A piece that has a text is enough for the pieces to have one. -/
theorem piecesSql_ne_empty {p : Piece} (member : p ∈ ps) (text : p.sql d ≠ "") :
    piecesSql d ps ≠ "" :=
  fun empty => text (piecesSql_eq_empty_iff.1 empty p member)

theorem Dialect.quote_ne_empty (d : Dialect) (name : String) : d.quote name ≠ "" := by
  intro empty
  have list := congrArg String.toList empty
  unfold quote at list
  rw [← List.append_nil (String.toList _), Dialect.toList_quoted_append] at list
  cases list

theorem FragmentPart.text_eq_empty_iff {part : FragmentPart} (h : (part.write s).Yields () ps) :
    piecesSql d ps = "" ↔ (part == .raw "") = true := by
  cases part with
  | raw sql =>
    rw [Draft.yields_write.1 h]
    simp [piecesSql, Piece.sql]
  | param p =>
    rw [Param.yields_write.1 h]
    simp [piecesSql, Piece.sql, Dialect.placeholder]
  | column c =>
    obtain ⟨seat, column, -, -, rfl⟩ :=
      Scope.columnPieces_eq_ok_iff.1 (Scope.yields_writeColumn.1 h)
    have named : Piece.name column.sqlName ∈
        (if s.hasJoins then [.name seat.label, .text ".", .name column.sqlName]
          else [.name column.sqlName] : List Piece) := by
      split <;> simp
    exact iff_of_false (piecesSql_ne_empty named (d.quote_ne_empty _)) (by simp)

theorem Fragment.text_eq_empty_iff {f : Fragment} (h : (f.write s).Yields () ps) :
    piecesSql d ps = "" ↔ f.isBlank = true := by
  obtain ⟨parts⟩ := f
  induction parts generalizing ps with
  | nil =>
    obtain ⟨-, rfl⟩ := Draft.yields_pure.1 h
    simp [piecesSql, isBlank]
  | cons part rest ih =>
    obtain ⟨before, hpart, behind, hrest, rfl⟩ := Draft.yields_bind_unit.1 h
    rw [piecesSql_append, String.append_eq_empty_iff, FragmentPart.text_eq_empty_iff hpart,
      ih hrest, ← Bool.and_eq_true]
    rfl

theorem Operator.sql_ne_empty (op : Operator) : op.sql ≠ "" := by cases op <;> decide

theorem Connective.sql_ne_empty (k : Connective) : k.sql ≠ "" := by cases k <;> decide

theorem Condition.text_eq_empty_iff {c : Condition} (h : (c.write s).Yields () ps) :
    piecesSql d ps = "" ↔ c.isBlank = true := by
  cases c with
  | compare left op right =>
    rw [Condition.write] at h
    obtain ⟨before, -, _, h₁, rfl⟩ := Draft.yields_bind_unit.1 h
    obtain ⟨behind, -, rfl⟩ := Draft.yields_write_bind.1 h₁
    exact iff_of_false (piecesSql_ne_empty (p := .text op.sql) (by simp) op.sql_ne_empty)
      Bool.false_ne_true
  | fragment f =>
    rw [Condition.write] at h
    exact Fragment.text_eq_empty_iff h
  | group connective conditions =>
    rw [Condition.write] at h
    obtain ⟨inner, -, rfl⟩ := Draft.yields_write_bind.1 h
    exact iff_of_false (piecesSql_ne_empty (p := .text "(") (by simp) (by simp [Piece.sql]))
      Bool.false_ne_true

/-- The conditions of a filter have an empty text if and only if it is blank. -/
theorem Filter.text_eq_empty_iff {f : Filter} (h : (f.writeBody s).Yields () ps) :
    piecesSql d ps = "" ↔ f.isBlank = true := by
  obtain ⟨connective, conditions⟩ := f
  unfold writeBody at h
  match conditions with
  | [] =>
    rw [writeConditions] at h
    obtain ⟨-, rfl⟩ := Draft.yields_pure.1 h
    exact iff_of_true rfl rfl
  | [c] =>
    rw [writeConditions] at h
    exact Condition.text_eq_empty_iff h
  | c :: c' :: rest =>
    rw [writeConditions] at h
    obtain ⟨before, -, _, h₁, rfl⟩ := Draft.yields_bind_unit.1 h
    obtain ⟨behind, -, rfl⟩ := Draft.yields_write_bind.1 h₁
    exact iff_of_false
      (piecesSql_ne_empty (p := .text connective.sql) (by simp) connective.sql_ne_empty)
      Bool.false_ne_true

/-! ## Groups -/

/-- The conditions of the filter stand between parentheses among the pieces. -/
def Filter.StandsIn (s : Scope) (g : Filter) (ps : List Piece) : Prop :=
  ∃ before inner behind, (g.writeBody s).Yields () inner ∧
    ps = before ++ [.text "("] ++ inner ++ [.text ")"] ++ behind

theorem Filter.StandsIn.of_infix {g : Filter} {qs : List Piece} (h : g.StandsIn s ps)
    (within : ps <:+: qs) : g.StandsIn s qs := by
  obtain ⟨left, inner, right, written, rfl⟩ := h
  obtain ⟨before, behind, rfl⟩ := within
  exact ⟨before ++ left, inner, right ++ behind, written, by simp⟩

mutual

theorem Condition.standsIn_of_yields (c : Condition) {ps : List Piece}
    (h : (c.write s).Yields () ps) : ∀ g ∈ c.groups, g.StandsIn s ps := by
  match c with
  | .compare .. =>
    rw [Condition.groups]
    exact List.forall_mem_nil _
  | .fragment _ =>
    rw [Condition.groups]
    exact List.forall_mem_nil _
  | .group connective conditions =>
    rw [Condition.write] at h
    obtain ⟨_, h₁, rfl⟩ := Draft.yields_write_bind.1 h
    obtain ⟨inner, hinner, _, h₂, rfl⟩ := Draft.yields_bind_unit.1 h₁
    obtain rfl := Draft.yields_write.1 h₂
    rw [Condition.groups, List.forall_mem_cons]
    refine ⟨⟨[], inner, [], hinner, by simp⟩, fun g member => ?_⟩
    have nested := standsIn_of_yields_tree connective conditions hinner g member
    exact nested.of_infix (List.infix_append' _ _ _)

theorem standsIn_of_yields_tree (connective : Connective) (cs : List Condition) {ps : List Piece}
    (h : (writeConditions s connective cs).Yields () ps) :
    ∀ g ∈ treeGroups cs, g.StandsIn s ps := by
  match cs with
  | [] =>
    rw [treeGroups]
    exact List.forall_mem_nil _
  | [c] =>
    rw [writeConditions] at h
    rw [treeGroups, treeGroups, List.append_nil]
    exact c.standsIn_of_yields h
  | c :: c' :: rest =>
    rw [writeConditions] at h
    obtain ⟨before, hc, _, h₁, rfl⟩ := Draft.yields_bind_unit.1 h
    obtain ⟨behind, hrest, rfl⟩ := Draft.yields_write_bind.1 h₁
    rw [treeGroups, List.forall_mem_append]
    refine ⟨fun g member => ?_, fun g member => ?_⟩
    · have first := c.standsIn_of_yields hc g member
      exact first.of_infix (List.prefix_append _ _).isInfix
    · have later := standsIn_of_yields_tree connective (c' :: rest) hrest g member
      rw [← List.append_assoc]
      exact later.of_infix (List.suffix_append _ _).isInfix

end

/-! ## Updates and deletions -/

theorem checkRestricted_eq_ok_iff {statement : String} {f : Filter} {unrestricted : Bool} :
    checkRestricted statement f unrestricted = .ok () ↔
      (f.isEmpty = true → unrestricted = true) := by
  unfold checkRestricted
  cases f.isEmpty <;> cases unrestricted <;> simp

/-- What a filter with conditions writes is `WHERE` and its conditions. -/
theorem Filter.exists_body {f : Filter} {statement : String}
    (restricted : checkRestricted statement f false = .ok ()) (h : (f.write s).Yields () ps) :
    ∃ body, (f.writeBody s).Yields () body ∧ piecesSql d ps = " WHERE " ++ piecesSql d body := by
  rcases Filter.yields_write.1 h with ⟨none, -⟩ | ⟨-, body, written, rfl⟩
  · have empty : f.isEmpty = true := List.isEmpty_iff.2 none
    exact absurd (checkRestricted_eq_ok_iff.1 restricted empty) Bool.false_ne_true
  · refine ⟨body, written, ?_⟩
    rw [← List.singleton_append, piecesSql_append]
    simp [piecesSql, Piece.sql]

/-- A statement on a table is its head, then `WHERE`, then the text of the conditions, which
    is empty if and only if the filter is blank. -/
def Compiled.Restricts (d : Dialect) (t : Table) (c : Compiled) (head : String) (f : Filter) :
    Prop :=
  ∃ body, (f.writeBody t.alone).Yields () body ∧
    c.sql = head ++ " WHERE " ++ piecesSql d body ∧ (piecesSql d body = "" ↔ f.isBlank = true)

section Compiled

variable {o : Options} {a : Action} {c : Compiled} {name : String} {t : Table}

theorem Action.restricts_of_delete {x : Delete} (h : a.compile o = .ok c)
    (core : a.core = .perform name t (.delete x)) (restricted : x.unrestricted = false) :
    c.Restricts o.dialect t ("DELETE FROM " ++ o.dialect.quote t.sqlName) x.filter := by
  obtain ⟨kind, statement, shape, prepared, sql, -⟩ := Action.task_of_compile h core
  have written : (x.write t).Yields () statement.pieces := Task.yields_of_prepare prepared
  obtain ⟨scope, filter, checked, hscope, hfilter, pieces⟩ := Delete.yields_write written
  obtain ⟨-, rfl⟩ := Table.resolve_eq_ok_iff.1 hscope
  rw [restricted] at checked
  obtain ⟨body, hbody, text⟩ := Filter.exists_body checked hfilter
  refine ⟨body, hbody, ?_, Filter.text_eq_empty_iff hbody⟩
  rw [sql, Statement.sql, pieces, piecesSql_append, text]
  simp [piecesSql, Piece.sql, String.append_assoc]

theorem Action.restricts_of_update {u : Update} (h : a.compile o = .ok c)
    (core : a.core = .perform name t (.update u)) (restricted : u.unrestricted = false) :
    ∃ sets, c.Updates o.dialect t u sets ∧
      c.Restricts o.dialect t ("UPDATE " ++ o.dialect.quote t.sqlName ++ " SET " ++
        String.intercalate ", "
          (sets.map fun s => o.dialect.quote s.1.column.sqlName ++ " = " ++ s.2)) u.filter := by
  obtain ⟨kind, statement, shape, prepared, -, -⟩ := Action.task_of_compile h core
  obtain ⟨ts, written⟩ :
      ∃ ts, (u.write t).Yields ts statement.pieces := Task.yields_of_prepare prepared
  obtain ⟨-, -, -, checked, -⟩ := Update.yields_write written
  rw [restricted] at checked
  obtain ⟨sets, updates⟩ := Action.updates_of_compile h core
  obtain ⟨filter, hfilter, sql⟩ := updates.sql
  obtain ⟨body, hbody, text⟩ := Filter.exists_body checked hfilter
  refine ⟨sets, updates, body, hbody, ?_, Filter.text_eq_empty_iff hbody⟩
  rw [sql, text]
  exact String.append_assoc.symm

end Compiled

/-- The conditions of a filter have an empty text if and only if it has none or is a single
    fragment without any text, and the parentheses of a group in it are empty if and only
    if this holds of the group. An update or deletion that is to be restricted by the
    filter has its conditions behind `WHERE`, so it has some unless the filter is such a
    fragment. -/
theorem Filter.restricts_iff (f : Filter) (o : Options) :
    (∀ s ps, (f.writeBody s).Yields () ps →
      (piecesSql o.dialect ps = "" ↔
        f.isEmpty = true ∨ ∃ x, f.conditions = [.fragment x] ∧ x.isBlank = true) ∧
      ∀ g ∈ f.groups, ∃ before inner behind, (g.writeBody s).Yields () inner ∧
        ps = before ++ [.text "("] ++ inner ++ [.text ")"] ++ behind ∧
        (piecesSql o.dialect inner = "" ↔ g.isBlank = true)) ∧
    ∀ a c name t, Action.compile o a = .ok c →
      (∀ x : Delete, x.filter = f → x.unrestricted = false →
        a.core = .perform name t (.delete x) →
          c.Restricts o.dialect t ("DELETE FROM " ++ o.dialect.quote t.sqlName) f) ∧
      ∀ u : Update, u.filter = f → u.unrestricted = false →
        a.core = .perform name t (.update u) →
          ∃ sets, c.Updates o.dialect t u sets ∧
            c.Restricts o.dialect t ("UPDATE " ++ o.dialect.quote t.sqlName ++ " SET " ++
              String.intercalate ", "
                (sets.map fun s => o.dialect.quote s.1.column.sqlName ++ " = " ++ s.2)) f := by
  refine ⟨fun s ps written => ⟨?_, fun g member => ?_⟩, fun a c name t h => ⟨?_, ?_⟩⟩
  · rw [← Filter.isBlank_iff]
    exact Filter.text_eq_empty_iff written
  · obtain ⟨before, inner, behind, hinner, rfl⟩ :=
      standsIn_of_yields_tree f.connective f.conditions written g member
    exact ⟨before, inner, behind, hinner, rfl, Filter.text_eq_empty_iff hinner⟩
  · rintro x rfl restricted core
    exact Action.restricts_of_delete h core restricted
  · rintro u rfl restricted core
    exact Action.restricts_of_update h core restricted

/-- Accounts are deleted by key or, without a name, by a fragment. -/
def purge : Delete where
  filter := { conditions := [
    .group .or [.equals (.ofMain "id") ⟨"id", .count⟩,
      .group .and [.isNull (.ofMain "name"), .fragment ⟨[.raw "id < ", .param ⟨"top", .count⟩]⟩]]] }

theorem purge_restricted :
    ∃ c body, (Action.perform "purge" accounts (.delete purge)).compile {} = .ok c ∧
      c.sql = "DELETE FROM " ++ Dialect.mysql.quote "accounts" ++ " WHERE " ++ body ∧ body ≠ "" ∧
      purge.filter.groups.length = 2 ∧ ∀ g ∈ purge.filter.groups, g.isBlank = false := by
  have compiles : ∃ c, (Action.perform "purge" accounts (.delete purge)).compile {} = .ok c :=
    ⟨_, rfl⟩
  obtain ⟨c, hc⟩ := compiles
  obtain ⟨-, restricts⟩ := purge.filter.restricts_iff {}
  obtain ⟨body, -, sql, empty_iff⟩ := (restricts _ c "purge" accounts hc).1 purge rfl rfl rfl
  refine ⟨c, piecesSql .mysql body, hc, sql, ?_, by decide, by decide⟩
  rw [ne_eq, empty_iff]
  decide

/-- Conditions without a text pass for a restriction: a fragment of no parts leaves `WHERE`
    without a condition, and a group of no conditions leaves empty parentheses. -/
theorem blankConditions_pass :
    (Filter.ofFragment {}).isEmpty = false ∧
    (∃ c, (Action.perform "clear" accounts (.delete { filter := .ofFragment {} })).compile {} =
        .ok c ∧ c.sql = "DELETE FROM \x60accounts\x60 WHERE ") ∧
    ∃ c, (Action.perform "clear" accounts
        (.delete { filter := { conditions := [.group .and []] } })).compile {} = .ok c ∧
      c.sql = "DELETE FROM \x60accounts\x60 WHERE ()" :=
  ⟨rfl, ⟨_, rfl, by decide⟩, ⟨_, rfl, by decide⟩⟩

end Bindery
