import Bindery.Proofs.Writer.Select

/-!
# Compiled actions and their drafts

The writers of inserts, updates and deletions follow their drafts like those of selects
and unions. So the compiled action of every definition is the prepared one, whose
statement is a list of pieces, with its text spelled for the dialect; and as preparing
takes no dialect, a dialect decides nothing but the text.

* `Target.follows_setValue`: the value of a column, and its default above all.
* `Task.run_write`: the statement of a task is that of its draft.
* `Action.compile_eq_map_prepare`: the compiled action.
-/

namespace Bindery

open SqlWriter

variable {d : Dialect}

namespace SqlWriter

/-! ## Inserts, updates and deletions -/

theorem follows_setValue (s : Scope) (t : Target) :
    Follows d id (t.writeValue s) (setValue d s t) := by
  unfold Target.writeValue setValue Column.fallbackSql?
  cases t.value with
  | param p => exact follows_param p .assignment
  | fragment f => exact follows_fragment s f
  | default =>
    cases t.column.fallback? with
    | none => exact .fail id _
    | some v => exact follows_piece (.fallback v) rfl

theorem follows_assignment (s : Scope) (t : Target) :
    Follows d id (t.writeAssignment s) (assignment d s t) := by
  refine (follows_column s (.ofMain t.column.name)).bind fun _ => ?_
  exact (follows_text " = ").bind fun _ => follows_setValue s t

theorem follows_insertTargets (table : Table) (i : Insert) :
    Follows d id (i.write table) (insertTargets d table i) := by
  unfold Insert.write insertTargets
  simp only [Draft.write_cons, Draft.bind_assoc]
  refine (Follows.lookup (Scope.resolve table [])).bind fun scope => ?_
  refine (Follows.lookup _).bind fun ts => ?_
  refine (follows_text "INSERT INTO ").bind fun _ => (follows_quoted table.sqlName).bind fun _ => ?_
  refine (follows_text " (").bind fun _ => ?_
  refine (follows_separated_map fun t _ => follows_quoted t.column.sqlName).bind fun _ => ?_
  refine (follows_text ") VALUES (").bind fun _ => ?_
  refine (follows_separated_map fun t _ => follows_setValue scope t).bind fun _ => ?_
  exact (follows_text ")").bind fun _ => .pure id ts

theorem follows_updateTargets (table : Table) (u : Update) :
    Follows d id (u.write table) (updateTargets d table u) := by
  unfold Update.write updateTargets
  simp only [Draft.write_cons, Draft.bind_assoc]
  refine (Follows.lookup (checkRestricted "UPDATE" u.filter u.unrestricted)).bind fun _ => ?_
  refine (Follows.lookup (Scope.resolve table [])).bind fun scope => ?_
  refine (Follows.lookup _).bind fun ts => ?_
  refine (follows_text "UPDATE ").bind fun _ => (follows_quoted table.sqlName).bind fun _ => ?_
  refine (follows_text " SET ").bind fun _ => ?_
  refine (follows_separated_map fun t _ => follows_assignment scope t).bind fun _ => ?_
  exact (follows_whereClause scope u.filter).bind fun _ => .pure id ts

theorem follows_delete (table : Table) (x : Delete) :
    Follows d id (x.write table) (delete d table x) := by
  unfold Delete.write delete
  simp only [Draft.write_cons, Draft.bind_assoc]
  refine (Follows.lookup (checkRestricted "DELETE" x.filter x.unrestricted)).bind fun _ => ?_
  refine (Follows.lookup (Scope.resolve table [])).bind fun scope => ?_
  refine (follows_text "DELETE FROM ").bind fun _ => (follows_quoted table.sqlName).bind fun _ => ?_
  exact follows_whereClause scope x.filter

/-- Defaults are checked against the parameters of the statement that is written. -/
theorem run_checkDefaults {x : Draft (List Target)} {w : SqlWriter (List Target)}
    (h : Follows d id x w) :
    (w >>= checkDefaults).run {} = (settleTargets x).map fun s => ((), s.written d) := by
  rw [StateT.run_bind, h.run, settleTargets]
  cases x.settle with
  | error fault => rfl
  | ok r =>
    obtain ⟨ts, statement⟩ := r
    show checkDefaults ts (statement.written d) = Except.map _ (Except.bind (.ok (ts, statement)) _)
    cases shadowed : shadowedDefault? (statement.bindings.map (·.name)) ts with
    | none => simp [checkDefaults, Statement.written, Except.bind, Except.map, shadowed]
    | some fault => simp [checkDefaults, Statement.written, Except.bind, Except.map, shadowed]

theorem run_insert (table : Table) (i : Insert) :
    (insert d table i).run {} = (i.settle table).map fun s => ((), s.written d) :=
  run_checkDefaults (follows_insertTargets table i)

theorem run_update (table : Table) (u : Update) :
    (update d table u).run {} = (u.settle table).map fun s => ((), s.written d) :=
  run_checkDefaults (follows_updateTargets table u)

theorem run_delete (table : Table) (x : Delete) :
    (delete d table x).run {} = (x.settle table).map fun s => ((), s.written d) := by
  rw [(follows_delete table x).run, Delete.settle]
  cases (x.write table).settle <;> rfl

end SqlWriter

/-! ## Tasks and actions -/

theorem run_writeRows {w : SqlWriter (List (Output String))} {x : Draft (List Output)}
    (h : Follows d (List.map (Output.spell d)) x w) (kind : ActionKind) :
    (w >>= fun outputs => pure (kind, some (Shape.ofOutputs outputs))).run {} =
      (prepareRows kind x).map fun (kind, statement, shape) =>
        ((kind, shape), statement.written d) := by
  rw [StateT.run_bind, h.run, prepareRows]
  cases x.settle with
  | error fault => rfl
  | ok r =>
    obtain ⟨outputs, statement⟩ := r
    show Except.ok ((kind, some (Shape.ofOutputs (outputs.map (Output.spell d)))), _) = _
    rw [ofOutputs_spell]
    rfl

/-- The statement of a task is that of its draft, spelled for the dialect. -/
theorem Task.run_write (o : Options) (table : Table) (task : Task) :
    (task.write o table).run {} =
      (task.prepare o.naming table).map fun (kind, statement, shape) =>
        ((kind, shape), statement.written o.dialect) := by
  cases task with
  | select s => exact run_writeRows (follows_select o.naming table s) (.ofSelect s.mode)
  | union u => exact run_writeRows (follows_union o.naming u) (.ofUnion u.mode)
  | insert i =>
    rw [write, prepare, StateT.run_bind, run_insert]
    cases i.settle table <;> rfl
  | update u =>
    rw [write, prepare, StateT.run_bind, run_update]
    cases u.settle table <;> rfl
  | delete x =>
    rw [write, prepare, StateT.run_bind, run_delete]
    cases x.settle table <;> rfl

/-- The compiled action is the prepared one, with its text spelled for the dialect. -/
theorem Action.compile_eq_map_prepare (o : Options) (a : Action) :
    a.compile o = (a.prepare o.naming).map (Prepared.render o.dialect) := by
  induction a with
  | perform name table task =>
    rw [compile, prepare, task.run_write o table]
    cases task.prepare o.naming table <;> rfl
  | wrap name table inner args ih =>
    rw [compile, prepare, ih]
    cases inner.prepare o.naming with
    | error fault => rfl
    | ok p =>
      show (fixArguments (p.statement.bindings.map (·.name)) p.fixed args >>= _) =
        (fixArguments (p.statement.bindings.map (·.name)) p.fixed args >>= _).map _
      cases fixArguments (p.statement.bindings.map (·.name)) p.fixed args <;> rfl

end Bindery
