import Bindery.Access.Handle

/-!
# Scripts

A script is a list of prepared replies, one for each statement. It stands for a
database wherever the course of a run is to be known beforehand.

* `Script.database`: the database that answers from a script.
-/

namespace Bindery

/-- A prepared reply to a statement (`Reply`). -/
inductive Reply where
  /-- Rows, and perhaps a failure behind them. -/
  | rows (rows : List Row) (failure : Option String)
  | exec (result : ExecResult)
  | fail (cause : String)
  deriving DecidableEq

/-- The failures of the calls that begin and end a transaction. -/
structure Failures where
  begin : Option String := none
  commit : Option String := none
  rollback : Option String := none

namespace Script

/-- The error of a failure, as the database driver words it. -/
def error (cause : String) : AccessError :=
  .database ("encountered unexpected or invalid data: " ++ cause)

/-- The reply to the next statement. -/
def next : StateM (List Reply) Reply := fun
  | [] => (.fail "script exhausted", [])
  | reply :: rest => (reply, rest)

/-- The rows of a reply. -/
def replyRows : Reply → List (Except AccessError Row)
  | .rows rows failure => rows.map .ok ++ failure.toList.map fun cause => .error (error cause)
  | .exec _ => []
  | .fail cause => [.error (error cause)]

/-- The report of a reply; rows affect nothing. -/
def replyResult : Reply → Except AccessError ExecResult
  | .rows _ _ => .ok ⟨0, none⟩
  | .exec result => .ok result
  | .fail cause => .error (error cause)

/-- A call that fails for the given cause. -/
def outcome (failure : Option String) : Session (List Reply) Unit :=
  match failure with
  | some cause => throw (error cause)
  | none => pure ()

/-- The database that answers from a script (`MockDb`). -/
def database (failures : Failures) : Database (List Reply) where
  query _ _ := do return replyRows (← next)
  exec _ _ := ExceptT.mk do return replyResult (← next)
  begin := outcome failures.begin
  commit := outcome failures.commit
  rollback := outcome failures.rollback

end Script

end Bindery
