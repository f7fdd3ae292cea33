import Bindery.Access.Row

/-!
# Handles and databases

A handle runs statements on a state; a database also begins and ends
transactions. Both are given by their functions, so that what runs on them can
be followed on any of them: on a script, or with a log of all calls.

* `Session`: a computation on the state of a handle, which may fail.
* `Database.logged`: the database that keeps a log of the calls made on it.
-/

namespace Bindery

/-- What a write reports (`ExecResult`). -/
structure ExecResult where
  rowsAffected : UInt64
  lastInsertId : Option UInt64
  deriving DecidableEq

/-- A computation on a state, which goes on from the state after a failure. -/
abbrev Session (σ α : Type) := ExceptT AccessError (StateM σ) α

/-- Something that runs statements (`Queryable`). A query answers with rows, and may
    fail between any two of them. -/
structure Handle (σ : Type) where
  query : String → List Value → StateM σ (List (Except AccessError Row))
  exec : String → List Value → Session σ ExecResult

/-- A handle that runs transactions (`Database`, `Transaction`). -/
structure Database (σ : Type) extends Handle σ where
  begin : Session σ Unit
  commit : Session σ Unit
  rollback : Session σ Unit

/-- The first row of a query, if there is one (`Queryable::query_row`). -/
def Handle.queryRow {σ : Type} (h : Handle σ) (sql : String) (params : List Value) :
    Session σ (Option Row) := do
  match ← (h.query sql params : StateM σ _) with
  | [] => return none
  | .ok row :: _ => return some row
  | .error e :: _ => throw e

/-! ## Logs -/

/-- A call on a database. -/
inductive Event where
  | query (sql : String) (params : List Value)
  | exec (sql : String) (params : List Value)
  | begin
  | commit
  | rollback
  deriving DecidableEq

/-- A computation on a state beside a log, to which it adds an event first. -/
def logging {σ α : Type} (e : Event) (x : StateM σ α) : StateM (σ × List Event) α :=
  fun (s, log) =>
    let (a, s) := x s
    (a, (s, log ++ [e]))

/-- The database that keeps a log of the calls made on it. -/
def Database.logged {σ : Type} (db : Database σ) : Database (σ × List Event) where
  query sql params := logging (.query sql params) (db.query sql params)
  exec sql params := logging (.exec sql params) (db.exec sql params)
  begin := logging .begin db.begin
  commit := logging .commit db.commit
  rollback := logging .rollback db.rollback

end Bindery
