import Bindery.Access.Handle

/-!
# Calls of bindings

What an emitted binding does with a handle: one statement, and the reading of
its answer.
-/

namespace Bindery

/-! ## Reading rows -/

/-- The rows of an answer, each read by `read` (in `fetch_stream`). -/
def readEach {α : Type} (read : Row → Except AccessError α) (rows : List (Except AccessError Row)) :
    List (Except AccessError α) :=
  rows.map fun row => row.bind read

/-- All rows of an answer read by `read`, or the first error among them
    (in `fetch_all`). -/
def readAll {α : Type} (read : Row → Except AccessError α) (rows : List (Except AccessError Row)) :
    Except AccessError (List α) :=
  rows.mapM fun row => row.bind read

namespace Handle

variable {σ α : Type} (h : Handle σ) (sql : String) (params : List Value)

/-- The first row, read by `read` (`fetch_one`). -/
def fetchOne (read : Row → Except AccessError α) : Session σ α := do
  match ← h.queryRow sql params with
  | some row => ExceptT.mk (pure (read row))
  | none => throw .notFound

/-- Each row of the answer, read by `read` (`fetch_stream`). -/
def fetchStream (read : Row → Except AccessError α) : StateM σ (List (Except AccessError α)) := do
  return readEach read (← h.query sql params)

/-- All rows, read by `read` (`fetch_all`). -/
def fetchAll (read : Row → Except AccessError α) : Session σ (List α) :=
  ExceptT.mk (do return readAll read (← h.query sql params))

/-- The first column of the first row (`fetch_field`). -/
def fetchField (t : HostType) : Session σ t.Carrier := h.fetchOne sql params (·.get t 0)

end Handle

/-! ## Reading reports -/

/-- The key of the only row of an insert (`insert_id`). -/
def ExecResult.insertId (r : ExecResult) : Except AccessError UInt64 :=
  match r.lastInsertId with
  | none => .error .missingInsertId
  | some id =>
    if r.rowsAffected = 0 then .error .missingInsertId
    else if r.rowsAffected = 1 then .ok id
    else .error (.ambiguousInsertId r.rowsAffected)

/-- Checks that exactly one row is affected (`check_one_row_affected`). -/
def ExecResult.checkOne (r : ExecResult) : Except AccessError Unit :=
  if r.rowsAffected = 1 then .ok () else .error (.rowsAffectedMismatch 1 r.rowsAffected)

namespace Handle

variable {σ : Type} (h : Handle σ) (sql : String) (params : List Value)

/-- Executes an insert and reports its key (`exec_insert`). -/
def execInsert : Session σ UInt64 := do
  let r ← h.exec sql params
  ExceptT.mk (pure r.insertId)

/-- Executes a write and reports the number of rows (`exec_rows_affected`). -/
def execRowsAffected : Session σ UInt64 := do return (← h.exec sql params).rowsAffected

/-- Executes a write that has to affect one row (`exec_one_row_affected`). -/
def execOne : Session σ Unit := do
  let r ← h.exec sql params
  ExceptT.mk (pure r.checkOne)

/-- Executes a write (`exec`). -/
def execOnly : Session σ Unit := do
  let _ ← h.exec sql params

end Handle

end Bindery
