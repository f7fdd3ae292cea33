import Bindery.Proofs.Access.Performed

/-!
# Rows that are fetched

A query answers with rows and may fail between any two of them, and each row may be
refused by its reader. There are three ways to fetch: item by item, all rows at once, and
the first row alone. They meet the two kinds of failures at different points and still
agree: all rows are the items up to the first failure, and one row is the first item.

A row is read as a record by its width first and then by its columns from left to right.

* `readAll_eq_ok_iff`, `readAll_eq_error_iff`: all rows of an answer against its items.
* `Handle.logged`: the handle that keeps a log of the calls made on it.
* `Record.Reads`, `Misfit`: a record of decoded columns, and the first that does not fit.
* `Row.record_eq_ok_iff`, `Row.record_eq_error_iff`: the outcome of reading a record.
* `Handle.fetches_agree`: the three ways to fetch, and the records they read.
-/

namespace Bindery

variable {σ α : Type}

/-! ## Items -/

section Items

variable (read : Row → Except AccessError α)

theorem readEach_cons (row : Except AccessError Row) (rows : List (Except AccessError Row)) :
    readEach read (row :: rows) = row.bind read :: readEach read rows := rfl

theorem readAll_cons (row : Except AccessError Row) (rows : List (Except AccessError Row)) :
    readAll read (row :: rows) =
      row.bind read >>= fun x => (readAll read rows).map (x :: ·) := by
  unfold readAll
  rw [List.mapM_cons]
  rfl

/-- All rows are read if no item is an error, and then to the values in their order. -/
theorem readAll_eq_ok_iff {rows : List (Except AccessError Row)} {xs : List α} :
    readAll read rows = .ok xs ↔ readEach read rows = xs.map .ok := by
  induction rows generalizing xs with
  | nil =>
    show Except.ok [] = Except.ok xs ↔ [] = xs.map Except.ok
    rw [Except.ok.injEq, eq_comm, eq_comm (b := xs.map _), List.map_eq_nil_iff]
  | cons row rows ih =>
    rw [readAll_cons, readEach_cons, bind_eq_ok_iff, eq_comm, List.map_eq_cons_iff]
    simp only [map_eq_ok_iff, ih]
    constructor
    · rintro ⟨x, hx, ys, hys, rfl⟩
      exact ⟨x, ys, rfl, hx.symm, hys.symm⟩
    · rintro ⟨x, ys, rfl, hx, hys⟩
      exact ⟨x, hx.symm, ys, hys.symm, rfl⟩

/-- Reading all rows fails with the first error among the items, whatever comes behind it. -/
theorem readAll_eq_error_iff {rows : List (Except AccessError Row)} {e : AccessError} :
    readAll read rows = .error e ↔
      ∃ (xs : List α) (rest : _), readEach read rows = xs.map .ok ++ .error e :: rest := by
  induction rows with
  | nil =>
    refine iff_of_false (fun h => by cases h) ?_
    rintro ⟨xs, rest, items⟩
    exact List.append_ne_nil_of_right_ne_nil _ (List.cons_ne_nil _ _) items.symm
  | cons row rows ih =>
    rw [readAll_cons, readEach_cons, bind_eq_error_iff]
    simp only [map_eq_error_iff, ih]
    constructor
    · rintro (failed | ⟨x, passed, xs, rest, items⟩)
      · exact ⟨[], readEach read rows, by rw [failed]; rfl⟩
      · exact ⟨x :: xs, rest, by rw [passed, items]; rfl⟩
    · rintro ⟨xs, rest, items⟩
      cases xs with
      | nil => exact .inl (List.cons.inj items).1
      | cons x xs =>
        obtain ⟨passed, items⟩ := List.cons.inj items
        exact .inr ⟨x, passed, xs, rest, items⟩

end Items

/-! ## One call -/

/-- The handle that keeps a log of the calls made on it. -/
def Handle.logged (h : Handle σ) : Handle (σ × List Event) where
  query sql params := logging (.query sql params) (h.query sql params)
  exec sql params := logging (.exec sql params) (h.exec sql params)

section Calls

variable (h : Handle σ) (sql : String) (params : List Value) (read : Row → Except AccessError α)
  (s : σ)

theorem Handle.fetchStream_apply :
    h.fetchStream sql params read s =
      (readEach read (h.query sql params s).1, (h.query sql params s).2) := rfl

theorem Handle.fetchAll_apply :
    h.fetchAll sql params read s =
      (readAll read (h.query sql params s).1, (h.query sql params s).2) := rfl

/-- A row that is fetched alone is the first item. -/
theorem Handle.fetchOne_eq_head :
    h.fetchOne sql params read s =
      ((readEach read (h.query sql params s).1).head?.getD (.error .notFound),
        (h.query sql params s).2) := by
  rw [Handle.fetchOne, Session.bind_apply, Handle.queryRow, Session.bind_apply,
    Session.liftM_apply]
  -- the first row decides before it is read: there is none, it is a failure, or it goes to `read`
  rcases (h.query sql params s).1 with _ | ⟨e | row, rows⟩
  · rfl
  · rfl
  · rfl

theorem Handle.query_logged (log : List Event) :
    h.logged.query sql params (s, log) =
      ((h.query sql params s).1, (h.query sql params s).2, log ++ [.query sql params]) := rfl

end Calls

/-! ## Records -/

/-- A record with a field more. -/
def Record.cons {t : HostType} {ts : List HostType} (x : t.Carrier) (rest : Record ts) :
    Record (t :: ts) :=
  (x, rest)

theorem Record.cons_inj {t : HostType} {ts : List HostType} {x y : t.Carrier}
    {xs ys : Record ts} : Record.cons x xs = Record.cons y ys ↔ x = y ∧ xs = ys :=
  Iff.of_eq (Prod.mk.injEq x xs y ys)

/-- The fields of a record are the columns of a row, each decoded as the type of its field. -/
def Record.Reads : (ts : List HostType) → List Value → Record ts → Prop
  | [], [], _ => True
  | t :: ts, v :: vs, (x, rest) => t.decode? v = some x ∧ Record.Reads ts vs rest
  | _, _, _ => False

theorem Record.reads_cons {t : HostType} {ts : List HostType} {v : Value} {vs : List Value}
    {x : t.Carrier} {rest : Record ts} :
    Record.Reads (t :: ts) (v :: vs) (.cons x rest) ↔
      t.decode? v = some x ∧ Record.Reads ts vs rest := Iff.rfl

theorem Record.Reads.length_eq {ts : List HostType} {vs : List Value} {x : Record ts}
    (h : Record.Reads ts vs x) : vs.length = ts.length := by
  induction ts generalizing vs with
  | nil =>
    cases vs with
    | nil => rfl
    | cons v vs => exact h.elim
  | cons t ts ih =>
    cases vs with
    | nil => exact h.elim
    | cons v vs => exact congrArg Nat.succ (ih h.2)

/-- Each of the first columns fits the type of its field. -/
def FitUpTo (ts : List HostType) (vs : List Value) (n : Nat) : Prop :=
  ∀ i < n, ∀ t v, ts[i]? = some t → vs[i]? = some v → (t.decode? v).isSome = true

theorem fitUpTo_succ_iff {t : HostType} {v : Value} {ts : List HostType} {vs : List Value}
    {n : Nat} :
    FitUpTo (t :: ts) (v :: vs) (n + 1) ↔ (t.decode? v).isSome = true ∧ FitUpTo ts vs n := by
  constructor
  · intro fit
    refine ⟨fit 0 (Nat.succ_pos n) t v rfl rfl, ?_⟩
    intro i below
    exact fit (i + 1) (Nat.succ_lt_succ below)
  · rintro ⟨first, others⟩ i below t' v' ht hv
    cases i with
    | zero =>
      obtain rfl := Option.some.inj ht
      obtain rfl := Option.some.inj hv
      exact first
    | succ i => exact others i (Nat.lt_of_succ_lt_succ below) t' v' ht hv

/-- Columns can be read as a record if there is one for each field and all of them fit. -/
theorem Record.exists_reads_iff {ts : List HostType} {vs : List Value} :
    (∃ x, Record.Reads ts vs x) ↔ vs.length = ts.length ∧ FitUpTo ts vs ts.length := by
  induction ts generalizing vs with
  | nil =>
    cases vs with
    | nil => exact iff_of_true ⟨(), trivial⟩ ⟨rfl, fun i below => absurd below (Nat.not_lt_zero i)⟩
    | cons v vs => exact iff_of_false (fun ⟨_, h⟩ => h.elim) (fun h => by cases h.1)
  | cons t ts ih =>
    cases vs with
    | nil => exact iff_of_false (fun ⟨_, h⟩ => h.elim) (fun h => by cases h.1)
    | cons v vs =>
      rw [List.length_cons, List.length_cons, fitUpTo_succ_iff, Nat.succ_inj, and_left_comm, ← ih,
        Option.isSome_iff_exists]
      constructor
      · rintro ⟨x, first, others⟩
        exact ⟨⟨x.1, first⟩, x.2, others⟩
      · rintro ⟨⟨y, first⟩, rest, others⟩
        exact ⟨.cons y rest, first, others⟩

/-- The leftmost column that does not fit the type of its field. -/
structure Misfit (ts : List HostType) (vs : List Value) (i : Nat) (t : HostType) (v : Value) :
    Prop where
  type : ts[i]? = some t
  value : vs[i]? = some v
  refused : t.decode? v = none
  leftmost : FitUpTo ts vs i

/-- The first column does not fit if it is the leftmost misfit. -/
theorem misfit_zero_iff {t t' : HostType} {v v' : Value} {ts : List HostType} {vs : List Value} :
    Misfit (t :: ts) (v :: vs) 0 t' v' ↔ t = t' ∧ v = v' ∧ t.decode? v = none := by
  constructor
  · rintro ⟨type, value, refused, -⟩
    obtain rfl := Option.some.inj type
    obtain rfl := Option.some.inj value
    exact ⟨rfl, rfl, refused⟩
  · rintro ⟨rfl, rfl, refused⟩
    exact ⟨rfl, rfl, refused, fun i below => absurd below (Nat.not_lt_zero i)⟩

/-- A later column is the leftmost misfit if the first one fits. -/
theorem misfit_succ_iff {t t' : HostType} {v v' : Value} {ts : List HostType} {vs : List Value}
    {i : Nat} :
    Misfit (t :: ts) (v :: vs) (i + 1) t' v' ↔
      (t.decode? v).isSome = true ∧ Misfit ts vs i t' v' := by
  constructor
  · rintro ⟨type, value, refused, leftmost⟩
    obtain ⟨first, others⟩ := fitUpTo_succ_iff.1 leftmost
    exact ⟨first, type, value, refused, others⟩
  · rintro ⟨first, type, value, refused, others⟩
    exact ⟨type, value, refused, fitUpTo_succ_iff.2 ⟨first, others⟩⟩

namespace Row

theorem get_append (before vs : List Value) (v : Value) (t : HostType) :
    (Row.mk (before ++ v :: vs)).get t before.length =
      match t.decode? v with
      | some x => .ok x
      | none => .error (.decode before.length t.label v.kind) := by
  have here : (Row.mk (before ++ v :: vs)).value before.length = .ok v := by
    simp [Row.value]
  rw [Row.get, here]
  rfl

/-- The next column is read before those behind it. -/
theorem fieldsFrom_cons (before vs : List Value) (v : Value) (t : HostType) (ts : List HostType) :
    (Row.mk (before ++ v :: vs)).fieldsFrom before.length (t :: ts) =
      match t.decode? v with
      | none => .error (.decode before.length t.label v.kind)
      | some x =>
        ((Row.mk ((before ++ [v]) ++ vs)).fieldsFrom (before ++ [v]).length ts).map (.cons x) := by
  rw [List.append_assoc, List.length_append, fieldsFrom, get_append]
  cases t.decode? v with
  | none => rfl
  | some x => rfl

/-- The columns behind those read before are read as a record. -/
theorem fieldsFrom_eq_ok_iff {before vs : List Value} {ts : List HostType} {x : Record ts}
    (width : vs.length = ts.length) :
    (Row.mk (before ++ vs)).fieldsFrom before.length ts = .ok x ↔ Record.Reads ts vs x := by
  induction ts generalizing before vs with
  | nil =>
    obtain rfl := List.eq_nil_of_length_eq_zero width
    exact iff_of_true rfl trivial
  | cons t ts ih =>
    obtain ⟨v, vs, rfl⟩ := List.exists_cons_of_length_eq_add_one width
    obtain ⟨y, rest, rfl⟩ : ∃ y rest, x = .cons y rest := ⟨x.1, x.2, rfl⟩
    have later := @ih (before ++ [v]) vs rest (Nat.succ.inj width)
    rw [fieldsFrom_cons, Record.reads_cons, ← later]
    cases t.decode? v with
    | none => exact iff_of_false (fun h => by cases h) (fun h => by cases h.1)
    | some z =>
      show Except.map _ _ = _ ↔ _
      simp only [map_eq_ok_iff, Record.cons_inj, Option.some_inj]
      constructor
      · rintro ⟨_, read, rfl, rfl⟩
        exact ⟨rfl, read⟩
      · rintro ⟨rfl, read⟩
        exact ⟨rest, read, rfl, rfl⟩

/-- Reading the columns behind those read before fails at the leftmost misfit. -/
theorem fieldsFrom_eq_error_iff {before vs : List Value} {ts : List HostType} {e : AccessError}
    (width : vs.length = ts.length) :
    (Row.mk (before ++ vs)).fieldsFrom before.length ts = .error e ↔
      ∃ i t v, Misfit ts vs i t v ∧ e = .decode (before.length + i) t.label v.kind := by
  induction ts generalizing before vs with
  | nil =>
    refine iff_of_false (fun h => by cases h) ?_
    rintro ⟨i, t, v, m, -⟩
    cases m.type
  | cons t ts ih =>
    obtain ⟨v, vs, rfl⟩ := List.exists_cons_of_length_eq_add_one width
    have later := @ih (before ++ [v]) vs (Nat.succ.inj width)
    rw [fieldsFrom_cons]
    cases decoded : t.decode? v with
    | none =>
      constructor
      · intro failed
        exact ⟨0, t, v, misfit_zero_iff.2 ⟨rfl, rfl, decoded⟩, (Except.error.inj failed).symm⟩
      · rintro ⟨i, t', v', m, rfl⟩
        -- a later column is not the leftmost misfit
        cases i with
        | zero =>
          obtain ⟨rfl, rfl, -⟩ := misfit_zero_iff.1 m
          rfl
        | succ i =>
          have fits := (misfit_succ_iff.1 m).1
          rw [decoded] at fits
          cases fits
    | some x =>
      show Except.map _ _ = _ ↔ _
      rw [map_eq_error_iff, later, List.length_append, List.length_singleton]
      constructor
      · rintro ⟨i, t', v', m, rfl⟩
        refine ⟨i + 1, t', v', misfit_succ_iff.2 ⟨by rw [decoded]; rfl, m⟩, ?_⟩
        rw [Nat.add_assoc, Nat.add_comm 1 i]
      · rintro ⟨i, t', v', m, rfl⟩
        cases i with
        | zero =>
          have refused := (misfit_zero_iff.1 m).2.2
          rw [decoded] at refused
          cases refused
        | succ i =>
          refine ⟨i, t', v', (misfit_succ_iff.1 m).2, ?_⟩
          rw [Nat.add_assoc, Nat.add_comm 1 i]

theorem record_of_width_ne {r : Row} {ts : List HostType} (h : r.width ≠ ts.length) :
    r.record ts = .error (.columnCount ts.length r.width) := by
  rw [record, expectColumns, if_neg h]
  rfl

theorem record_of_width_eq {r : Row} {ts : List HostType} (h : r.width = ts.length) :
    r.record ts = (Row.mk ([] ++ r.values)).fieldsFrom ([] : List Value).length ts := by
  rw [record, expectColumns, if_pos h]
  rfl

/-- A row is read as a record if and only if the fields are its columns, decoded. -/
theorem record_eq_ok_iff {r : Row} {ts : List HostType} {x : Record ts} :
    r.record ts = .ok x ↔ Record.Reads ts r.values x := by
  by_cases width : r.width = ts.length
  · rw [record_of_width_eq width, fieldsFrom_eq_ok_iff width]
  · rw [record_of_width_ne width]
    refine iff_of_false (fun h => by cases h) ?_
    intro h
    exact width h.length_eq

/-- A row is refused for its width, and else for the leftmost column that does not fit. -/
theorem record_eq_error_iff {r : Row} {ts : List HostType} {e : AccessError} :
    r.record ts = .error e ↔
      (r.width ≠ ts.length ∧ e = .columnCount ts.length r.width) ∨
      (r.width = ts.length ∧
        ∃ i t v, Misfit ts r.values i t v ∧ e = .decode i t.label v.kind) := by
  by_cases width : r.width = ts.length
  · rw [record_of_width_eq width, fieldsFrom_eq_error_iff width]
    simp [width]
  · rw [record_of_width_ne width]
    simp [width, eq_comm]

example :
    (Row.mk [.int 1, .null, .null]).record [.value, .string, .bool] =
      .error (.decode 1 "String" Value.null.kind) := rfl

end Row

/-! ## All ways to fetch -/

/-- Every way to fetch makes one call. All rows are the items in their order if none of
    them is an error, and else there is the first error; one row is the first item. A row
    is a record if its width is that of the record and all columns fit, and is refused for
    its width first and else for the leftmost column that does not fit. -/
theorem Handle.fetches_agree (h : Handle σ) (sql : String) (params : List Value)
    (read : Row → Except AccessError α) (s : σ) (log : List Event) :
    (∃ items outcome after,
      items = (h.query sql params s).1.map (fun row => row.bind read) ∧
      after = ((h.query sql params s).2, log ++ [.query sql params]) ∧
      h.logged.fetchStream sql params read (s, log) = (items, after) ∧
      h.logged.fetchAll sql params read (s, log) = (outcome, after) ∧
      (∀ xs, outcome = .ok xs ↔ items = xs.map .ok) ∧
      (∀ e, outcome = .error e ↔
        ∃ (xs : List α) (rest : _), items = xs.map .ok ++ .error e :: rest) ∧
      h.logged.fetchOne sql params read (s, log) =
        (items.head?.getD (.error .notFound), after)) ∧
    ∀ (r : Row) (ts : List HostType),
      ((∃ x, r.record ts = .ok x) ↔ r.width = ts.length ∧ FitUpTo ts r.values ts.length) ∧
      (∀ x, r.record ts = .ok x ↔ Record.Reads ts r.values x) ∧
      ∀ e, r.record ts = .error e ↔
        (r.width ≠ ts.length ∧ e = .columnCount ts.length r.width) ∨
        (r.width = ts.length ∧
          ∃ i t v, Misfit ts r.values i t v ∧ e = .decode i t.label v.kind) := by
  constructor
  · refine ⟨_, readAll read (h.query sql params s).1, _, rfl, rfl, ?_, ?_, ?_, ?_, ?_⟩
    · rw [fetchStream_apply, query_logged]
      rfl
    · rw [fetchAll_apply, query_logged]
    · intro xs
      exact readAll_eq_ok_iff read
    · intro e
      exact readAll_eq_error_iff read
    · rw [fetchOne_eq_head, query_logged]
      rfl
  · intro r ts
    refine ⟨?_, ?_, ?_⟩
    · simp only [Row.record_eq_ok_iff]
      exact Record.exists_reads_iff
    · intro x
      exact Row.record_eq_ok_iff
    · intro e
      exact Row.record_eq_error_iff

end Bindery
