import Bindery.Code.TypeText
import Bindery.Proofs.Text.Numeral
import Bindery.Proofs.Transaction.Returns

/-!
# The passage to SQL and back

A host value that is sent to the database and read again at the type of its column
is the value that was sent. An integer beyond the greatest SQL integer goes as text
and comes back by its digits; an optional value is told from null because no value
of the type itself is sent as null.

* `IntType.decode?_encode`: integers, on both sides of the greatest SQL integer.
* `HostType.Lossless`: a type whose values pass, none of them as null.
* `ColumnType.decode?_encode`: the passage at the type of a column.
* `Routine.take_count`: counts and generated keys that a run keeps in variables.
* `HostType.values_survive`: both, for every column and every run.
-/

namespace Bindery

/-! ## Integers -/

theorem Text.readUnsigned?_decimal (n : Nat) : Text.readUnsigned? (Text.decimal n) = some n := by
  have digits : Text.readDigits? 0 (Text.decimal n) = some n := Text.readDigits?_decimal n
  cases written : Text.decimal n with
  | nil => exact absurd written (Text.decimal_ne_nil n)
  | cons c rest =>
    have c_digit : Text.isDigit c = true := Text.isDigit_of_mem_decimal (n := n) (by simp [written])
    have c_ne : c ≠ '+' := by
      rintro rfl
      exact absurd c_digit (by decide)
    rw [written] at digits
    unfold Text.readUnsigned?
    split
    · next h =>
      cases h
      exact absurd rfl c_ne
    · exact digits

namespace IntType

theorem of?_val {t : IntType} (n : t.Member) : t.of? n.val = some n := by
  unfold of?
  rw [dif_pos n.isMember]

/-- No type has integers below the least SQL integer. -/
theorem least_stored_le (t : IntType) : -greatestStored - 1 ≤ t.least := by
  cases t <;> decide

theorem encode_of_le {t : IntType} {n : t.Member} (h : n.val ≤ greatestStored) :
    encode n = .int (.ofInt n.val) := by
  unfold encode
  rw [if_pos h]

theorem encode_of_lt {t : IntType} {n : t.Member} (h : greatestStored < n.val) :
    encode n = .text (Text.ofInt n.val) := by
  unfold encode
  rw [if_neg (by omega)]

/-- An integer comes back as it went. -/
theorem decode?_encode {t : IntType} (n : t.Member) : t.decode? (encode n) = some n := by
  obtain ⟨above, below⟩ := n.isMember
  have bound := t.least_stored_le
  by_cases small : n.val ≤ greatestStored
  · have stored : (Int64.ofInt n.val).toInt = n.val := by
      unfold greatestStored at small bound
      exact Int64.toInt_ofInt_of_le (by omega) (by omega)
    rw [encode_of_le small]
    show t.of? (Int64.ofInt n.val).toInt = some n
    rw [stored, of?_val]
  · -- The numeral has no sign, and the type has room for it and so reads text.
    have large : greatestStored < n.val := by omega
    obtain ⟨k, k_eq⟩ : ∃ k : Nat, n.val = k := by
      unfold greatestStored at large
      exact Int.eq_ofNat_of_zero_le (by omega)
    have reads : greatestStored < t.greatest := by omega
    have digits : (Text.ofInt n.val).toList = Text.decimal k := by
      rw [k_eq]
      exact String.toList_ofList
    rw [encode_of_lt large]
    show (if greatestStored < t.greatest then
      (Text.readUnsigned? (Text.ofInt n.val).toList).bind fun k => t.of? k else none) = some n
    rw [if_pos reads, digits, Text.readUnsigned?_decimal, Option.bind_some, ← k_eq, of?_val]

end IntType

/-! ## Other types -/

namespace HostType

/-- Every value of the type comes back from SQL as it went, and none goes as
    null. -/
def Lossless (t : HostType) : Prop :=
  ∀ x : t.Carrier, t.decode? (t.encode x) = some x ∧ t.encode x ≠ .null

theorem lossless_int (t : IntType) : (HostType.int t).Lossless := by
  intro n
  refine ⟨IntType.decode?_encode n, ?_⟩
  show IntType.encode n ≠ .null
  unfold IntType.encode
  split <;> simp

theorem lossless_bool : HostType.bool.Lossless := fun _ => ⟨rfl, Value.noConfusion⟩

theorem lossless_string : HostType.string.Lossless := fun _ => ⟨rfl, Value.noConfusion⟩

theorem lossless_bytes : HostType.bytes.Lossless := fun _ => ⟨rfl, Value.noConfusion⟩

theorem decode?_option_of_ne_null {t : HostType} {v : Value} (h : v ≠ .null) :
    (HostType.option t).decode? v = (t.decode? v).map some := by
  cases v with
  | null => exact absurd rfl h
  | bool _ | int _ | float _ | text _ | blob _ => rfl

/-- Values that are never sent as null can be told from none. -/
theorem Lossless.decode?_option {t : HostType} (h : t.Lossless) (x : (HostType.option t).Carrier) :
    (HostType.option t).decode? ((HostType.option t).encode x) = some x := by
  cases x with
  | none => rfl
  | some x =>
    obtain ⟨decoded, present⟩ := h x
    show (HostType.option t).decode? (t.encode x) = some (some x)
    rw [decode?_option_of_ne_null present, decoded, Option.map_some]

end HostType

/-- The values of the type are integers, truth values, texts or bytes. -/
def ScalarType.IsDiscrete (s : ScalarType) : Prop :=
  s.isInteger = true ∨ s = .bool ∨ s.isText = true ∨ s = .blob

theorem ScalarType.IsDiscrete.lossless {s : ScalarType} (h : s.IsDiscrete) (unsigned : Bool) :
    (s.hostType unsigned).Lossless := by
  cases s with
  | bigInt | int | smallInt | tinyInt => exact HostType.lossless_int _
  | bool => exact HostType.lossless_bool
  | varChar _ | char _ | text => exact HostType.lossless_string
  | blob => exact HostType.lossless_bytes
  | double | float | date | time | dateTime => rcases h with h | h | h | h <;> cases h

theorem ColumnType.decode?_encode {t : ColumnType} (h : t.scalar.IsDiscrete)
    (x : t.hostType.Carrier) : t.hostType.decode? (t.hostType.encode x) = some x := by
  have scalar := h.lossless t.unsigned
  revert x
  unfold hostType
  by_cases nullable : t.nullable = true
  · rw [if_pos nullable]
    exact scalar.decode?_option
  · rw [if_neg nullable]
    exact fun x => (scalar x).1

/-! ## Counts in variables -/

/-- The export that sets a variable last, and the answer it takes the value
    from. -/
def lastExport? (ps : List Performed) (name : String) : Option (RoutineExport × Answer) :=
  (ps.flatMap fun p => p.step.exports.map fun e => (e, p.answer)).reverse.find? (·.1.var == name)

/-- The row count or the generated key that an export takes from the report of a
    write. -/
def ExportSource.count? (r : ExecResult) : ExportSource → Option UInt64
  | .column _ => none
  | .insertId => r.lastInsertId
  | .rowsAffected => some r.rowsAffected

theorem lookup_map_export (xs : List (RoutineExport × Answer)) (name : String) :
    (xs.map fun x => (x.1.var, x.1.value x.2)).lookup name =
      (xs.find? (·.1.var == name)).map fun x => x.1.value x.2 := by
  induction xs with
  | nil => rfl
  | cons x rest ih =>
    rw [List.map_cons, lookup_cons_eq_ite, ih, List.find?_cons]
    by_cases here : name = x.1.var
    · simp [here]
    · have other : (x.1.var == name) = false := beq_eq_false_iff_ne.2 (Ne.symm here)
      simp [here, other]

/-- A variable holds what its last export took from the answer. -/
theorem Passes.lookup_of_lastExport? {σ : Type} {h : Handle σ} {vars vars' : Variables} {s s' : σ}
    {ps : List Performed} (passes : Passes h vars s ps vars' s') {name : String}
    {e : RoutineExport} {a : Answer} (last : lastExport? ps name = some (e, a)) :
    ∃ v, e.value a = .ok v ∧ vars'.entries.lookup name = some v := by
  have exports_eq : ps.flatMap Performed.exports =
      (ps.flatMap fun p => p.step.exports.map fun e => (e, p.answer)).map
        fun x => (x.1.var, x.1.value x.2) := by
    rw [List.map_flatMap]
    simp only [List.map_map]
    rfl
  have held := passes.lookup name
  unfold lastExport? at last
  rw [exports_eq, ← List.map_reverse, lookup_map_export, last, Option.map_some,
    Option.some_or] at held
  obtain ⟨v, found, v_eq⟩ := Option.map_eq_some_iff.1 held
  exact ⟨v, v_eq.symm, found⟩

/-- An export of a count takes its SQL value. -/
theorem RoutineExport.value_of_count? {e : RoutineExport} {r : ExecResult} {n : UInt64} {v : Value}
    (count : e.source.count? r = some n) (h : e.value (.report r) = .ok v) : v = countValue n := by
  obtain ⟨source, var⟩ := e
  cases source with
  | column index => simp [ExportSource.count?] at count
  | rowsAffected =>
    cases count
    cases h
    rfl
  | insertId =>
    obtain ⟨id, reported, rfl⟩ := map_eq_ok_iff.1 (show r.insertId.map countValue = .ok v from h)
    have id_eq : r.lastInsertId = some id := by
      unfold ExecResult.insertId at reported
      split at reported
      · cases reported
      · next found =>
        rw [found]
        split at reported
        · cases reported
        · split at reported
          · cases reported
            rfl
          · cases reported
    rw [show r.lastInsertId = some n from count, Option.some_inj] at id_eq
    rw [id_eq]

theorem Variables.take_of_lookup {vs : Variables} {name : String} {n : UInt64}
    (h : vs.entries.lookup name = some (countValue n)) :
    (vs.take (.int .u64) name).1 = .ok (IntType.ofWord n) := by
  have passed : (HostType.int .u64).decode? (countValue n) = some (IntType.ofWord n) :=
    IntType.decode?_encode (IntType.ofWord n)
  unfold take
  simp only [get_eq_ok_iff.2 h, passed]

/-- A committed routine gives the counts and generated keys back that its steps
    were told. -/
theorem Routine.take_count {σ : Type} {db : Database σ} {r : Routine} {s s' : σ}
    {vars : Variables} (run : r.run db s = (.ok vars, s')) :
    ∃ s₁ s₂ passed, db.begin s = (.ok (), s₁) ∧ r.steps = passed.map (·.step) ∧
      Passes db.toHandle {} s₁ passed vars s₂ ∧
      ∀ name e report n, lastExport? passed name = some (e, .report report) →
        e.source.count? report = some n →
        (vars.take (.int .u64) name).1 = .ok (IntType.ofWord n) := by
  obtain ⟨s₁, s₂, begun, ran⟩ := Routine.runSteps_of_run_eq_ok run
  obtain ⟨passed, steps, passes⟩ := runSteps_eq_ok_iff.1 ran
  refine ⟨s₁, s₂, passed, begun, steps, passes, ?_⟩
  intro name e report n last count
  obtain ⟨v, v_eq, held⟩ := passes.lookup_of_lastExport? last
  rw [RoutineExport.value_of_count? count v_eq] at held
  exact Variables.take_of_lookup held

/-! ## What survives -/

/-- A value of a column over integers, truth values, texts or bytes is read as it
    was sent, none included. A committed routine gives back the row counts and the
    generated keys that the writes behind its variables reported. -/
theorem HostType.values_survive :
    (∀ t : ColumnType, t.scalar.IsDiscrete → ∀ x : t.hostType.Carrier,
      t.hostType.decode? (t.hostType.encode x) = some x) ∧
    ∀ (σ : Type) (db : Database σ) (r : Routine) (s s' : σ) (vars : Variables),
      r.run db s = (.ok vars, s') →
      ∃ s₁ s₂ passed, db.begin s = (.ok (), s₁) ∧ r.steps = passed.map (·.step) ∧
        Passes db.toHandle {} s₁ passed vars s₂ ∧
        ∀ name e report n, lastExport? passed name = some (e, .report report) →
          e.source.count? report = some n →
          (vars.take (.int .u64) name).1 = .ok (IntType.ofWord n) :=
  ⟨fun _ discrete => ColumnType.decode?_encode discrete, fun _ _ _ _ _ _ => Routine.take_count⟩

/-- The greatest key there is. -/
def greatestKey : UInt64 := 18446744073709551615

/-- An insert that keeps its key in a variable. -/
def keepKey : Routine where
  name := "keepKey"
  steps := [{ action := "insertNote", sql := "INSERT INTO `notes` (`text`) VALUES (?)"
              kind := .insert, args := [.value (.text "hello")], exports := [⟨.insertId, "id"⟩] }]

/-- The greatest key goes as text. It comes back from a column that may be null,
    and from the variable of an insert. -/
theorem greatestKey_survives :
    (∃ digits, HostType.encode (.option (.int .u64)) (some (IntType.ofWord greatestKey)) =
        .text digits ∧
      ColumnType.hostType { scalar := .bigInt, unsigned := true, nullable := true } =
        .option (.int .u64) ∧
      HostType.decode? (.option (.int .u64)) (.text digits) =
        some (some (IntType.ofWord greatestKey))) ∧
    ∃ vars s', keepKey.run (Script.database {}) [.exec ⟨1, some greatestKey⟩] = (.ok vars, s') ∧
      (vars.take (.int .u64) "id").1 = .ok (IntType.ofWord greatestKey) := by
  obtain ⟨columns, runs⟩ := HostType.values_survive
  constructor
  · have back := columns { scalar := .bigInt, unsigned := true, nullable := true }
      (.inl rfl) (some (IntType.ofWord greatestKey))
    exact ⟨_, rfl, rfl, back⟩
  · have ran : ∃ vars s',
        keepKey.run (Script.database {}) [.exec ⟨1, some greatestKey⟩] = (.ok vars, s') :=
      ⟨_, _, rfl⟩
    obtain ⟨vars, s', run⟩ := ran
    refine ⟨vars, s', run, ?_⟩
    obtain ⟨s₁, s₂, passed, begun, steps, passes, counts⟩ := runs _ _ _ _ _ _ run
    obtain ⟨-, rfl⟩ := Prod.mk.inj begun
    obtain ⟨⟨step, params, answer⟩, rfl⟩ : ∃ p, passed = [p] :=
      List.length_eq_one_iff.1 (by simpa [keepKey] using (congrArg List.length steps).symm)
    obtain rfl : keepKey.steps.head (by decide) = step := (List.cons.inj steps).1
    cases passes with
    | cons resolved answered exported rest =>
      have told : Answer.report ⟨1, some greatestKey⟩ = answer :=
        Except.ok.inj (Prod.mk.inj answered).1
      rw [← told] at counts
      exact counts "id" _ _ _ rfl rfl

end Bindery
