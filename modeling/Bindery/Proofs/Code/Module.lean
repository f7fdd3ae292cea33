import Bindery.Proofs.Group
import Bindery.Proofs.Name.Words

/-!
# What a module defines

A module takes a method if its identifier is free, so its methods are told apart
whatever is offered to it. Records are named after the methods that return them, in
Pascal case, and no module looks whether such a name is free: two records have one
name if the names of their methods agree but for underscores before digits.

* `Module.add_eq_ok`: what a module takes in, and under which conditions.
* `Module.Consistent`: the names in a module, whatever was offered to it.
* `Module.nodup_offerAll`: its methods differ, and when its records do.
-/

namespace Bindery.Code

open Name (closeDigits snake)

/-! ## Records of methods -/

/-- The name of the record that is returned. -/
def Returned.record? : Returned → Option String
  | .record name | .records name => some name
  | .unit | .count | .field _ | .variables _ => none

/-- What is returned and the record type go together: there is no record, or one of
    the given name. -/
inductive Recorded (name : String) : Returned → Option RecordType → Prop where
  | without {returned : Returned} (h : returned.record? = none) : Recorded name returned none
  | within {returned : Returned} {record : RecordType} (h : returned.record? = some name)
    (named : record.name = name) : Recorded name returned (some record)

theorem Recorded.of_ofShape {name : String} {s : Shape} {helper helper' : Helper}
    {returned returned' : Returned} {record : Option RecordType}
    (shown : returned'.record? = some name)
    (h : (do return (helper', returned', some (← RecordType.ofShape name s)) :
      Except Fault (Helper × Returned × Option RecordType)) = .ok (helper, returned, record)) :
    Recorded name returned record := by
  obtain ⟨type, htype, same⟩ := bind_eq_ok_iff.1 h
  obtain ⟨fields, -, named⟩ := bind_eq_ok_iff.1 htype
  cases same
  cases named
  exact .within shown rfl

theorem interface_eq_ok {name : String} {kind : ActionKind} {shape : Option Shape}
    {helper : Helper} {returned : Returned} {record : Option RecordType}
    (h : interface name kind shape = .ok (helper, returned, record)) :
    Recorded name returned record := by
  revert h
  fun_cases interface name kind shape with
  | case1 s =>
    rintro ⟨⟩
    refine .without ?_
    cases s.fields <;> rfl
  | case2 | case3 | case4 | case5 => exact Recorded.of_ofShape rfl
  | case6 | case7 | case8 | case9 | case10 | case11 | case12 | case13 | case14 | case15 =>
    rintro ⟨⟩
    exact .without rfl

theorem Method.ofCompiled_eq_ok {table ident : String} {c : Compiled} {method : Method}
    {record : Option RecordType} (h : Method.ofCompiled table ident c = .ok (method, record)) :
    method.name = c.name ∧ method.ident = ident ∧
      ∃ name, recordName table c.name = .ok name ∧ Recorded name method.returned record := by
  unfold Method.ofCompiled at h
  obtain ⟨args, -, h₁⟩ := bind_eq_ok_iff.1 h
  obtain ⟨name, hname, h₂⟩ := bind_eq_ok_iff.1 h₁
  obtain ⟨⟨helper, returned, record'⟩, hinterface, h₃⟩ := bind_eq_ok_iff.1 h₂
  cases h₃
  exact ⟨rfl, rfl, name, hname, interface_eq_ok hinterface⟩

theorem Method.ofPlan_eq_ok {ident : String} {p : Plan} {method : Method}
    (h : Method.ofPlan ident p = .ok method) :
    method.name = p.name ∧ method.ident = ident ∧ method.returned.record? = none := by
  unfold Method.ofPlan at h
  obtain ⟨args, -, h₁⟩ := bind_eq_ok_iff.1 h
  cases h₁
  exact ⟨rfl, rfl, rfl⟩

namespace Module

/-! ## One offer -/

theorem methodIdent_eq_ok {m : Module} {name ident : String}
    (h : m.methodIdent name = .ok ident) :
    Name.identifier name = .ok ident ∧ ∀ x ∈ m.methods, x.ident ≠ ident := by
  unfold methodIdent at h
  obtain ⟨ident', hident, h₁⟩ := bind_eq_ok_iff.1 h
  split at h₁
  · cases h₁
  · next free =>
    cases h₁
    refine ⟨hident, fun x hx taken => free ?_⟩
    exact List.any_eq_true.2 ⟨x, hx, beq_iff_eq.2 taken⟩

/-- A method that a module takes has a free identifier, and brings a record if it
    returns one. -/
theorem add_eq_ok {m m' : Module} {p : Product} (h : m.add p = .ok m') :
    ∃ (method : Method) (record : Option RecordType),
      m' = { m with records := m.records ++ record.toList, methods := m.methods ++ [method] } ∧
      Name.identifier method.name = .ok method.ident ∧
      (∀ x ∈ m.methods, x.ident ≠ method.ident) ∧
      method.returned.record? = record.map (·.name) ∧
      ∀ name, method.returned.record? = some name → recordName m.table method.name = .ok name := by
  cases p with
  | action c =>
    obtain ⟨ident, hident, h₁⟩ := bind_eq_ok_iff.1 h
    obtain ⟨⟨method, record⟩, hmethod, h₂⟩ := bind_eq_ok_iff.1 h₁
    obtain ⟨spelled, free⟩ := methodIdent_eq_ok hident
    obtain ⟨name_eq, rfl, name, hname, recorded⟩ := Method.ofCompiled_eq_ok hmethod
    cases h₂
    rw [← name_eq] at spelled hname
    refine ⟨method, record, rfl, spelled, free, ?_⟩
    cases recorded with
    | without none => exact ⟨none, fun _ some => absurd (none.symm.trans some) (by simp)⟩
    | within shown named =>
      refine ⟨by rw [shown, Option.map_some, named], fun name' some => ?_⟩
      cases shown.symm.trans some
      exact hname
  | transaction q =>
    obtain ⟨ident, hident, h₁⟩ := bind_eq_ok_iff.1 h
    obtain ⟨method, hmethod, h₂⟩ := bind_eq_ok_iff.1 h₁
    obtain ⟨spelled, free⟩ := methodIdent_eq_ok hident
    obtain ⟨name_eq, rfl, none⟩ := Method.ofPlan_eq_ok hmethod
    cases h₂
    rw [← name_eq] at spelled
    refine ⟨method, Option.none, by simp, spelled, free, none, fun _ some => ?_⟩
    exact absurd (none.symm.trans some) (by simp)

/-- The module after an offer; what it cannot take leaves no trace. -/
def offer (m : Module) (p : Product) : Module :=
  match m.add p with
  | .ok m' => m'
  | .error _ => m

/-- The module after offers, one after the other. -/
def offerAll (m : Module) (ps : List Product) : Module := ps.foldl offer m

/-! ## The names in a module -/

/-- What the names in a module have to do with each other. -/
structure Consistent (m : Module) : Prop where
  /-- Methods have different identifiers. -/
  distinct : (m.methods.map (·.ident)).Nodup
  /-- A method has the identifier of its name. -/
  spelled : ∀ x ∈ m.methods, Name.identifier x.name = .ok x.ident
  /-- There is a record for each method that returns one, in their order. -/
  records : m.records.map (·.name) = m.methods.filterMap (·.returned.record?)
  /-- A record is named after the table and its method. -/
  recorded : ∀ x ∈ m.methods, ∀ name, x.returned.record? = some name →
    recordName m.table x.name = .ok name

theorem Consistent.ofTable {t : Table} {m : Module} (h : ofTable t = .ok m) : m.Consistent := by
  unfold Module.ofTable at h
  obtain ⟨base, -, h₁⟩ := bind_eq_ok_iff.1 h
  cases h₁
  exact ⟨List.nodup_nil, by simp, rfl, by simp⟩

theorem Consistent.offer {m : Module} (h : m.Consistent) (p : Product) :
    (m.offer p).Consistent := by
  unfold Module.offer
  split
  · next m' added =>
    obtain ⟨method, record, rfl, spelled, free, same, recorded⟩ := add_eq_ok added
    refine ⟨?_, ?_, ?_, ?_⟩
    · rw [List.map_append, List.nodup_append]
      refine ⟨h.distinct, by simp, ?_⟩
      intro ident taken ident' own
      obtain ⟨x, hx, rfl⟩ := List.mem_map.1 taken
      rw [List.map_singleton, List.mem_singleton] at own
      rw [own]
      exact free x hx
    · exact List.forall_mem_append.2 ⟨h.spelled, by simpa using spelled⟩
    · have last : record.toList.map (·.name) = [method].filterMap (·.returned.record?) := by
        rw [List.filterMap_cons, same]
        cases record <;> rfl
      rw [List.map_append, List.filterMap_append, h.records, last]
    · exact List.forall_mem_append.2 ⟨h.recorded, by simpa using recorded⟩
  · exact h

theorem Consistent.offerAll {m : Module} (h : m.Consistent) (ps : List Product) :
    (m.offerAll ps).Consistent := by
  induction ps generalizing m with
  | nil => exact h
  | cons p rest ih => exact ih (h.offer p)

theorem recordName_eq_ok {table action name : String} (h : recordName table action = .ok name) :
    ∃ base own, Name.typeName table = .ok base ∧ Name.typeName action = .ok own ∧
      name = base ++ own ++ "Result" := by
  unfold recordName at h
  obtain ⟨base, hbase, h₁⟩ := bind_eq_ok_iff.1 h
  obtain ⟨own, hown, h₂⟩ := bind_eq_ok_iff.1 h₁
  cases h₂
  exact ⟨base, own, hbase, hown, rfl⟩

/-- Records of one table have one name if and only if the names of their methods agree
    but for underscores before digits. -/
theorem recordName_eq_iff {table a b ident_a ident_b name_a name_b : String}
    (ha : Name.identifier a = .ok ident_a) (hb : Name.identifier b = .ok ident_b)
    (hna : recordName table a = .ok name_a) (hnb : recordName table b = .ok name_b) :
    name_a = name_b ↔ closeDigits (snake a).toList = closeDigits (snake b).toList := by
  obtain ⟨base, own_a, hbase, hta, rfl⟩ := recordName_eq_ok hna
  obtain ⟨base', own_b, hbase', htb, rfl⟩ := recordName_eq_ok hnb
  cases hbase.symm.trans hbase'
  rw [← Name.typeName_eq_iff ha hb hta htb]
  simp

/-- The methods of a module that return records. -/
def recordMethods (m : Module) : List Method := m.methods.filter (·.returned.record?.isSome)

theorem Consistent.nodup_records_iff {m : Module} (h : m.Consistent) :
    (m.records.map (·.name)).Nodup ↔
      (m.recordMethods.map fun x => closeDigits (snake x.name).toList).Nodup := by
  rw [h.records, recordMethods, List.Nodup, List.Nodup, List.pairwise_filterMap, List.pairwise_map,
    List.pairwise_filter]
  -- Both sides compare two methods only if both return records.
  apply List.Pairwise.iff_of_mem
  intro x y hx hy
  constructor
  · intro differ has_x has_y same
    obtain ⟨name, hname⟩ := Option.isSome_iff_exists.1 has_x
    obtain ⟨name', hname'⟩ := Option.isSome_iff_exists.1 has_y
    refine differ name hname name' hname' ?_
    exact (recordName_eq_iff (h.spelled x hx) (h.spelled y hy) (h.recorded x hx name hname)
      (h.recorded y hy name' hname')).2 same
  · intro differ name hname name' hname' same
    refine differ (by rw [hname]; rfl) (by rw [hname']; rfl) ?_
    exact (recordName_eq_iff (h.spelled x hx) (h.spelled y hy) (h.recorded x hx name hname)
      (h.recorded y hy name' hname')).1 same

/-- Whatever is offered to the module of a table, its methods have different
    identifiers. Its records have different names if and only if the snake cases of
    the methods that return them differ in more than underscores before digits. -/
theorem nodup_offerAll {t : Table} {m : Module} (h : Module.ofTable t = .ok m)
    (ps : List Product) :
    ((m.offerAll ps).methods.map (·.ident)).Nodup ∧
      (((m.offerAll ps).records.map (·.name)).Nodup ↔
        ((m.offerAll ps).recordMethods.map fun x => closeDigits (snake x.name).toList).Nodup) := by
  have consistent := (Consistent.ofTable h).offerAll ps
  exact ⟨consistent.distinct, consistent.nodup_records_iff⟩

end Module

/-! ## Records of books -/

/-- Actions that are compiled and offered to a module. -/
def compiledOffers (actions : List Action) : List Product :=
  actions.filterMap fun a => (a.compile {}).toOption.map .action

/-- Lists of books, one of them under a name that is taken. -/
def listedBooks : List Product :=
  compiledOffers [selectBooks "listTitles" ["title"], selectBooks "list_titles" ["id"],
    selectBooks "list_ids_2" ["id"]]

theorem listedBooks_differ :
    ∃ m, Module.ofTable books = .ok m ∧
      (m.offerAll listedBooks).records.map (·.name) =
        ["BookListTitlesResult", "BookListIds2Result"] ∧
      ((m.offerAll listedBooks).methods.map (·.ident)).Nodup ∧
      ((m.offerAll listedBooks).records.map (·.name)).Nodup := by
  have named : ∃ m, Module.ofTable books = .ok m := ⟨_, rfl⟩
  obtain ⟨m, hm⟩ := named
  obtain ⟨methods, records⟩ := Module.nodup_offerAll hm listedBooks
  refine ⟨m, hm, ?_, methods, records.2 ?_⟩
  · cases hm
    rfl
  · cases hm
    decide

/-- Two actions whose names differ in an underscore before a digit. -/
def numberedBooks : List Product :=
  compiledOffers [selectBooks "get_1" ["title"], selectBooks "get1" ["id"]]

theorem numberedBooks_clash :
    ∃ m, Module.ofTable books = .ok m ∧
      (m.offerAll numberedBooks).methods.map (·.ident) = ["get_1", "get1"] ∧
      (m.offerAll numberedBooks).records.map (·.name) = ["BookGet1Result", "BookGet1Result"] ∧
      ¬ ((m.offerAll numberedBooks).records.map (·.name)).Nodup := by
  refine ⟨_, rfl, rfl, rfl, ?_⟩
  decide

end Bindery.Code
