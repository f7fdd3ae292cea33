import Bindery.Proofs.Name.Spelling
import Bindery.Proofs.Statement.Acceptance
import Bindery.Proofs.Statement.Placeholders

/-!
# Outputs by name

Among names of different words a name is found by its words, exact spellings
included, so an output is found under each spelling that has the words of its name.
Its snake case has them. Its camel case has them if and only if each word of the name
shows in it; else nothing is found or the output of another name.

* `Name.index?_eq_some_iff`: a position is found by the words of its name.
* `spelledOutput_found_iff`: the spellings under which an output and its field are
  found.
-/

namespace Bindery

namespace Name

theorem snake_eq_of_index? {names : List String} {wanted : String} {i : Nat}
    (found : index? names wanted = some i) :
    ∃ name, names[i]? = some name ∧ snake name = snake wanted := by
  rw [index?, Option.or_eq_some_iff, List.findIdx?_eq_some_iff_getElem,
    List.findIdx?_eq_some_iff_getElem] at found
  rcases found with ⟨within, same, -⟩ | ⟨-, within, same, -⟩
  · refine ⟨names[i], List.getElem?_eq_getElem within, ?_⟩
    rw [beq_iff_eq.1 same]
  · exact ⟨names[i], List.getElem?_eq_getElem within, beq_iff_eq.1 same⟩

/-- Among names in different snake cases, the one found is the one in the snake case of
    the wanted name. -/
theorem index?_eq_some_iff {names : List String} (distinct : (names.map snake).Nodup)
    {wanted : String} {i : Nat} :
    index? names wanted = some i ↔ ∃ name, names[i]? = some name ∧ snake name = snake wanted := by
  constructor
  · exact snake_eq_of_index?
  · rintro ⟨name, here, same⟩
    have finds := index?_isSome_iff.2 ⟨name, List.mem_of_getElem? here, same⟩
    obtain ⟨k, found⟩ := Option.isSome_iff_exists.1 finds
    obtain ⟨other, there, same'⟩ := snake_eq_of_index? found
    have twice : (names.map snake)[k]? = (names.map snake)[i]? := by
      rw [List.getElem?_map, List.getElem?_map, here, there, Option.map_some, Option.map_some,
        same, same']
    have within : k < (names.map snake).length := by
      rw [List.length_map]
      exact (List.getElem?_eq_some_iff.1 there).1
    rw [found, (List.getElem?_inj within distinct).1 twice]

end Name

section

variable {ε : Type} {outputs : List (Output ε)}
  (distinct : (outputs.map fun o => Name.snake o.name).Nodup)
include distinct

theorem index?_outputs_eq_some_iff {wanted : String} {i : Nat} :
    Name.index? (outputs.map (·.name)) wanted = some i ↔
      ∃ o, outputs[i]? = some o ∧ Name.snake o.name = Name.snake wanted := by
  rw [Name.index?_eq_some_iff (by rwa [List.map_map]), List.getElem?_map]
  constructor
  · rintro ⟨_, named, same⟩
    obtain ⟨o, here, rfl⟩ := Option.map_eq_some_iff.1 named
    exact ⟨o, here, same⟩
  · rintro ⟨o, here, same⟩
    exact ⟨o.name, by rw [here, Option.map_some], same⟩

/-- An output is found under a name if and only if it is in the snake case of that name. -/
theorem findOutput?_eq_some_iff {wanted : String} {o : Output ε} :
    findOutput? outputs wanted = some o ↔
      o ∈ outputs ∧ Name.snake o.name = Name.snake wanted := by
  rw [findOutput?, Option.bind_eq_some_iff]
  constructor
  · rintro ⟨i, found, here⟩
    obtain ⟨o', here', same⟩ := (index?_outputs_eq_some_iff distinct).1 found
    obtain rfl := Option.some.inj (here.symm.trans here')
    exact ⟨List.mem_of_getElem? here, same⟩
  · rintro ⟨member, same⟩
    obtain ⟨i, here⟩ := List.getElem?_of_mem member
    exact ⟨i, (index?_outputs_eq_some_iff distinct).2 ⟨o, here, same⟩, here⟩

/-- The field of a name stands where the output of that name does. -/
theorem Shape.field?_ofOutputs_eq_some_iff {wanted : String} {i : Nat} {f : Field} :
    (Shape.ofOutputs outputs).field? wanted = some (i, f) ↔
      ∃ o, outputs[i]? = some o ∧ o.field = f ∧ Name.snake o.name = Name.snake wanted := by
  have names : (Shape.ofOutputs outputs).fields.map (·.name) = outputs.map (·.name) := by
    rw [Shape.ofOutputs, List.map_map]
    rfl
  rw [Shape.field?, names, Option.bind_eq_some_iff]
  simp only [Shape.ofOutputs, List.getElem?_map, Option.map_map, Option.map_eq_some_iff,
    index?_outputs_eq_some_iff distinct]
  constructor
  · rintro ⟨k, ⟨o, here, same⟩, o', here', position⟩
    obtain rfl := Option.some.inj (here.symm.trans here')
    obtain ⟨rfl, rfl⟩ := Prod.mk.inj position
    exact ⟨o, here, rfl, same⟩
  · rintro ⟨o, here, rfl, same⟩
    exact ⟨i, ⟨o, here, same⟩, o, here, rfl⟩

end

/-- Among outputs whose names differ in snake case, each one is found under the snake
    case of its name, and its field at the same position. Under the camel case they are
    found if and only if each word of the name shows in it. -/
theorem spelledOutput_found_iff {ε : Type} {outputs : List (Output ε)}
    (distinct : (outputs.map fun o => Name.snake o.name).Nodup)
    (ascii : ∀ o ∈ outputs, Name.IsAscii o.name) {i : Nat} {o : Output ε}
    (here : outputs[i]? = some o) :
    (findOutput? outputs (Name.snake o.name) = some o ∧
      (Shape.ofOutputs outputs).field? (Name.snake o.name) = some (i, o.field)) ∧
    (findOutput? outputs (Name.camel o.name) = some o ↔
      Name.legible false (Name.words o.name) = true) ∧
    ((Shape.ofOutputs outputs).field? (Name.camel o.name) = some (i, o.field) ↔
      Name.legible false (Name.words o.name) = true) := by
  have member := List.mem_of_getElem? here
  have found (wanted : String) : findOutput? outputs wanted = some o ↔
      Name.snake o.name = Name.snake wanted :=
    (findOutput?_eq_some_iff distinct).trans (and_iff_right member)
  have placed (wanted : String) :
      (Shape.ofOutputs outputs).field? wanted = some (i, o.field) ↔
        Name.snake o.name = Name.snake wanted := by
    rw [Shape.field?_ofOutputs_eq_some_iff distinct]
    constructor
    · rintro ⟨o', there, -, same⟩
      obtain rfl := Option.some.inj (here.symm.trans there)
      exact same
    · intro same
      exact ⟨o, here, rfl, same⟩
  have snakes : Name.snake o.name = Name.snake (Name.snake o.name) := by
    show Name.joinWords (Name.words o.name) = Name.joinWords (Name.words (Name.snake o.name))
    rw [Name.words_snake (ascii o member)]
  have camels : Name.snake o.name = Name.snake (Name.camel o.name) ↔
      Name.legible false (Name.words o.name) = true := by
    rw [Name.snake_eq_iff (ascii o member) (Name.isAscii_camel (ascii o member)),
      ← Name.words_camel_iff (ascii o member)]
    exact eq_comm
  exact ⟨⟨(found _).2 snakes, (placed _).2 snakes⟩, (found _).trans camels, (placed _).trans camels⟩

/-- Outputs in mixed spellings: words that start with a capital or end in a digit show in
    camel case, and letters alone do not. -/
def measures : List Output :=
  ["axis2_maxX", "point_x_y"].map fun name => ⟨name, [.name name], false, none, .count, false⟩

theorem measures_found :
    (measures.map fun o => Name.snake o.name) = ["axis2_max_x", "point_x_y"] ∧
    (∀ o ∈ measures, Name.IsAscii o.name) ∧
    ((Shape.ofOutputs measures).field? "axis2MaxX").map (·.1) = some 0 ∧
    ((Shape.ofOutputs measures).field? "point_x_y").map (·.1) = some 1 ∧
    ∀ o, measures[1]? = some o → findOutput? measures "pointXY" ≠ some o := by
  have spelled : (measures.map fun o => Name.snake o.name) = ["axis2_max_x", "point_x_y"] := by
    decide
  have distinct : (measures.map fun o => Name.snake o.name).Nodup := by
    rw [spelled]
    decide
  have ascii : ∀ o ∈ measures, Name.IsAscii o.name := by decide
  obtain ⟨-, -, axis⟩ := spelledOutput_found_iff distinct ascii (i := 0) rfl
  obtain ⟨⟨-, point⟩, missed, -⟩ := spelledOutput_found_iff distinct ascii (i := 1) rfl
  refine ⟨spelled, ascii, ?_, ?_, ?_⟩
  · exact congrArg (Option.map (·.1)) (axis.2 (by decide))
  · exact congrArg (Option.map (·.1)) point
  · rintro o ⟨⟩ found
    exact absurd (missed.1 found) (by decide)

/-- Two columns under names of different words, in the order of the first one by its
    camel case. -/
def corners : Select where
  columns := [.column (.ofMain "id") (some "point_x_y"), .column (.ofMain "name") (some "point_xy")]
  orderBy := [⟨.output (Name.camel "point_x_y"), false⟩]

/-- Letters alone do not show behind each other, so the rows are in the order of another
    output, and its field is the one found. -/
theorem corners_misordered :
    Name.snake "point_x_y" ≠ Name.snake "point_xy" ∧
    ∃ c shape, (Action.perform "corners" accounts (.select corners)).compile {} = .ok c ∧
      c.sql = "SELECT \x60id\x60 AS \x60point_x_y\x60, \x60name\x60 AS \x60point_xy\x60 " ++
        "FROM \x60accounts\x60 ORDER BY \x60point_xy\x60" ∧
      c.shape = some shape ∧
      ((shape.field? (Name.camel "point_x_y")).map fun found => (found.1, found.2.name)) =
        some (1, "point_xy") :=
  ⟨by decide, _, _, rfl, by decide, rfl, by decide⟩

end Bindery
