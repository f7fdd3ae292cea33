import Bindery.Proofs.Name.Spelling
import Bindery.Proofs.Scope.Resolution

/-!
# Derived names

The name derived for a column is a spelling of a list of words: those of the main
table if asked for, those of the joins on the way to the table of the column, and those
of the column. It is put together as a text and split into words again, which gives
the same words as underscores end words and words in lower case are kept.

* `PathTo`: the joins on the way to a table, in their order.
* `Join.pathWords`: the words that a join adds.
* `Name.Case.spell`: the spelling of words.
* `Scope.outputName_spells`: the words of derived names.
-/

namespace Bindery

open Name (words IsAscii)

/-! ## Words of stems -/

namespace Name

/-- The spelling of a list of words. -/
def Case.spell : Case → List (List Char) → String
  | .snake, ws => joinWords ws
  | .camel, [] => ""
  | .camel, first :: rest => String.ofList (first ++ (rest.map capitalize).flatten)

theorem Case.apply_eq (case : Case) (name : String) :
    case.apply name = case.spell (words name) := by
  cases case with
  | snake => rfl
  | camel =>
    show Name.camel name = Case.camel.spell (words name)
    unfold Name.camel
    split
    · next none => rw [none, Case.spell]
    · next first rest some => rw [some, Case.spell]

theorem isWord_of_mem_dropKeyWord {name : String} (ascii : IsAscii name) {w : List Char}
    (member : w ∈ dropKeyWord (words name)) : IsWord w := by
  rw [dropKeyWord] at member
  split at member
  · exact isWord_of_mem_words ascii ((List.dropLast_sublist _).mem member)
  · exact isWord_of_mem_words ascii member

theorem words_stem {name : String} (ascii : IsAscii name) :
    words (stem name) = dropKeyWord (words name) :=
  words_joinWords fun _ member => isWord_of_mem_dropKeyWord ascii member

/-- Nothing but `id` is left of a name if and only if it is the only word left. -/
theorem stem_eq_id_iff {name : String} (ascii : IsAscii name) :
    stem name = "id" ↔ dropKeyWord (words name) = [keyWord] := by
  constructor
  · intro bare
    rw [← words_stem ascii, bare]
    decide
  · intro bare
    rw [stem, bare]
    decide

end Name

/-! ## Paths of joins -/

/-- The joins on the way from the main table to a table: none to the main table itself,
    and to a joined table those to the table on the base side and then its own. -/
inductive PathTo (joins : List Join) : Source → List Join → Prop
  | main : PathTo joins .main []
  | join {index : Nat} {j : Join} {path : List Join} (found : joins[index]? = some j)
      (before : PathTo joins j.base.source path) : PathTo joins (.join index) (path ++ [j])

theorem PathTo.subset {joins path : List Join} {source : Source} (h : PathTo joins source path) :
    path ⊆ joins := by
  induction h with
  | main => exact List.nil_subset _
  | join found _ ih =>
    have last := List.mem_of_getElem? found
    exact List.append_subset.2 ⟨ih, by simpa using last⟩

/-- The words that a join adds to derived names: those of its base column without a
    trailing `id`, or those of its table if nothing but `id` is left. -/
def Join.pathWords (j : Join) : List (List Char) :=
  if Name.dropKeyWord (words j.base.column) = [Name.keyWord] then words j.table.name
  else Name.dropKeyWord (words j.base.column)

/-- The names of a join that derived names are made of are in ASCII. -/
structure Join.IsAscii (j : Join) : Prop where
  base : Name.IsAscii j.base.column
  table : Name.IsAscii j.table.name

theorem Join.words_pathName {j : Join} (ascii : j.IsAscii) : words j.pathName = j.pathWords := by
  have bare_iff := Name.stem_eq_id_iff ascii.base
  unfold Join.pathName Join.pathWords
  by_cases bare : Name.stem j.base.column = "id"
  · rw [if_pos bare, if_pos (bare_iff.1 bare)]
    exact Name.words_snake ascii.table
  · rw [if_neg bare, if_neg fun only => bare (bare_iff.2 only)]
    exact Name.words_stem ascii.base

namespace Scope

variable {main : Table} {joins : List Join} {s : Scope}

/-- Every table in scope is at the end of a path. -/
theorem exists_pathTo (h : resolve main joins = .ok s) {source : Source} {seat : Seat}
    (found : s.seats[source.place]? = some seat) : ∃ path, PathTo joins source path := by
  -- the base of a join is at an earlier place, so the induction is on the place
  induction place : source.place using Nat.strongRecOn generalizing source seat with
  | ind n ih =>
    subst place
    cases source with
    | main => exact ⟨[], .main⟩
    | join index =>
      have count := length_seats_of_resolve h
      have declared : index < joins.length := by
        have within := (List.getElem?_eq_some_iff.1 found).1
        rw [Source.place] at within
        omega
      have hj : joins[index]? = some joins[index] := List.getElem?_eq_getElem declared
      obtain ⟨parent, before, hparent, -⟩ := place_of_resolve h hj
      obtain ⟨path, hpath⟩ := ih _ before hparent rfl
      exact ⟨path ++ [joins[index]], .join hj hpath⟩

/-- A seat keeps the names of the joins on the path to it. -/
theorem path_of_pathTo (h : resolve main joins = .ok s) {source : Source} {path : List Join}
    (way : PathTo joins source path) {seat : Seat}
    (found : s.seats[source.place]? = some seat) : seat.path = path.map Join.pathName := by
  induction way generalizing seat with
  | main =>
    have first : s.main = seat := Option.some.inj found
    rw [← first]
    rcases (resolve_eq_ok h).2 with ⟨-, rfl⟩ | ⟨-, hmain, -⟩
    · rfl
    · rw [hmain, List.map_nil]
  | @join index j path hj before ih =>
    obtain ⟨parent, -, hparent, here⟩ := place_of_resolve h hj
    obtain rfl := Option.some.inj (here.symm.trans found)
    show parent.path ++ [j.pathName] = (path ++ [j]).map Join.pathName
    rw [ih hparent, List.map_append, List.map_singleton]

/-- The words of a derived name. -/
def derivedWords (naming : Naming) (main : Table) (path : List Join) (column : Column) :
    List (List Char) :=
  (if naming.tablePrefix then words main.name else []) ++ path.flatMap Join.pathWords ++
    words column.name

/-- The name derived for a column is the spelling of the words of the main table if asked
    for, of the joins on the way to it and of the column. -/
theorem outputName_spells (h : resolve main joins = .ok s) (naming : Naming) {c : ColumnRef}
    {column : Column} (hcolumn : s.column c = .ok column) (hmain : IsAscii main.name)
    (hjoins : ∀ j ∈ joins, j.IsAscii) (hname : IsAscii column.name) :
    (∃ path, PathTo joins c.source path) ∧
      ∀ path, PathTo joins c.source path →
        s.outputName naming c = .ok (naming.case.spell (derivedWords naming main path column)) := by
  obtain ⟨seat, hseat, hplace⟩ := column_eq_ok_iff.1 hcolumn
  refine ⟨exists_pathTo h (seat_eq_ok_iff.1 hseat), ?_⟩
  intro path way
  have table : s.main.table = main := (sitsAt_of_resolve h).1
  have lead : (if naming.tablePrefix then [Name.snake main.name] else []).flatMap words =
      if naming.tablePrefix then words main.name else [] := by
    split
    · rw [List.flatMap_singleton, Name.words_snake hmain]
    · rfl
  have between : (path.map Join.pathName).flatMap words = path.flatMap Join.pathWords := by
    rw [List.flatMap_map]
    exact List.flatMap_congr fun j member => Join.words_pathName (hjoins j (way.subset member))
  refine bind_eq_ok_iff.2 ⟨seat, hseat, bind_eq_ok_iff.2 ⟨column, hplace, ?_⟩⟩
  rw [pure_eq_ok_iff, Name.Case.apply_eq, Name.words_intercalate, table,
    path_of_pathTo h way (seat_eq_ok_iff.1 hseat), List.flatMap_append, List.flatMap_append,
    lead, between, List.flatMap_singleton, Name.words_snake hname, derivedWords]

end Scope

/-- Three people up the line, and everybody under the second of them. -/
def team : List Join := bosses ++ [⟨staff, .left, .ofJoin 1 "id", "boss_id"⟩]

theorem team_named :
    IsAscii staff.name ∧ (∀ j ∈ team, IsAscii j.base.column ∧ IsAscii j.table.name) ∧
    ∃ s, Scope.resolve staff team = .ok s ∧ (∃ path, PathTo team (.join 3) path) ∧
      s.outputName ⟨.camel, true⟩ (.ofJoin 3 "name") = .ok "staffBossBossStaffName" ∧
      s.outputName ⟨.snake, false⟩ (.ofJoin 3 "name") = .ok "boss_boss_staff_name" := by
  have table : IsAscii staff.name := by decide
  have names : ∀ j ∈ team, IsAscii j.base.column ∧ IsAscii j.table.name := by decide
  have resolves : ∃ s column, Scope.resolve staff team = .ok s ∧
      s.column (.ofJoin 3 "name") = .ok column ∧ column.name = "name" := ⟨_, _, rfl, rfl, rfl⟩
  obtain ⟨s, column, h, hcolumn, named⟩ := resolves
  have spells (naming : Naming) := Scope.outputName_spells h naming hcolumn table
    (fun j member => ⟨(names j member).1, (names j member).2⟩) (named ▸ by decide)
  have way : PathTo team (.join 3) ([] ++ [_] ++ [_] ++ [_]) :=
    .join rfl (.join rfl (.join rfl .main))
  refine ⟨table, names, s, h, (spells ⟨.camel, true⟩).1, ?_, ?_⟩
  · rw [(spells _).2 _ way, Scope.derivedWords, named]
    decide
  · rw [(spells _).2 _ way, Scope.derivedWords, named]
    decide

end Bindery
