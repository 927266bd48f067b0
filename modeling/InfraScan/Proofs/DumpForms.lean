import InfraScan.Definition.Dump
import InfraScan.Proofs.JsonReader
import InfraScan.Proofs.JsonViews

/-!
# One dump or an array of dumps

A text holds one dump or an array of them, and a dump may itself be written as an array.  The
two readings are tried one after the other, so it matters that they never both succeed.

* `Dump.listOfJson?_eq_some_iff` — what an array of dumps is
* `Dump.ofJson?_eq_none_or` — a value that is one dump is no array of dumps
* `Dump.allOfJson?_of_items` — an array of dumps is read as the dumps in order
* `dump_forms_apart` — the two forms together

### What is load-bearing

A dump that is written as an array has its path first, and a path is no dump.  That is all
that keeps an array of three dumps from being taken for one dump: neither the number of items
nor the form in which the dumps inside are written would do.
-/

namespace InfraScan

/-- A list is read as what its items are read as. -/
theorem mapM_eq_some_iff {α β : Type} {read : α → Option β} {list : List α} {found : List β} :
    list.mapM read = some found ↔ List.Forall₂ (fun a b => read a = some b) list found := by
  induction list generalizing found with
  | nil => simp [eq_comm]
  | cons a rest ih =>
    rw [List.mapM_cons, List.forall₂_cons_left_iff]
    constructor
    · intro both
      obtain ⟨b, first, both⟩ := Option.bind_eq_some_iff.1 both
      obtain ⟨others, later, same⟩ := Option.bind_eq_some_iff.1 both
      exact ⟨b, others, first, ih.1 later, (Option.some.inj same).symm⟩
    · rintro ⟨b, others, first, later, rfl⟩
      rw [first, ih.2 later]
      rfl

namespace Dump

/-! ### The two readings of a value -/

/-- **An array of dumps** is an array each of whose items is one dump. -/
theorem listOfJson?_eq_some_iff {value : Json} {dumps : List Dump} :
    listOfJson? value = some dumps ↔
      ∃ items, value = .arr items ∧
        List.Forall₂ (fun item dump => ofJson? item = some dump) items dumps := by
  unfold listOfJson?
  constructor
  · intro read
    obtain ⟨items, shape, read⟩ := Option.bind_eq_some_iff.1 read
    exact ⟨items, Json.items?_eq_some_iff.1 shape, mapM_eq_some_iff.1 read⟩
  · rintro ⟨items, rfl, each⟩
    exact mapM_eq_some_iff.2 each

/-- A dump that is written as an array begins with the text of its path. -/
theorem exists_path_of_ofJson? {items : List Json} {dump : Dump}
    (read : ofJson? (.arr items) = some dump) :
    ∃ path rest, items = .str path :: rest := by
  unfold ofJson? at read
  split at read
  · rename_i same
    cases same
  · rename_i filePath modules blocks same
    obtain ⟨path, text, -⟩ := Option.bind_eq_some_iff.1 read
    obtain rfl := Json.str?_eq_some_iff.1 text
    exact ⟨path, [modules, blocks], Json.arr.inj same⟩
  · cases read

/-- **A value that is one dump is no array of dumps.** -/
theorem ofJson?_eq_none_or (value : Json) :
    ofJson? value = none ∨ listOfJson? value = none := by
  cases one : ofJson? value with
  | none => exact .inl rfl
  | some dump =>
    right
    cases many : listOfJson? value with
    | none => rfl
    | some dumps =>
      obtain ⟨items, rfl, each⟩ := listOfJson?_eq_some_iff.1 many
      obtain ⟨path, rest, rfl⟩ := exists_path_of_ofJson? one
      -- The first item would have to be a dump, and it is the text of a path.
      cases each with
      | cons first _ => cases first

/-- The dumps that a value holds, when an array of dumps is tried first. -/
def allOfJsonListFirst? (value : Json) : Option (List Dump) :=
  match listOfJson? value with
  | some dumps => some dumps
  | none => (ofJson? value).map fun dump => [dump]

/-- **The order in which the readings are tried does not matter.** -/
theorem allOfJson?_eq_listFirst (value : Json) :
    allOfJson? value = allOfJsonListFirst? value := by
  unfold allOfJson? allOfJsonListFirst?
  rcases ofJson?_eq_none_or value with none | none
  · rw [none]
    cases listOfJson? value <;> rfl
  · rw [none]
    cases ofJson? value <;> rfl

theorem allOfJson?_of_one {value : Json} {dump : Dump} (read : ofJson? value = some dump) :
    allOfJson? value = some [dump] := by
  rw [allOfJson?, read]

/-- **An array of dumps is read as the dumps in order**, however many they are and however
each of them is written. -/
theorem allOfJson?_of_items {items : List Json} {dumps : List Dump}
    (each : List.Forall₂ (fun item dump => ofJson? item = some dump) items dumps) :
    allOfJson? (.arr items) = some dumps := by
  rw [allOfJson?_eq_listFirst, allOfJsonListFirst?,
    listOfJson?_eq_some_iff.2 ⟨items, rfl, each⟩]

/-! ### Texts -/

/-- The dumps of a text are those of the value that it writes. -/
theorem parseAll_of_parse? {text : String} {value : Json} {dumps : List Dump}
    (written : Json.parse? text = some value) (read : allOfJson? value = some dumps) :
    parseAll text = .ok dumps := by
  obtain ⟨rest, front, finished⟩ := Json.parse?_eq_some_iff.1 written
  have front : Json.parseFront? text = some (value, rest) := front
  simp [parseAll, front, read, Json.isFinished, finished]

end Dump

/-- **The two forms never get confused.**

* No value can be read both as one dump and as an array of dumps, and so the order in which
  the readings are tried does not matter.
* A text that writes an array of values, each of them one dump, holds these dumps in order,
  also if there are none.
* Texts that hold one dump each make the text of an array, which holds the dumps in order,
  provided the array is not nested too deep for the reader.
* An array of one dump holds the same as the dump. -/
theorem dump_forms_apart :
    (∀ value, Dump.ofJson? value = none ∨ Dump.listOfJson? value = none) ∧
    (∀ value, Dump.allOfJson? value = Dump.allOfJsonListFirst? value) ∧
    (∀ text items dumps, Json.parse? text = some (.arr items) →
      List.Forall₂ (fun item dump => Dump.ofJson? item = some dump) items dumps →
      Dump.parseAll text = .ok dumps) ∧
    (∀ texts values dumps,
      List.Forall₂ (fun text value => Json.parse? text = some value) texts values →
      (Json.arr values).nesting < Json.maxDepth →
      List.Forall₂ (fun value dump => Dump.ofJson? value = some dump) values dumps →
      Dump.parseAll (Json.arrayText texts) = .ok dumps) ∧
    ∀ text bare value dump, Json.parse? text = some (.arr [value]) →
      Json.parse? bare = some value → Dump.ofJson? value = some dump →
      Dump.parseAll text = Dump.parseAll bare := by
  refine ⟨Dump.ofJson?_eq_none_or, Dump.allOfJson?_eq_listFirst, ?_, ?_, ?_⟩
  · intro text items dumps written each
    exact Dump.parseAll_of_parse? written (Dump.allOfJson?_of_items each)
  · intro texts values dumps written deep each
    exact Dump.parseAll_of_parse? (Json.parse?_arrayText written deep)
      (Dump.allOfJson?_of_items each)
  · intro text bare value dump written written' read
    rw [Dump.parseAll_of_parse? written (Dump.allOfJson?_of_items (.cons read .nil)),
      Dump.parseAll_of_parse? written' (Dump.allOfJson?_of_one read)]

/-- A dump written as an object, and one with a module call written as an array. -/
def twoDumpTexts : List String := [
  "\x7b\"file_path\":\"a.tf\",\"blocks\":\x7b\x7d\x7d",
  "[\"b.tf\",[[\"a.tf\",\"net\"]],\x7b\"resource\":[]\x7d] "]

/-- The values of `twoDumpTexts`. -/
def twoDumpValues : List Json := [
  .obj [("file_path", .str "a.tf"), ("blocks", .obj [])],
  .arr [.str "b.tf", .arr [.arr [.str "a.tf", .str "net"]], .obj [("resource", .arr [])]]]

/-- The dumps of `twoDumpTexts`. -/
def twoDumps : List Dump := [
  ⟨"a.tf", [], ∅⟩,
  ⟨"b.tf", [⟨"a.tf", "net"⟩], OrderedMap.ofList [("resource", [])]⟩]

/-- The dumps of an array are read in order, in whichever form each of them is written. -/
theorem twoDumpTexts_parsed :
    List.Forall₂ (fun text value => Json.parse? text = some value)
        twoDumpTexts twoDumpValues ∧
      List.Forall₂ (fun value dump => Dump.ofJson? value = some dump) twoDumpValues twoDumps ∧
      Dump.parseAll (Json.arrayText twoDumpTexts) = .ok twoDumps := by
  have written : List.Forall₂ (fun text value => Json.parse? text = some value)
      twoDumpTexts twoDumpValues := .cons (by cbv) (.cons (by cbv) .nil)
  have read : List.Forall₂ (fun value dump => Dump.ofJson? value = some dump)
      twoDumpValues twoDumps := .cons rfl (.cons rfl .nil)
  exact ⟨written, read, dump_forms_apart.2.2.2.1 _ _ _ written (by decide) read⟩

end InfraScan
