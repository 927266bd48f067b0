import InfraScan.Definition.Key
import InfraScan.Fault
import InfraScan.FileTree.Path
import InfraScan.Json.Reader

/-!
# Definition dumps

A dump holds the raw blocks of one configuration file, grouped by category.  A text holds one
dump or an array of them.  A record may be written as an object or as the array of its fields
in order; unknown members are ignored, and a member that the record knows must not be
repeated.

* `Dump` — one file's raw blocks
* `Dump.ofJson?` — a value read as one dump
* `Dump.listOfJson?` — a value read as an array of dumps
* `Dump.parseAll` — the dumps of a text
* `Dump.seenFrom` — a dump whose path is relative to some directory
-/

namespace InfraScan

/-- The raw blocks of one file, a list for each category. -/
abbrev BlocksByCategory := OrderedMap String (List Json)

/-- **One file's raw blocks**, with the chain of module calls that brought the file in. -/
structure Dump where
  filePath : String
  modules : List ModuleCall
  blocks : BlocksByCategory

/-- The one member of a record under a name: outer none when the member is repeated. -/
def Json.onlyMember? (name : String) (fields : List (String × Json)) : Option (Option Json) :=
  match fields.filter (·.1 = name) with
  | [] => some none
  | [(_, value)] => some (some value)
  | _ => none

/-- A hop of a chain of module calls. -/
def ModuleCall.ofJson? : Json → Option ModuleCall
  | .obj fields => do
    let path ← (← Json.onlyMember? "path" fields) >>= Json.str?
    let name ← (← Json.onlyMember? "name" fields) >>= Json.str?
    some ⟨path, name⟩
  | .arr [path, name] => do some ⟨← path.str?, ← name.str?⟩
  | _ => none

namespace Dump

/-- A chain of module calls. -/
def modulesOfJson? (value : Json) : Option (List ModuleCall) := do
  (← value.items?).mapM ModuleCall.ofJson?

/-- Raw blocks by category.  A repeated category has its first position and its last
blocks. -/
def blocksOfJson? (value : Json) : Option BlocksByCategory := do
  let categories ← (← value.fields?).mapM fun field => do
    some (field.1, Json.canonicalItems (← field.2.items?))
  some (OrderedMap.ofList categories)

/-- A dump from the values of its three fields. -/
def ofFields? (filePath : Json) (modules : Option Json) (blocks : Json) : Option Dump := do
  let filePath ← filePath.str?
  let modules ← (modules.map modulesOfJson?).getD (some [])
  let blocks ← blocksOfJson? blocks
  some ⟨filePath, modules, blocks⟩

/-- **A value read as one dump.**  The chain of module calls may be left out of an object. -/
def ofJson? : Json → Option Dump
  | .obj fields => do
    let filePath ← Json.onlyMember? "file_path" fields
    let modules ← Json.onlyMember? "source_modules" fields
    let blocks ← Json.onlyMember? "blocks" fields
    ofFields? (← filePath) modules (← blocks)
  | .arr [filePath, modules, blocks] => ofFields? filePath (some modules) blocks
  | _ => none

/-- **A value read as an array of dumps.** -/
def listOfJson? (value : Json) : Option (List Dump) := do
  (← value.items?).mapM ofJson?

/-- The dumps that a value holds: one dump if it can be read so, else an array of them. -/
def allOfJson? (value : Json) : Option (List Dump) :=
  match ofJson? value with
  | some dump => some [dump]
  | none => listOfJson? value

/-- **The dumps that a text holds.**  The value at the front of the text is looked at before
what follows it. -/
def parseAll (text : String) : Except Fault (List Dump) :=
  match Json.parseFront? text with
  | none => .error (.invalidDefinitions .notJson)
  | some (value, rest) =>
    match allOfJson? value with
    | none => .error (.invalidDefinitions .wrongShape)
    | some dumps =>
      if Json.isFinished rest then .ok dumps else .error (.invalidDefinitions .notJson)

/-- The identity of the file. -/
def key (dump : Dump) : DefinitionKey := ⟨dump.filePath, dump.modules⟩

/-- The dump with a relative path seen from a directory. -/
def seenFrom (base : String) (dump : Dump) : Dump :=
  { dump with filePath := Path.join base dump.filePath }

end Dump

end InfraScan
