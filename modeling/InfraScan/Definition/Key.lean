/-!
# Keys of definitions

A configuration file can be brought in several times by module calls.  Its identity is its
path together with the chain of calls that produced the instance; a store may keep instances
apart or let them share a slot.

* `ModuleCall`, `DefinitionKey` — the identity of a file instance
* `KeyMode` — whether instances are kept apart
* `StoreKey` — the key under which a store holds contexts
* `DefinitionKey.render`, `StoreKey.render` — keys as text
-/

namespace InfraScan

/-- One hop of a chain of module calls: the file with the call, and the call's name. -/
structure ModuleCall where
  path : String
  name : String
  deriving Repr, DecidableEq

/-- A hop as text. -/
def ModuleCall.render (call : ModuleCall) : String := call.path ++ "#" ++ call.name

/-- **The identity of a file instance.** -/
structure DefinitionKey where
  filePath : String
  modules : List ModuleCall
  deriving Repr, DecidableEq

/-- A key as text: the path, and the chain of calls in brackets if there is one. -/
def DefinitionKey.render (key : DefinitionKey) : String :=
  if key.modules = [] then key.filePath
  else key.filePath ++ "[" ++ "/".intercalate (key.modules.map ModuleCall.render) ++ "]"

/-- **The key under which a store holds contexts.** -/
inductive StoreKey where
  | file (path : String)
  | definition (key : DefinitionKey)
  deriving Repr, DecidableEq

namespace StoreKey

/-- The path of the file concerned. -/
def filePath : StoreKey → String
  | .file path => path
  | .definition key => key.filePath

/-- The key as text. -/
def render : StoreKey → String
  | .file path => path
  | .definition key => key.render

end StoreKey

/-- Whether instances of one file share a slot or are kept apart. -/
inductive KeyMode where
  | filePath
  | qualified
  deriving Repr, DecidableEq

namespace KeyMode

/-- Instances are kept apart when the flag is set. -/
def ofFlag (apart : Bool) : KeyMode := if apart then .qualified else .filePath

/-- The store key of a file instance. -/
def storeKey : KeyMode → DefinitionKey → StoreKey
  | .filePath, key => .file key.filePath
  | .qualified, key => .definition key

end KeyMode

@[simp] theorem KeyMode.filePath_storeKey (mode : KeyMode) (key : DefinitionKey) :
    (mode.storeKey key).filePath = key.filePath := by
  cases mode <;> rfl

end InfraScan
