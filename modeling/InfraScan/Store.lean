import InfraScan.Block.Entry
import InfraScan.Definition.Key
import InfraScan.OrderedMap

/-!
# The context store

The contexts of every enriched file: key, then category, then block id, each level in
insertion order.  A scan owns its store; workers fill stores of their own, which are merged
afterwards.

* `ContextStore` — the store
* `ContextStore.setCategory`, `ContextStore.removeCategory` — the two ways in which a scan
  changes it
* `ContextStore.merge` — the categories of one store written over another
* `ContextStore.entry?`, `ContextStore.skippedChecks` — what is known about one block
-/

namespace InfraScan

/-- The contexts of one category, by block id. -/
abbrev CategoryContexts := OrderedMap String BlockEntry

/-- The categories of one key. -/
abbrev FileContexts := OrderedMap String CategoryContexts

/-- **The contexts of every enriched file.** -/
structure ContextStore where
  entries : OrderedMap StoreKey FileContexts
  deriving DecidableEq

namespace ContextStore

/-- The store of a scan that has not begun. -/
def empty : ContextStore := ⟨∅⟩

instance : Inhabited ContextStore := ⟨empty⟩

/-- The keys, in the order of their first category. -/
def keys (store : ContextStore) : List StoreKey := store.entries.keys

/-- The number of keys. -/
def size (store : ContextStore) : Nat := store.entries.size

/-- The store holds nothing. -/
def isEmpty (store : ContextStore) : Bool := store.entries.isEmpty

/-- The categories of a key. -/
def get? (store : ContextStore) (key : StoreKey) : Option FileContexts :=
  store.entries.get? key

/-- The contexts of one category of a key. -/
def category? (store : ContextStore) (key : StoreKey) (category : String) :
    Option CategoryContexts :=
  (store.get? key).bind (·.get? category)

/-- The context of one block. -/
def entry? (store : ContextStore) (key : StoreKey) (category id : String) :
    Option BlockEntry :=
  (store.category? key category).bind (·.get? id)

/-- The checks taken off in one block; none when the block is unknown. -/
def skippedChecks (store : ContextStore) (key : StoreKey) (category id : String) :
    List SkippedCheck :=
  ((store.entry? key category id).map BlockEntry.skippedChecks).getD []

/-- Replace the contexts of one category of a key. -/
def setCategory (store : ContextStore) (key : StoreKey) (category : String)
    (contexts : CategoryContexts) : ContextStore :=
  ⟨store.entries.insert key (((store.get? key).getD ∅).insert category contexts)⟩

/-- Drop one category of a key, and the key with its last category. -/
def removeCategory (store : ContextStore) (key : StoreKey) (category : String) :
    ContextStore :=
  match store.get? key with
  | none => store
  | some categories =>
    let left := categories.erase category
    if left.isEmpty then ⟨store.entries.erase key⟩ else ⟨store.entries.insert key left⟩

/-- Write the categories of one key over those that are there. -/
def overlayKey (store : ContextStore) (key : StoreKey) (categories : FileContexts) :
    ContextStore :=
  ⟨store.entries.insert key (((store.get? key).getD ∅).overlay categories)⟩

/-- **The categories of `upper` written over `lower`.**  Categories are replaced whole. -/
def merge (lower upper : ContextStore) : ContextStore :=
  upper.entries.toList.foldl (fun acc entry => acc.overlayKey entry.1 entry.2) lower

/-- The store as a value, keys as text.  Two keys with the same text both appear. -/
def toJson (store : ContextStore) : Json :=
  .obj (store.entries.toList.map fun entry =>
    (entry.1.render, .obj (entry.2.toList.map fun category =>
      (category.1, .obj (category.2.toList.map fun block => (block.1, block.2.toJson))))))

end ContextStore

end InfraScan
