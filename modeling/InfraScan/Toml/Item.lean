import InfraScan.OrderedMap

/-!
# TOML items

The values of a TOML document, and the rules by which statements build its tables.  A table
remembers how it came to be, because that decides which later statement may add to it.

* `Item` — a value, a table, or an array of tables
* `Origin` — how a table came to be
* `Item.descend?` — a change to the table at the end of a path
* `Item.setAt?` — a value put in under a dotted key
* `Builder` — the document so far, with the table whose lines are being read
* `Builder.run?` — the document of a list of statements
-/

namespace InfraScan.Toml

/-- How a table came to be: written in braces or under a header of its own, passed by a header
of a table inside it, or passed by a dotted key. -/
inductive Origin where
  | stated
  | passed
  | dotted
  deriving Repr, DecidableEq

/-- **A value, a table, or an array of tables.**  A table in braces is `inline` and takes
nothing in afterwards. -/
inductive Item where
  | text (s : String)
  | flag (b : Bool)
  | integer (n : Int)
  | double (x : Float)
  | moment (text : List Char)
  | array (items : List Item)
  | inline (fields : List (String × Item))
  | table (origin : Origin) (fields : List (String × Item))
  | tables (items : List Item)
  deriving Repr

namespace Item

/-- The table without fields. -/
def bare (origin : Origin) : Item := .table origin []

/-- The fields of a table of any form. -/
def fields : Item → List (String × Item)
  | .table _ fields => fields
  | .inline fields => fields
  | _ => []

/-- The field of a table under a key. -/
def get? (item : Item) (key : String) : Option Item := OrderedMap.look key item.fields

/-- The table came to be by a dotted key. -/
def isDotted : Item → Bool
  | .table .dotted _ => true
  | _ => false

/-- The table with one field written. -/
def set (item : Item) (key : String) (value : Item) : Item :=
  match item with
  | .table origin fields => .table origin (OrderedMap.put key value fields)
  | item => item

/-- The table without one field. -/
def unset (item : Item) (key : String) : Item :=
  match item with
  | .table origin fields => .table origin (OrderedMap.drop key fields)
  | item => item

/-- **A change to the table at the end of a path.**  Tables that are missing on the way are
made; an array of tables stands for its last table.  A dotted key passes no table that was
stated. -/
def descend? (byDots : Bool) (change : Item → Option Item) :
    (path : List String) → (item : Item) → Option Item
  | [], item => change item
  | key :: rest, item =>
    let write (field : Item) : Item := item.set key field
    match item.get? key with
    | none =>
      (descend? byDots change rest (bare (if byDots then .dotted else .passed))).map write
    | some (.table origin fields) =>
      if byDots && origin = .stated then none
      else (descend? byDots change rest (.table origin fields)).map write
    | some (.tables items) =>
      match items.getLast? with
      | none => none
      | some last =>
        (descend? byDots change rest last).map fun last =>
          write (.tables (items.dropLast ++ [last]))
    | some _ => none

/-- **A value put in under a dotted key**, given by its path and its last part.  The table at
the end of a path has to be one that dotted keys made, and the key must be new. -/
def setAt? (item : Item) (path : List String) (key : String) (value : Item) : Option Item :=
  descend? true (fun target =>
    if target.isDotted = path.isEmpty || (target.get? key).isSome then none
    else some (target.set key value)) path item

end Item

/-! ### Documents -/

/-- A statement of a document. -/
inductive Statement where
  | header (path : List String) (key : String)
  | arrayHeader (path : List String) (key : String)
  | field (path : List String) (key : String) (value : Item)

/-- Where the table whose lines are being read will stand. -/
inductive Place where
  | root
  | at (path : List String) (key : String)
  | inArray (path : List String) (key : String)

/-- **The document so far**, with the table whose lines are being read. -/
structure Builder where
  root : Item
  current : Item
  place : Place

namespace Builder

/-- Before the first statement. -/
def start : Builder := ⟨.bare .stated, .bare .stated, .root⟩

/-- The document with the current table put in its place. -/
def finish? (builder : Builder) : Option Item :=
  match builder.place with
  | .root => some builder.current
  | .at path key =>
    Item.descend? false (fun parent =>
      if (parent.get? key).isSome then none else some (parent.set key builder.current)) path
      builder.root
  | .inArray path key =>
    Item.descend? false (fun parent =>
      match parent.get? key with
      | none => some (parent.set key (.tables [builder.current]))
      | some (.tables items) => some (parent.set key (.tables (items ++ [builder.current])))
      | some _ => none) path builder.root

/-- The table that a header goes on with: a new one, or one that only headers inside it have
passed. -/
def resumed? (parent : Item) (key : String) : Option Item :=
  match parent.get? key with
  | none => some (.bare .stated)
  | some (.table .passed fields) => some (.table .stated fields)
  | some _ => none

/-- The table at the end of a path, as a header finds it. -/
def parentAt? (path : List String) (root : Item) : Option Item :=
  match path with
  | [] => some root
  | key :: rest =>
    match root.get? key with
    | none => some (.bare .passed)
    | some (.table origin fields) => parentAt? rest (.table origin fields)
    | some (.tables items) => items.getLast?.bind (parentAt? rest)
    | some _ => none

/-- One statement more. -/
def step? (builder : Builder) : Statement → Option Builder
  | .field path key value =>
    (builder.current.setAt? path key value).map fun current => { builder with current }
  | .header path key => do
    let root ← builder.finish?
    let current ← resumed? (← parentAt? path root) key
    let root ← Item.descend? false (fun parent => some (parent.unset key)) path root
    some ⟨root, current, .at path key⟩
  | .arrayHeader path key => do
    let root ← builder.finish?
    let parent ← parentAt? path root
    match parent.get? key with
    | none | some (.tables _) => some ⟨root, .bare .stated, .inArray path key⟩
    | some _ => none

/-- **The document of a list of statements.** -/
def run? (statements : List Statement) : Option Item := do
  (← statements.foldlM step? start).finish?

end Builder

end InfraScan.Toml
