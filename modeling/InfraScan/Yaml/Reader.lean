import InfraScan.Json.Printer
import InfraScan.Yaml.Anchor
import InfraScan.Yaml.Scalar

/-!
# Reading YAML

The value of a text that holds one document.  A tag of the document's own makes an object of
one member, named by the tag; the standard tags say how the text of a scalar is read.  Keys
have to be scalars with a text, and no mapping may hold a key twice.

* `scalar?` — the value of a scalar with its tag
* `keyText?` — the text of a key
* `Aliases` — the anchored nodes, and how many aliases may still be followed
* `value?` — the value of a node
* `read?` — the value of a text
-/

namespace InfraScan.Yaml

/-! ### Scalars and tags -/

/-- A tag of the document's own begins with an exclamation mark. -/
def isLocal (tag : Option (List Char)) : Bool := (tag.bind List.head?) = some '!'

/-- The member that a tag of the document's own makes.  One exclamation mark stands before the
name of the tag; the tag that is nothing else counts as a name. -/
def memberName (tag : List Char) : String :=
  let strip (name : List Char) : List Char := if name = ['!'] then name else
    match name with
    | '!' :: rest => rest
    | name => name
  String.ofList ('!' :: strip (strip tag))

/-- A value with a tag. -/
def tagged (tag : Option (List Char)) (value : Json) : Json :=
  match tag with
  | some tag => if isLocal (some tag) then .obj [(memberName tag, value)] else value
  | none => value

/-- The standard tag with a short name. -/
def standardTag (name : String) : List Char := ("tag:yaml.org,2002:" ++ name).toList

/-- **The value of a scalar with its tag.** -/
def scalar? (tag : Option (List Char)) (isPlain : Bool) (text : List Char) : Option Json :=
  let asText : Json := .str (String.ofList text)
  let untagged : Option Json := if isPlain then Scalar.plain? text else some asText
  match tag with
  | none => untagged
  | some tag =>
    if isLocal (some tag) then untagged.map (tagged (some tag))
    else if tag = standardTag "bool" then (Scalar.flag? text).map .bool
    else if tag = standardTag "int" then (Scalar.integer? text).bind Scalar.ofInteger?
    else if tag = standardTag "float" then Scalar.double? text
    else if tag = standardTag "null" then if Scalar.isNullWord text then some .null else none
    else some asText

/-! ### Keys -/

/-- The text of a key: a text, an integer, a truth value or a double. -/
def keyText? : Json → Option String
  | .str s => some s
  | .num n => some n.text
  | .bool b => some (if b then "true" else "false")
  | _ => none

/-- Two keys are the same key.  An integer is never the same as a double. -/
def sameKey : Json → Json → Bool
  | .str a, .str b => a = b
  | .bool a, .bool b => a = b
  | .num (.int a), .num (.int b) => a = b
  | .num (.float a), .num (.float b) => a == b
  | _, _ => false

/-- Some key of a list is the same as a later one. -/
def repeatsKey : List Json → Bool
  | [] => false
  | key :: rest => rest.any (sameKey key) || repeatsKey rest

/-- The object of keys and values.  Different keys with one text are one member. -/
def object? (pairs : List (Json × Json)) : Option Json := do
  if repeatsKey (pairs.map Prod.fst) then none
  let members ← pairs.mapM fun pair => (keyText? pair.1).map (·, pair.2)
  some (.ofMap (OrderedMap.ofList members))

/-! ### Nodes -/

/-- A computation that can fail, and that follows a limited number of aliases. -/
abbrev Aliases := StateT Nat Option

/-- The node itself, or the one that it stands for. -/
def follow (table : List (Nat × Node Nat)) : Node Nat → Aliases (Node Nat)
  | .alias number => fun left =>
    match left with
    | 0 => none
    | left + 1 => (Node.owner? table number).map (·, left)
  | node => pure node

/-- The value of a key, which has to be a scalar. -/
def key? (table : List (Nat × Node Nat)) (node : Node Nat) : Aliases Json := do
  match ← follow table node with
  | .scalar _ tag isPlain text => (scalar? tag isPlain text : Option Json)
  | _ => failure

/-- **The value of a node** inside which collections may nest `depth` levels. -/
def value? (table : List (Nat × Node Nat)) : (depth : Nat) → Node Nat → Aliases Json
  | 0, node => do
    match ← follow table node with
    | .scalar _ tag isPlain text => (scalar? tag isPlain text : Option Json)
    | _ => failure
  | depth + 1, node => do
    match ← follow table node with
    | .scalar _ tag isPlain text => (scalar? tag isPlain text : Option Json)
    | .seq _ tag items =>
      let items ← items.mapM (value? table depth)
      return tagged tag (.arr items)
    | .map _ tag pairs =>
      let pairs ← pairs.mapM fun pair => do
        let key ← key? table pair.1
        let value ← value? table depth pair.2
        return (key, value)
      return tagged tag (← object? pairs)
    | .alias _ => failure

/-! ### Texts -/

/-- How many levels of collections a document may have. -/
def maxDepth : Nat := 128

/-- The value of a document.  A hundred aliases may be followed for every mark of its text. -/
def ofDocument? (root : Node (List Char)) : Option Json := do
  let (root, _) ← Node.numbered? ∅ root
  let (value, _) ← (value? root.anchored maxDepth root).run (100 * root.size)
  some value

/-- The value of a text that holds one document. -/
def ofText? (text : String) : Option Json := do
  let tokens ← Token.ofText? text.toList
  let root ← Document.ofTokens? tokens
  ofDocument? root

/-- What is said of a text that does not hold a document. -/
def notYaml : String := "not a YAML document"

/-- **The value of a text** that holds one document, or what is wrong with it. -/
def read? (text : String) : Except String Json :=
  match ofText? text with
  | none => .error notYaml
  | some value => .ok value

end InfraScan.Yaml
