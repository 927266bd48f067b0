import InfraScan.Yaml.Token

/-!
# YAML nodes

The tree that the tokens of a document spell.  Whatever the text leaves out (a key without a
value, a dash without an entry, a tag without content) is the empty plain scalar, which stands
for null.

* `Node` — a node; what names anchors is a parameter
* `Node.tagOf?` — the tag that a handle and a suffix spell
* `Node.node?` and its companions — the nodes at the front of a list of tokens
* `Document.ofTokens?` — the one document of a list of tokens
-/

namespace InfraScan.Yaml

/-- **A node of a document.**  Anchors are named by values of `α`. -/
inductive Node (α : Type) where
  | scalar (anchor : Option α) (tag : Option (List Char)) (isPlain : Bool) (text : List Char)
  | seq (anchor : Option α) (tag : Option (List Char)) (items : List (Node α))
  | map (anchor : Option α) (tag : Option (List Char)) (pairs : List (Node α × Node α))
  | alias (name : α)

namespace Node

/-- What stands where the text says nothing. -/
def empty : Node α := .scalar none none true []

/-! ### Properties -/

/-- A beginning of tags, under the handle that stands for it. -/
abbrev Handles := List (List Char × List Char)

/-- The handles that every document has. -/
def standardHandles : Handles :=
  [(['!'], ['!']), (['!', '!'], "tag:yaml.org,2002:".toList)]

/-- **The tag that a handle and a suffix spell.**  A tag without a handle stands as it is. -/
def tagOf? (handles : Handles) (text : TagText) : Option (List Char) :=
  if text.handle = [] then some text.suffix
  else (OrderedMap.look text.handle handles).map (· ++ text.suffix)

/-- The anchor and the tag of a node, in either order. -/
structure Properties where
  anchor : Option (List Char)
  tag : Option (List Char)

/-- The properties at the front of a list of tokens. -/
def properties? (handles : Handles) : List Token → Option (Properties × List Token)
  | .anchor name :: .tag text :: rest =>
    (tagOf? handles text).map fun tag => (⟨some name, some tag⟩, rest)
  | .tag text :: .anchor name :: rest =>
    (tagOf? handles text).map fun tag => (⟨some name, some tag⟩, rest)
  | .anchor name :: rest => some (⟨some name, none⟩, rest)
  | .tag text :: rest => (tagOf? handles text).map fun tag => (⟨none, some tag⟩, rest)
  | rest => some (⟨none, none⟩, rest)

/-- A scalar with properties.  The tag of one exclamation mark says nothing about a scalar. -/
def ofScalar (properties : Properties) (isPlain : Bool) (text : List Char) :
    Node (List Char) :=
  .scalar properties.anchor (properties.tag.filter (· ≠ ['!'])) isPlain text

/-- A node without content: its properties make up for it. -/
def ofProperties? (properties : Properties) : Option (Node (List Char)) :=
  if properties.anchor.isNone && properties.tag.isNone then none
  else some (.scalar properties.anchor properties.tag true [])

/-! ### Nodes -/

/-- No node follows in a block mapping. -/
def closesField : List Token → Bool
  | .key :: _ | .value :: _ | .blockEnd :: _ => true
  | _ => false

/-- No node follows in a block sequence. -/
def closesItem : List Token → Bool
  | .blockEntry :: _ | .blockEnd :: _ => true
  | _ => false

/-- No node follows in a flow sequence. -/
def closesFlowItem : List Token → Bool
  | .flowEntry :: _ | .flowSequenceEnd :: _ => true
  | _ => false

/-- No node follows in a flow mapping. -/
def closesFlowField : List Token → Bool
  | .flowEntry :: _ | .flowMappingEnd :: _ => true
  | _ => false

/-- Past the comma between two entries of a flow collection. -/
def afterComma? : List Token → Option (List Token)
  | .flowEntry :: rest => some rest
  | _ => none

mutual

/-- **The node at the front of a list of tokens.**  The entries of a sequence that is a key or
a value may stand without an indentation of their own. -/
def node? (handles : Handles) (fuel : Nat) (asField : Bool) (tokens : List Token) :
    Option (Node (List Char) × List Token) :=
  match fuel, tokens with
  | 0, _ => none
  | _ + 1, .alias name :: rest => some (.alias name, rest)
  | fuel + 1, tokens =>
    match properties? handles tokens with
    | none => none
    | some (found, rest) =>
      match rest with
      | .scalar isPlain text :: rest => some (ofScalar found isPlain text, rest)
      | .flowSequenceStart :: rest =>
        (flowItems? handles fuel true rest).map fun (items, rest) =>
          (.seq found.anchor found.tag items, rest)
      | .flowMappingStart :: rest =>
        (flowFields? handles fuel true rest).map fun (pairs, rest) =>
          (.map found.anchor found.tag pairs, rest)
      | .blockSequenceStart :: rest =>
        (items? handles fuel rest).map fun (items, rest) =>
          (.seq found.anchor found.tag items, rest)
      | .blockMappingStart :: rest =>
        (fields? handles fuel rest).map fun (pairs, rest) =>
          (.map found.anchor found.tag pairs, rest)
      | .blockEntry :: _ =>
        if asField then
          (bareItems? handles fuel rest).map fun (items, rest) =>
            (.seq found.anchor found.tag items, rest)
        else (ofProperties? found).map (·, rest)
      | rest => (ofProperties? found).map (·, rest)

/-- The entries of a block sequence, and its end. -/
def items? (handles : Handles) (fuel : Nat) (tokens : List Token) :
    Option (List (Node (List Char)) × List Token) :=
  match fuel, tokens with
  | _ + 1, .blockEnd :: rest => some ([], rest)
  | fuel + 1, .blockEntry :: rest => do
    let (item, rest) ←
      if closesItem rest then some (empty, rest) else node? handles fuel false rest
    let (items, rest) ← items? handles fuel rest
    some (item :: items, rest)
  | _, _ => none

/-- The entries of a block sequence without an indentation of its own. -/
def bareItems? (handles : Handles) (fuel : Nat) (tokens : List Token) :
    Option (List (Node (List Char)) × List Token) :=
  match fuel, tokens with
  | 0, _ => none
  | fuel + 1, .blockEntry :: rest => do
    let (item, rest) ←
      if closesItem rest || closesField rest then some (empty, rest)
      else node? handles fuel false rest
    let (items, rest) ← bareItems? handles fuel rest
    some (item :: items, rest)
  | _ + 1, rest => some ([], rest)

/-- The fields of a block mapping, and its end. -/
def fields? (handles : Handles) (fuel : Nat) (tokens : List Token) :
    Option (List (Node (List Char) × Node (List Char)) × List Token) :=
  match fuel, tokens with
  | _ + 1, .blockEnd :: rest => some ([], rest)
  | fuel + 1, .key :: rest => do
    let (key, rest) ←
      if closesField rest then some (empty, rest) else node? handles fuel true rest
    let (value, rest) ←
      match rest with
      | .value :: rest =>
        if closesField rest then some (empty, rest) else node? handles fuel true rest
      | rest => some (empty, rest)
    let (pairs, rest) ← fields? handles fuel rest
    some ((key, value) :: pairs, rest)
  | _, _ => none

/-- The entries of a flow sequence, and its end.  A key makes a mapping of one field; it must
not be empty. -/
def flowItems? (handles : Handles) (fuel : Nat) (first : Bool) (tokens : List Token) :
    Option (List (Node (List Char)) × List Token) :=
  match fuel, tokens with
  | 0, _ => none
  | _ + 1, .flowSequenceEnd :: rest => some ([], rest)
  | fuel + 1, tokens => do
    let tokens ← if first then some tokens else afterComma? tokens
    match tokens with
    | .flowSequenceEnd :: rest => some ([], rest)
    | .key :: rest =>
      let (key, rest) ← node? handles fuel false rest
      let (value, rest) ←
        match rest with
        | .value :: rest =>
          if closesFlowItem rest then some (empty, rest) else node? handles fuel false rest
        | rest => some (empty, rest)
      let (items, rest) ← flowItems? handles fuel false rest
      some (.map none none [(key, value)] :: items, rest)
    | tokens =>
      let (item, rest) ← node? handles fuel false tokens
      let (items, rest) ← flowItems? handles fuel false rest
      some (item :: items, rest)

/-- The fields of a flow mapping, and its end. -/
def flowFields? (handles : Handles) (fuel : Nat) (first : Bool) (tokens : List Token) :
    Option (List (Node (List Char) × Node (List Char)) × List Token) :=
  match fuel, tokens with
  | 0, _ => none
  | _ + 1, .flowMappingEnd :: rest => some ([], rest)
  | fuel + 1, tokens => do
    let tokens ← if first then some tokens else afterComma? tokens
    match tokens with
    | .flowMappingEnd :: rest => some ([], rest)
    | .key :: rest =>
      let (key, rest) ←
        match rest with
        | .value :: _ => some (empty, rest)
        | rest =>
          if closesFlowField rest then some (empty, rest) else node? handles fuel false rest
      let (value, rest) ←
        match rest with
        | .value :: rest =>
          if closesFlowField rest then some (empty, rest) else node? handles fuel false rest
        | rest => some (empty, rest)
      let (pairs, rest) ← flowFields? handles fuel false rest
      some ((key, value) :: pairs, rest)
    | tokens =>
      let (key, rest) ← node? handles fuel false tokens
      let (pairs, rest) ← flowFields? handles fuel false rest
      some ((key, empty) :: pairs, rest)

end

end Node

/-! ### Documents -/

namespace Document

/-- A token that begins or ends a document. -/
def isBoundary : Token → Bool
  | .version .. | .tagDirective .. | .documentStart | .documentEnd => true
  | _ => false

/-- The handles that the directives before a document declare, and the tokens after its start.
A version is stated once at most, and so is every handle. -/
def prologue? (versioned : Bool) (handles : Node.Handles) :
    List Token → Option (Node.Handles × List Token)
  | .version major minor :: rest =>
    if versioned || major ≠ 1 || (minor ≠ 1 && minor ≠ 2) then none
    else prologue? true handles rest
  | .tagDirective handle lead :: rest =>
    if (OrderedMap.look handle handles).isSome then none
    else prologue? versioned (handles ++ [(handle, lead)]) rest
  | .documentStart :: rest => some (handles, rest)
  | _ => none

/-- The root of a document that begins here, and the tokens after it. -/
def root? (tokens : List Token) : Option (Node (List Char) × List Token) :=
  let fuel := 4 * (tokens.length + 1)
  match tokens with
  | .version .. :: _ | .tagDirective .. :: _ | .documentStart :: _ =>
    match prologue? false [] tokens with
    | none => none
    | some (handles, rest) =>
      if rest.head?.all isBoundary then some (.empty, rest)
      else Node.node? (handles ++ Node.standardHandles) fuel false rest
  | [] => some (.empty, [])
  | tokens => Node.node? Node.standardHandles fuel false tokens

/-- **The one document of a list of tokens.**  Nothing but document ends may follow it. -/
def ofTokens? (tokens : List Token) : Option (Node (List Char)) :=
  match root? tokens with
  | none => none
  | some (root, rest) => if rest.all (· = .documentEnd) then some root else none

end Document

end InfraScan.Yaml
