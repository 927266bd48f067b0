import InfraScan.Yaml.Node

/-!
# Anchors

An anchor gives a node a number, and an alias stands for the last node of the document that
has the number its name had where the alias stands.  Numbers are counted by the distinct names
seen before, so two anchors can come to the same number when a name is given twice.

* `Node.numbered?` — the document with numbers in place of names
* `Node.anchored` — the nodes with an anchor, in the order in which they begin
* `Node.owner?` — the node that a number stands for
* `Node.size` — the number of marks that it takes to spell a node
-/

namespace InfraScan.Yaml.Node

/-- The numbers that names stand for at some point of a document. -/
abbrev Names := OrderedMap (List Char) Nat

/-- Give an anchor its number: the number of distinct names before. -/
def declare (names : Names) : Option (List Char) → Option Nat × Names
  | none => (none, names)
  | some name => (some names.size, names.insert name names.size)

mutual

/-- **The node with numbers in place of names**, and the names after it.  An alias whose name
is not declared before it has none. -/
def numbered? (names : Names) : Node (List Char) → Option (Node Nat × Names)
  | .alias name => (names.get? name).map fun number => (.alias number, names)
  | .scalar anchor tag isPlain text =>
    let (number, names) := declare names anchor
    some (.scalar number tag isPlain text, names)
  | .seq anchor tag items =>
    let (number, names) := declare names anchor
    (numberedItems? names items).map fun (items, names) => (.seq number tag items, names)
  | .map anchor tag pairs =>
    let (number, names) := declare names anchor
    (numberedPairs? names pairs).map fun (pairs, names) => (.map number tag pairs, names)

/-- `numbered?` on the items of a sequence, in order. -/
def numberedItems? (names : Names) :
    List (Node (List Char)) → Option (List (Node Nat) × Names)
  | [] => some ([], names)
  | item :: rest =>
    match numbered? names item with
    | none => none
    | some (item, names) =>
      (numberedItems? names rest).map fun (items, names) => (item :: items, names)

/-- `numbered?` on the fields of a mapping, each key before its value. -/
def numberedPairs? (names : Names) :
    List (Node (List Char) × Node (List Char)) → Option (List (Node Nat × Node Nat) × Names)
  | [] => some ([], names)
  | (key, value) :: rest =>
    match numbered? names key with
    | none => none
    | some (key, names) =>
      match numbered? names value with
      | none => none
      | some (value, names) =>
        (numberedPairs? names rest).map fun (pairs, names) => ((key, value) :: pairs, names)

end

mutual

/-- **The nodes with an anchor**, in the order in which they begin. -/
def anchored : Node Nat → List (Nat × Node Nat)
  | .alias _ => []
  | .scalar anchor tag isPlain text =>
    (anchor.map fun number => (number, .scalar anchor tag isPlain text)).toList
  | .seq anchor tag items =>
    (anchor.map fun number => (number, .seq anchor tag items)).toList ++ anchoredItems items
  | .map anchor tag pairs =>
    (anchor.map fun number => (number, .map anchor tag pairs)).toList ++ anchoredPairs pairs

/-- `anchored` on the items of a sequence. -/
def anchoredItems : List (Node Nat) → List (Nat × Node Nat)
  | [] => []
  | item :: rest => anchored item ++ anchoredItems rest

/-- `anchored` on the fields of a mapping. -/
def anchoredPairs : List (Node Nat × Node Nat) → List (Nat × Node Nat)
  | [] => []
  | (key, value) :: rest => anchored key ++ anchored value ++ anchoredPairs rest

end

/-- **The node that a number stands for**: the last one that has it. -/
def owner? (table : List (Nat × Node Nat)) (number : Nat) : Option (Node Nat) :=
  OrderedMap.look number table.reverse

mutual

/-- The number of marks that it takes to spell a node: one for a scalar or an alias, two for
the ends of a collection. -/
def size : Node α → Nat
  | .alias _ => 1
  | .scalar .. => 1
  | .seq _ _ items => 2 + sizeItems items
  | .map _ _ pairs => 2 + sizePairs pairs

/-- `size` summed over the items of a sequence. -/
def sizeItems : List (Node α) → Nat
  | [] => 0
  | item :: rest => size item + sizeItems rest

/-- `size` summed over the fields of a mapping. -/
def sizePairs : List (Node α × Node α) → Nat
  | [] => 0
  | (key, value) :: rest => size key + size value + sizePairs rest

end

end InfraScan.Yaml.Node
