import InfraScan.OrderedMap

/-!
# JSON values

Definition dumps, resource bodies and attribute maps are all JSON values.  The order of an
object's members is part of the value, because it decides the order in which blocks and images
are reported.

* `Json.Number` — an integer or a double; line markers can only be integers
* `Json` — a value; an object is a list of members in text order
* `Json.str?`, `Json.nat?`, `Json.items?`, `Json.fields?`, `Json.get?` — the views of a value
* `Json.canonical` — repeated members collapsed, at every depth
-/

namespace InfraScan

/-- A JSON number: an integer literal that fits 64 bits, signed or unsigned, or a double. -/
inductive Json.Number where
  | int (n : Int)
  | float (x : Float)
  deriving Repr, Inhabited

/-- **A JSON value.** -/
inductive Json where
  | null
  | bool (b : Bool)
  | num (n : Json.Number)
  | str (s : String)
  | arr (items : List Json)
  | obj (fields : List (String × Json))
  deriving Repr, Inhabited

namespace Json

/-- The object whose members are the entries of a map. -/
def ofMap (map : OrderedMap String Json) : Json := .obj map.toList

/-- A natural number as a value. -/
def ofNat (n : Nat) : Json := .num (.int n)

/-- The value is `null`. -/
def isNull : Json → Bool
  | .null => true
  | _ => false

/-- The text of a string. -/
def str? : Json → Option String
  | .str s => some s
  | _ => none

/-- The integer that fits 64 bits without a sign; a double is never one, whatever its
value. -/
def nat? : Json → Option Nat
  | .num (.int (.ofNat n)) => if n < UInt64.size then some n else none
  | _ => none

/-- The items of an array. -/
def items? : Json → Option (List Json)
  | .arr items => some items
  | _ => none

/-- The members of an object. -/
def fields? : Json → Option (List (String × Json))
  | .obj fields => some fields
  | _ => none

/-- The member of an object under a name. -/
def get? (value : Json) (name : String) : Option Json :=
  value.fields?.bind (OrderedMap.look name)

@[simp] theorem str?_str (s : String) : (Json.str s).str? = some s := rfl

@[simp] theorem fields?_obj (fields : List (String × Json)) :
    (Json.obj fields).fields? = some fields := rfl

@[simp] theorem items?_arr (items : List Json) : (Json.arr items).items? = some items := rfl

@[simp] theorem get?_obj (fields : List (String × Json)) (name : String) :
    (Json.obj fields).get? name = OrderedMap.look name fields := rfl

@[simp] theorem isNull_iff {value : Json} : value.isNull = true ↔ value = .null := by
  cases value <;> simp [isNull]

/-- A natural number that fits 64 bits is read back. -/
theorem nat?_ofNat {n : Nat} (h : n < UInt64.size) : (ofNat n).nat? = some n := by
  change (if n < UInt64.size then some n else none) = some n
  simp only [h, if_true]

/-! ### Repeated members -/

mutual

/-- Collapse repeated members at every depth: the first position and the last value stay. -/
def canonical : Json → Json
  | .arr items => .arr (canonicalItems items)
  | .obj fields => .obj (OrderedMap.ofList (canonicalFields fields)).toList
  | value => value

/-- `canonical` on every item of an array. -/
def canonicalItems : List Json → List Json
  | [] => []
  | item :: rest => canonical item :: canonicalItems rest

/-- `canonical` on every member of an object. -/
def canonicalFields : List (String × Json) → List (String × Json)
  | [] => []
  | (name, value) :: rest => (name, canonical value) :: canonicalFields rest

end

end Json

end InfraScan
