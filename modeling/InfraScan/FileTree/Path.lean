/-!
# Paths

Paths are texts whose components are separated by slashes.  They are kept as they were
written: a path is only taken apart where a directory is looked for.

* `isAbsolute` — the path starts at the root
* `join` — a path seen from a directory
* `parent?` — the directory part of a path
* `Component`, `components` — the steps of a path
* `precedes` — the order in which paths are listed: step by step
-/

namespace InfraScan.Path

/-- The path starts at the root. -/
def isAbsolute (path : String) : Bool := path.toList.head? = some '/'

/-- A path seen from a directory.  An absolute path stays as it is; otherwise a slash goes
between the two unless the directory is empty or already ends in one. -/
def join (base path : String) : String :=
  if isAbsolute path then path
  else
    match base.toList.getLast? with
    | none => path
    | some '/' => base ++ path
    | some _ => base ++ "/" ++ path

@[simp] theorem join_absolute {base path : String} (h : isAbsolute path = true) :
    join base path = path := by simp [join, h]

/-! ### Components -/

/-- One step of a path.  A dot only counts at the front of a relative path. -/
inductive Component where
  | root
  | here
  | up
  | name (text : List Char)
  deriving Repr, DecidableEq

/-- The pieces of a text between its slashes. -/
def pieces : List Char → List (List Char)
  | [] => [[]]
  | c :: rest =>
    if c = '/' then [] :: pieces rest
    else
      match pieces rest with
      | [] => [[c]]
      | piece :: more => (c :: piece) :: more

/-- The step that a piece stands for; empty pieces and dots stand for none. -/
def Component.ofPiece? (piece : List Char) : Option Component :=
  if piece = [] || piece = ['.'] then none
  else if piece = ['.', '.'] then some .up
  else some (.name piece)

/-- **The components of a path.** -/
def components (path : String) : List Component :=
  let parts := pieces path.toList
  let lead :=
    if isAbsolute path then [.root]
    else if parts.head? = some ['.'] then [.here]
    else []
  lead ++ parts.filterMap Component.ofPiece?

/-- The place of a kind of step among the kinds. -/
def Component.rank : Component → Nat
  | .root => 0
  | .here => 1
  | .up => 2
  | .name _ => 3

/-- The characters of a name. -/
def Component.text : Component → List Char
  | .name text => text
  | _ => []

/-- A step comes before another: by kind, and names by their characters. -/
def Component.before (a b : Component) : Bool :=
  a.rank < b.rank || (a.rank = b.rank && a.text < b.text)

/-- A list of steps comes before another or is the same. -/
def stepsPrecede : List Component → List Component → Bool
  | [], _ => true
  | _ :: _, [] => false
  | a :: as, b :: bs => a.before b || (a = b && stepsPrecede as bs)

/-- **The order of paths**: a path comes before another, or both have the same steps. -/
def precedes (a b : String) : Bool := stepsPrecede (components a) (components b)

/-! ### Directories -/

/-- The text without trailing slashes and trailing dot components; `keep` characters at the
front are never removed. -/
def trimBack (keep : Nat) (fuel : Nat) (path : List Char) : List Char :=
  match fuel with
  | 0 => path
  | fuel + 1 =>
    if path.length ≤ keep then path
    else
      let last := (path.drop keep).reverse.takeWhile (· ≠ '/')
      if last = [] then trimBack keep fuel path.dropLast
      else if last = ['.'] && last.length < path.length - keep then
        trimBack keep fuel (path.dropLast)
      else path

/-- **The directory part of a path**: the path without its last component, and without the
slashes and dots before it.  A path without a component has none. -/
def parent? (path : String) : Option String :=
  let text := path.toList
  let lead : Nat :=
    if isAbsolute path then 1
    else if (pieces text).head? = some ['.'] then 1
    else 0
  let body := trimBack lead text.length text
  if body = [] || (body.length ≤ lead && isAbsolute path) then none
  else if body.length ≤ lead then some ""
  else
    let name := (body.drop lead).reverse.takeWhile (· ≠ '/')
    let front := body.take (body.length - name.length)
    some (String.ofList (trimBack lead front.length front))

example :
    ["a/b/x.json", "x.json", "./x.json", "/x.json", "a//x.json", "a/./x.json", "..", "/",
    "", ".", "d/../x.json", "x/"].map parent? =
  [some "a/b", some "", some ".", some "/", some "a", some "a", some "", none, none, some "",
    some "d/..", some ""] := by decide +kernel

example : [join "" "m.tf", join "a" "m.tf", join "a/" "m.tf", join "a" "/m.tf", join "a" ""] =
    ["m.tf", "a/m.tf", "a/m.tf", "/m.tf", "a/"] := by decide +kernel

end InfraScan.Path
