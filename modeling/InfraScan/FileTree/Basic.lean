import InfraScan.Fault
import InfraScan.FileTree.Path
import InfraScan.OrderedMap

/-!
# Trees of files

Files and folders as one value, so that everything read from a disk is a function of it.
Relative paths are followed from a working folder.

* `FileTree` — a file with its text, or a folder of named trees
* `FileTree.put` — a tree put in at the end of a list of names
* `FileTree.descendants` — everything below a tree, with the names on the way
* `Disk` — a tree with a working folder
* `Disk.find` — what stands at a path
* `Disk.readText`, `Disk.isFile`, `Disk.isFolder` — the questions asked about a path
-/

namespace InfraScan

/-- **A file or a folder.**  A file whose bytes are no UTF-8 text has no text. -/
inductive FileTree where
  | file (text : Option String)
  | folder (entries : List (String × FileTree))
  deriving Repr

namespace FileTree

/-- The folder without entries. -/
def empty : FileTree := .folder []

instance : Inhabited FileTree := ⟨empty⟩

/-- The tree is a folder. -/
def isFolder : FileTree → Bool
  | .folder _ => true
  | .file _ => false

/-- The entries of a folder; a file has none. -/
def entries : FileTree → List (String × FileTree)
  | .folder entries => entries
  | .file _ => []

/-- The entry of a folder under a name. -/
def child? (tree : FileTree) (name : String) : Option FileTree :=
  OrderedMap.look name tree.entries

/-- Put a tree in at the end of a list of names.  Folders on the way are made as needed. -/
def put (tree : FileTree) (names : List String) (value : FileTree) : FileTree :=
  match names with
  | [] => value
  | name :: rest =>
    .folder (OrderedMap.put name
      (put ((tree.child? name).getD empty) rest value) tree.entries)

mutual

/-- **Everything below a tree**: the names on the way to it, and the tree found there. -/
def descendants : FileTree → List (List String × FileTree)
  | .file _ => []
  | .folder entries => descendantsOf entries

/-- The entries of a folder and everything below them. -/
def descendantsOf : List (String × FileTree) → List (List String × FileTree)
  | [] => []
  | (name, tree) :: rest =>
    ([name], tree) :: (descendants tree).map (fun found => (name :: found.1, found.2)) ++
      descendantsOf rest

end

end FileTree

/-- **A tree with a working folder**, given by the names on the way to it. -/
structure Disk where
  root : FileTree
  here : List String

namespace Disk

/-- One step from a place, which is the tree reached so far with the trees above it, the
nearest first.  Only a folder has steps, and the root is above itself. -/
def step (place : FileTree × List FileTree) (piece : List Char) :
    Except ReadFault (FileTree × List FileTree) :=
  if !place.1.isFolder then .error .notADirectory
  else if piece = [] || piece = ['.'] then .ok place
  else if piece = ['.', '.'] then
    match place.2 with
    | [] => .ok place
    | above :: rest => .ok (above, rest)
  else
    match place.1.child? (String.ofList piece) with
    | none => .error .notFound
    | some tree => .ok (tree, place.1 :: place.2)

/-- The place at the end of a path. -/
def walk (disk : Disk) (path : String) : Except ReadFault (FileTree × List FileTree) :=
  let pieces := Path.pieces path.toList
  if path.isEmpty then .error .notFound
  else if Path.isAbsolute path then pieces.foldlM step (disk.root, [])
  else (disk.here.map String.toList ++ pieces).foldlM step (disk.root, [])

/-- **What stands at a path.** -/
def find (disk : Disk) (path : String) : Except ReadFault FileTree :=
  (disk.walk path).map Prod.fst

/-- **The text of the file at a path.** -/
def readText (disk : Disk) : TextReader := fun path =>
  match disk.find path with
  | .error cause => .error cause
  | .ok (.folder _) => .error .isDirectory
  | .ok (.file none) => .error .notText
  | .ok (.file (some text)) => .ok text

/-- Something stands at a path. -/
def has (disk : Disk) (path : String) : Bool :=
  match disk.find path with
  | .ok _ => true
  | .error _ => false

/-- A file stands at a path. -/
def isFile (disk : Disk) (path : String) : Bool :=
  match disk.find path with
  | .ok tree => !tree.isFolder
  | .error _ => false

/-- A folder stands at a path. -/
def isFolder (disk : Disk) (path : String) : Bool :=
  match disk.find path with
  | .ok tree => tree.isFolder
  | .error _ => false

/-- The names on the way to a path, from the root. -/
def namesTo (disk : Disk) (path : String) : List String :=
  let start := if Path.isAbsolute path then [] else disk.here
  (Path.pieces path.toList).foldl (fun names piece =>
    if piece = [] || piece = ['.'] then names
    else if piece = ['.', '.'] then names.dropLast
    else names ++ [String.ofList piece]) start

/-- Put a tree in at a path. -/
def put (disk : Disk) (path : String) (tree : FileTree) : Disk :=
  { disk with root := disk.root.put (disk.namesTo path) tree }

end Disk

end InfraScan
