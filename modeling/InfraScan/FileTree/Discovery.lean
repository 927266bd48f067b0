import InfraScan.FileTree.Basic
import InfraScan.FileTree.Pattern

/-!
# Finding manifest files

The manifest files of a folder are found by patterns that begin with the folder's own path:
all files below it whose names end in one of two extensions, in the order of their paths.

* `Disk.search` — the paths that a list of patterns stands for, step by step
* `Disk.glob` — the paths that a pattern of several steps stands for
* `Disk.manifestFiles` — the manifest files at a path
-/

namespace InfraScan

/-- Why no files can be looked for. -/
inductive DiscoveryFault where
  | missing (path : String)
  | badPattern (fault : PatternFault)
  deriving Repr, DecidableEq

namespace Disk

/-- The path is the working folder itself. -/
def isHere (path : String) : Bool := Path.components path = [.here]

/-- A name below a path.  Nothing stands before a name in the working folder. -/
def below (path name : String) : String := if isHere path then name else Path.join path name

/-- Adjacent patterns that stand for any number of folders are one. -/
def mergeFolders : List NamePattern → List NamePattern
  | a :: b :: rest =>
    if a.isRecursive && b.isRecursive then mergeFolders (b :: rest)
    else a :: mergeFolders (b :: rest)
  | patterns => patterns

/-- The two names that every folder has for itself and for the one above it.  A pattern stands
for them only when it begins with a point. -/
def specialNames (pattern : NamePattern) : List String :=
  if pattern.head? = some (.char '.') then
    [".", ".."].filter fun name => pattern.fits name.toList
  else []

/-- **The paths that a list of patterns stands for**, from a tree that stands at a path.  A
pattern that is a plain name is looked up and not compared; after any number of folders every
pattern is compared with names. -/
def search (disk : Disk) : List NamePattern → (path : String) → FileTree → List String
  | [], path, _ => [path]
  | pattern :: rest, path, tree =>
    match pattern.literal? with
    | some name =>
      let next := below path (String.ofList name)
      match disk.find next with
      | .ok found => search disk rest next found
      | .error _ => []
    | none =>
      if pattern.isRecursive then
        match rest with
        | [] =>
          (tree.descendants.filter fun found => found.2.isFolder).map fun found =>
            below path ("/".intercalate found.1)
        | pattern :: rest =>
          tree.descendants.flatMap fun found =>
            if (found.1.getLast?).any fun name => pattern.fits name.toList then
              search disk rest (below path ("/".intercalate found.1)) found.2
            else []
      else
        (tree.entries.flatMap fun entry =>
          if pattern.fits entry.1.toList then search disk rest (below path entry.1) entry.2
          else []) ++
        (specialNames pattern).flatMap fun name =>
          let next := Path.join path name
          match disk.find next with
          | .ok found => if tree.isFolder then search disk rest next found else []
          | .error _ => []

/-- The steps of a pattern. -/
def patternSteps (pattern : String) : List (List Char) :=
  let pieces := Path.pieces pattern.toList
  if Path.isAbsolute pattern then pieces.drop 1 else pieces

/-- **The paths that a pattern of several steps stands for.** -/
def glob (disk : Disk) (pattern : String) : Except PatternFault (List String) := do
  let _ ← NamePattern.ofText pattern.toList
  let patterns ← (patternSteps pattern).mapM NamePattern.ofText
  let start := if Path.isAbsolute pattern then "/" else "."
  match disk.find start with
  | .ok tree => .ok (disk.search (mergeFolders patterns) start tree)
  | .error _ => .ok []

/-- The extensions of manifest files. -/
def manifestExtensions : List String := ["yml", "yaml"]

/-- The pattern for the files with an extension anywhere below a path. -/
def patternBelow (path extension : String) : String := path ++ "/**/*." ++ extension

/-- **The manifest files at a path**: the file itself, or those below a folder in the order of
their paths. -/
def manifestFiles (disk : Disk) (path : String) : Except DiscoveryFault (List String) :=
  if disk.isFile path then .ok [path]
  else if disk.isFolder path then
    match manifestExtensions.mapM fun extension =>
      disk.glob (patternBelow path extension) with
    | .error fault => .error (.badPattern fault)
    | .ok found => .ok (found.flatten.mergeSort Path.precedes)
  else .error (.missing path)

end Disk

end InfraScan
