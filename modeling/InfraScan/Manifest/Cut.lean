import InfraScan.Text.Lines

/-!
# Cutting manifests

A manifest file holds several documents with separator lines between them.  Cutting comes
before any reading of the documents, so that every document keeps its line numbers in the
file.

* `isSeparator` — the line between two documents
* `Part` — the lines between two separators, with the number of the first one
* `cut` — the parts of a list of lines
* `Part.range?` — the first and the last line of a part that carry content
-/

namespace InfraScan.Manifest

/-- A separator: three dashes, and nothing but blanks or a comment after them. -/
def isSeparator (line : List Char) : Bool :=
  ['-', '-', '-'].isPrefixOf line &&
    match Text.trim (line.drop 3) with
    | [] => true
    | c :: _ => c = '#'

/-- A line that carries content: it is neither blank nor a comment. -/
def isContent (line : List Char) : Bool :=
  match Text.trim line with
  | [] => false
  | c :: _ => c ≠ '#'

/-- The lines between two separators, with the number of the first one in the file. -/
structure Part where
  firstLine : Nat
  lines : List (List Char)
  deriving Repr, DecidableEq

/-- The parts of lines whose first has the number `first`. -/
def cutFrom (first : Nat) : List (List Char) → List Part
  | [] => [⟨first, []⟩]
  | line :: rest =>
    if isSeparator line then ⟨first, []⟩ :: cutFrom (first + 1) rest
    else
      match cutFrom (first + 1) rest with
      | [] => [⟨first, [line]⟩]
      | part :: more => ⟨first, line :: part.lines⟩ :: more

/-- **The parts of a file.** -/
def cut (text : List Char) : List Part := cutFrom 1 (Text.lines text)

namespace Part

/-- The numbers in the file of the lines that carry content. -/
def contentLines (part : Part) : List Nat :=
  ((part.lines.zipIdx part.firstLine).filter fun line => isContent line.1).map Prod.snd

/-- **The first and the last line that carry content.** -/
def range? (part : Part) : Option (Nat × Nat) :=
  match part.contentLines.head?, part.contentLines.getLast? with
  | some first, some last => some (first, last)
  | _, _ => none

/-- The text of a part: its lines with line feeds between them. -/
def text (part : Part) : String := String.ofList (Text.joinLines part.lines)

end Part

example : (cut "# a\nx: 1\n---\n--- # b\n\ny\n".toList).map Part.range? =
    [some (2, 2), none, some (6, 6)] := by decide

end InfraScan.Manifest
