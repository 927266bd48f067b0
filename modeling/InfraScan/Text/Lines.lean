import InfraScan.Text.Blank

/-!
# Lines of a text

A line ends at a line feed, and one carriage return right before the line feed belongs to the
line's end.  A text that ends in a line feed has no further, empty line; a text that does not
keeps whatever follows its last line feed, carriage returns included.

* `lines` — the lines of a text under this rule
* `joinLines` — lines put back together with line feeds between them
-/

namespace InfraScan.Text

/-- The line without the carriage return that precedes its line feed. -/
def dropReturn (line : List Char) : List Char :=
  if line.getLast? = some '\r' then line.dropLast else line

/-- The pieces of a text between its line feeds, the last one included even when it is
empty. -/
def pieces : List Char → List (List Char)
  | [] => [[]]
  | c :: rest =>
    if c = '\n' then [] :: pieces rest
    else
      match pieces rest with
      | [] => [[c]]
      | piece :: more => (c :: piece) :: more

/-- The lines made of the pieces of a text: a carriage return goes with the line feed that
follows it, and an empty last piece is no line. -/
def linesOfPieces : List (List Char) → List (List Char)
  | [] => []
  | [last] => if last = [] then [] else [last]
  | piece :: next :: more => dropReturn piece :: linesOfPieces (next :: more)

/-- **The lines of a text.** -/
def lines (text : List Char) : List (List Char) := linesOfPieces (pieces text)

/-- Lines joined by single line feeds; no line feed follows the last one. -/
def joinLines (parts : List (List Char)) : List Char := ['\n'].intercalate parts

@[simp] theorem pieces_nil : pieces [] = [[]] := rfl

@[simp] theorem pieces_cons_newline (rest : List Char) :
    pieces ('\n' :: rest) = [] :: pieces rest := by simp [pieces]

theorem pieces_ne_nil (text : List Char) : pieces text ≠ [] := by
  cases text with
  | nil => simp
  | cons c rest =>
    unfold pieces
    split
    · simp
    · split <;> simp

@[simp] theorem lines_nil : lines [] = [] := rfl

example : lines "a\r\nb\r\r\n\nc\r".toList =
    ["a".toList, "b\r".toList, [], "c\r".toList] := by decide

example : lines "a\n".toList = ["a".toList] := by decide

end InfraScan.Text
