/-!
# Reading positions in YAML text

Columns decide the nesting of block collections and lines decide how long a key may be, so a
reading position carries both.

* character classes: `isBreak`, `isBlank`, `isAnchorChar`, `isUriChar`, `isPermitted`
* `Cursor` — the rest of the text with its place
* `Cursor.skip`, `Cursor.skipWhile`, `Cursor.skipBreak`, `Cursor.takeBreak` — steps forward
-/

namespace InfraScan.Yaml

/-- The characters that end a line. -/
def isBreak (c : Char) : Bool :=
  c = '\n' || c = '\r' || c = '\u0085' || c = '\u2028' || c = '\u2029'

/-- Space and tab. -/
def isBlank (c : Char) : Bool := c = ' ' || c = '\t'

/-- The characters of anchors and tag handles. -/
def isAnchorChar (c : Char) : Bool := c.isAlphanum || c = '-' || c = '_'

/-- The characters of a tag outside angle brackets. -/
def isUriChar (c : Char) : Bool :=
  isAnchorChar c ||
    [';', '/', '?', ':', '@', '&', '=', '+', '$', '.', '%', '!', '~', '*', '\'', '(',
      ')'].contains c

/-- The characters that a YAML text may hold. -/
def isPermitted (c : Char) : Bool :=
  let n := c.toNat
  n = 0x09 || n = 0x0A || n = 0x0D || (0x20 ≤ n && n ≤ 0x7E) || n = 0x85 ||
    (0xA0 ≤ n && n ≤ 0xD7FF) || (0xE000 ≤ n && n ≤ 0xFFFD) || 0x10000 ≤ n

/-- **The rest of a text with its place.** -/
structure Cursor where
  rest : List Char
  index : Nat
  line : Nat
  column : Nat
  deriving Repr

namespace Cursor

/-- The start of a text. -/
def start (text : List Char) : Cursor := ⟨text, 0, 0, 0⟩

/-- The next character. -/
def peek (cursor : Cursor) : Option Char := cursor.rest.head?

/-- The character some places ahead. -/
def ahead (cursor : Cursor) (n : Nat) : Option Char := cursor.rest[n]?

/-- The next character is the given one. -/
def sees (cursor : Cursor) (c : Char) : Bool := cursor.peek = some c

/-- The text ends, or a blank or a line end stands, some places ahead. -/
def spaceAhead (cursor : Cursor) (n : Nat) : Bool :=
  match cursor.ahead n with
  | none => true
  | some c => isBlank c || isBreak c

/-- The text is at its end. -/
def atEnd (cursor : Cursor) : Bool := cursor.rest.isEmpty

/-- A line end stands here. -/
def atBreak (cursor : Cursor) : Bool := cursor.peek.any isBreak

/-- A blank stands here. -/
def atBlank (cursor : Cursor) : Bool := cursor.peek.any isBlank

/-- One character forward on the same line. -/
def skip (cursor : Cursor) : Cursor :=
  ⟨cursor.rest.drop 1, cursor.index + 1, cursor.line, cursor.column + 1⟩

/-- Some characters forward on the same line. -/
def skipN (cursor : Cursor) (n : Nat) : Cursor :=
  ⟨cursor.rest.drop n, cursor.index + n, cursor.line, cursor.column + n⟩

/-- The characters of a class from here on. -/
def taken (cursor : Cursor) (p : Char → Bool) : List Char := cursor.rest.takeWhile p

/-- Forward over the characters of a class, which holds no line end. -/
def skipWhile (cursor : Cursor) (p : Char → Bool) : Cursor :=
  cursor.skipN (cursor.taken p).length

/-- Forward over a line end: the characters that stand for it in content, and the next line.
Carriage return and line feed together are one line end. -/
def takeBreak (cursor : Cursor) : List Char × Cursor :=
  match cursor.rest with
  | '\r' :: '\n' :: rest => (['\n'], ⟨rest, cursor.index + 2, cursor.line + 1, 0⟩)
  | c :: rest =>
    let next : Cursor := ⟨rest, cursor.index + 1, cursor.line + 1, 0⟩
    if c = '\u2028' || c = '\u2029' then ([c], next)
    else if isBreak c then (['\n'], next)
    else ([], cursor)
  | [] => ([], cursor)

/-- Forward over a line end, if one stands here. -/
def skipBreak (cursor : Cursor) : Cursor := cursor.takeBreak.2

/-- Forward to the end of the line. -/
def skipLine (cursor : Cursor) : Cursor := cursor.skipWhile fun c => !isBreak c

/-- A document marker of three equal characters stands at the start of this line. -/
def atMarker (cursor : Cursor) (c : Char) : Bool :=
  cursor.column = 0 && [c, c, c].isPrefixOf cursor.rest && cursor.spaceAhead 3

/-- Either document marker stands at the start of this line. -/
def atDocumentMarker (cursor : Cursor) : Bool := cursor.atMarker '-' || cursor.atMarker '.'

end Cursor

end InfraScan.Yaml
