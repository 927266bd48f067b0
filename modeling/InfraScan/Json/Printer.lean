import InfraScan.Decimal.Shortest
import InfraScan.Json.Basic

/-!
# Writing JSON

Two forms of one value: compact, without any blank, and indented by two spaces a level.
Characters are written as they are, except the quote, the backslash and the control characters
below U+0020.

* `escape` — the written form of a string's characters
* `numberLayout` — how doubles are spelled
* `compact` — the value on one line
* `pretty` — the value indented
-/

namespace InfraScan.Json

/-- A hexadecimal digit in lower case. -/
def hexDigit (n : Nat) : Char := Nat.digitChar (n % 16)

/-- The written form of one character of a string. -/
def escapeChar (c : Char) : List Char :=
  if c = '"' then ['\\', '"']
  else if c = '\\' then ['\\', '\\']
  else if c.toNat < 0x20 then
    match c.toNat with
    | 0x08 => ['\\', 'b']
    | 0x09 => ['\\', 't']
    | 0x0A => ['\\', 'n']
    | 0x0C => ['\\', 'f']
    | 0x0D => ['\\', 'r']
    | n => ['\\', 'u', '0', '0', hexDigit (n / 16), hexDigit n]
  else [c]

/-- The written form of a string's characters, without the quotes around it. -/
def escape (text : List Char) : List Char := text.flatMap escapeChar

/-- A string with its quotes. -/
def quoted (s : String) : String := "\"" ++ String.ofList (escape s.toList) ++ "\""

/-- Doubles are positional from `10 ^ -5` up to `10 ^ 16` and always show a point or an
exponent. -/
def numberLayout : Decimal.Layout := ⟨-5, 16, ['e'], true⟩

/-- The text of a number. -/
def Number.text : Number → String
  | .int n => toString n
  | .float x => String.ofList (numberLayout.writeDouble x)

mutual

/-- The value on one line without blanks. -/
def compact : Json → String
  | .null => "null"
  | .bool b => if b then "true" else "false"
  | .num n => n.text
  | .str s => quoted s
  | .arr items => "[" ++ compactItems items ++ "]"
  | .obj fields => "\x7b" ++ compactFields fields ++ "\x7d"

/-- The items of an array with commas between them. -/
def compactItems : List Json → String
  | [] => ""
  | [item] => compact item
  | item :: rest => compact item ++ "," ++ compactItems rest

/-- The members of an object with commas between them. -/
def compactFields : List (String × Json) → String
  | [] => ""
  | [(name, value)] => quoted name ++ ":" ++ compact value
  | (name, value) :: rest => quoted name ++ ":" ++ compact value ++ "," ++ compactFields rest

end

/-- A line break and the blanks of an indentation level. -/
def lineAt (level : Nat) : String := "\n" ++ String.ofList (List.replicate (2 * level) ' ')

mutual

/-- The value indented by two spaces a level, inside `level` levels; empty collections stay on
one line. -/
def prettyAt (level : Nat) : Json → String
  | .null => "null"
  | .bool b => if b then "true" else "false"
  | .num n => n.text
  | .str s => quoted s
  | .arr items =>
    if items.isEmpty then "[]"
    else "[" ++ prettyItems (level + 1) items ++ lineAt level ++ "]"
  | .obj fields =>
    if fields.isEmpty then "\x7b\x7d"
    else "\x7b" ++ prettyFields (level + 1) fields ++ lineAt level ++ "\x7d"

/-- The items of an array, each on lines of its own. -/
def prettyItems (level : Nat) : List Json → String
  | [] => ""
  | [item] => lineAt level ++ prettyAt level item
  | item :: rest => lineAt level ++ prettyAt level item ++ "," ++ prettyItems level rest

/-- The members of an object, each on lines of its own. -/
def prettyFields (level : Nat) : List (String × Json) → String
  | [] => ""
  | [(name, value)] => lineAt level ++ quoted name ++ ": " ++ prettyAt level value
  | (name, value) :: rest =>
    lineAt level ++ quoted name ++ ": " ++ prettyAt level value ++ "," ++
      prettyFields level rest

end

/-- **The value indented by two spaces a level.** -/
def pretty (value : Json) : String := prettyAt 0 value

end InfraScan.Json
