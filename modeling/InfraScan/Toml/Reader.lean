import InfraScan.Toml.Item
import InfraScan.Toml.Lexeme

/-!
# Reading TOML

A document is a list of lines: headers, fields, comments and empty lines.

* `value?` — a value, with arrays and tables in braces
* `statements?` — the statements of a text
* `read?` — the document of a text
-/

namespace InfraScan.Toml

/-- Past a word. -/
def word? (word : String) (text : List Char) : Option (List Char) :=
  if word.toList.isPrefixOf text then some (text.drop word.length) else none

/-- A value that holds no other. -/
def plain? (text : List Char) : Option (Item × List Char) :=
  match text with
  | '"' :: _ | '\'' :: _ =>
    (string? text).map fun (s, rest) => (.text (String.ofList s), rest)
  | 't' :: _ => (word? "true" text).map (.flag true, ·)
  | 'f' :: _ => (word? "false" text).map (.flag false, ·)
  | c :: _ =>
    if c = '+' || c = '-' || c.isDigit || c = 'i' || c = 'n' then
      ((moment? text).map fun (moment, rest) => (Item.moment moment, rest)).or
        (((double? text).map fun (x, rest) => (Item.double x, rest)).or
          ((integer? text).map fun (n, rest) => (Item.integer n, rest)))
    else none
  | [] => none

mutual

/-- **A value** inside which arrays and tables may nest `depth` levels, and the text after
it. -/
def value? (fuel depth : Nat) (text : List Char) : Option (Item × List Char) :=
  match fuel with
  | 0 => none
  | fuel + 1 =>
    match text with
    | '[' :: rest =>
      if depth = 0 then none
      else (items? fuel (depth - 1) rest).map fun (items, rest) => (.array items, rest)
    | '\x7b' :: rest =>
      if depth = 0 then none
      else
        match blanks rest with
        | '\x7d' :: rest => some (.inline [], rest)
        | rest =>
          (fields? fuel (depth - 1) (.bare .stated) rest).map fun (table, rest) =>
            (.inline table.fields, rest)
    | text => plain? text

/-- The items of an array, its closing bracket, and the text after it.  A comma may stand
after the last item. -/
def items? (fuel depth : Nat) (text : List Char) : Option (List Item × List Char) :=
  match fuel with
  | 0 => none
  | fuel + 1 =>
    match gap? text.length text with
    | none => none
    | some (']' :: rest) => some ([], rest)
    | some text =>
      match value? fuel depth text with
      | none => none
      | some (item, rest) =>
        match gap? rest.length rest with
        | some (',' :: rest) => (items? fuel depth rest).map fun (items, rest) =>
          (item :: items, rest)
        | some (']' :: rest) => some ([item], rest)
        | _ => none

/-- One or more fields of a table in braces, put into a table, its closing brace, and the text
after it. -/
def fields? (fuel depth : Nat) (table : Item) (text : List Char) :
    Option (Item × List Char) :=
  match fuel with
  | 0 => none
  | fuel + 1 =>
    match key? text with
    | some ((path, key), '=' :: rest) =>
      match value? fuel depth (blanks rest) with
      | none => none
      | some (value, rest) =>
        match table.setAt? path key value with
        | none => none
        | some table =>
          match blanks rest with
          | ',' :: rest => fields? fuel depth table rest
          | '\x7d' :: rest => some (table, rest)
          | _ => none
    | _ => none

end

/-- A header after its brackets, and the text after its line. -/
def header? (inArray : Bool) (text : List Char) : Option (Statement × List Char) := do
  let ((path, key), rest) ← key? text
  let rest ← past? ']' rest
  if inArray then
    some (.arrayHeader path key, ← lineEnd? (← past? ']' rest))
  else some (.header path key, ← lineEnd? rest)

/-- A field, and the text after its line. -/
def field? (text : List Char) : Option (Statement × List Char) := do
  let ((path, key), rest) ← key? text
  let rest := blanks (← past? '=' rest)
  let (value, rest) ← value? (2 * rest.length + 2) maxDepth rest
  some (.field path key value, ← lineEnd? rest)

/-- The statements of a text, line by line. -/
def statements? : (fuel : Nat) → List Char → Option (List Statement)
  | 0, _ => none
  | fuel + 1, text =>
    let text := blanks text
    let next (line : Option (Statement × List Char)) : Option (List Statement) :=
      line.bind fun (statement, rest) => (statements? fuel rest).map (statement :: ·)
    match text with
    | [] => some []
    | '#' :: _ | '\n' :: _ | '\r' :: _ => (lineEnd? text).bind (statements? fuel)
    | '[' :: '[' :: rest => next (header? true rest)
    | '[' :: rest => next (header? false rest)
    | text => next (field? text)

/-- The text without the byte order mark that it may begin with. -/
def dropMark : List Char → List Char
  | '\ufeff' :: rest => rest
  | text => text

/-- **The document of a text.** -/
def read? (text : String) : Option Item := do
  Builder.run? (← statements? (text.length + 1) (dropMark text.toList))

end InfraScan.Toml
