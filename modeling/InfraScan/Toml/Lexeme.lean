import InfraScan.Decimal.Nearest
import InfraScan.Json.Reader

/-!
# Keys, strings, numbers and times

The pieces of TOML text that have no other value inside.  Each function starts at the first
character of its piece and gives the content with the text after it, or nothing when no such
piece stands there.

* `newline?`, `blanks`, `lineEnd?`, `gap?` — what stands between pieces
* `string?` — the four forms of strings
* `key?` — a dotted key
* `integer?`, `double?`, `moment?` — numbers, dates and times
-/

namespace InfraScan.Toml

/-! ### Between pieces -/

/-- Space and tab. -/
def isBlank (c : Char) : Bool := c = ' ' || c = '\t'

/-- A character of a comment or a string: a tab, or one that is no control character of
ASCII. -/
def isPrinted (c : Char) : Bool := c = '\t' || (0x20 ≤ c.toNat && c.toNat ≠ 0x7F)

/-- Past the blanks at the front of a text. -/
def blanks (text : List Char) : List Char := text.dropWhile isBlank

/-- Past a line end. -/
def newline? : List Char → Option (List Char)
  | '\n' :: rest => some rest
  | '\r' :: '\n' :: rest => some rest
  | _ => none

/-- Past a comment, if one stands here. -/
def comment : List Char → List Char
  | '#' :: rest => rest.dropWhile isPrinted
  | text => text

/-- Past the end of a line: blanks, a comment, and a line end or the end of the text. -/
def lineEnd? (text : List Char) : Option (List Char) :=
  let rest := comment (blanks text)
  if rest = [] then some [] else newline? rest

/-- Past blanks, line ends and comments; a line end follows every comment. -/
def gap? : (fuel : Nat) → List Char → Option (List Char)
  | 0, text => some text
  | fuel + 1, text =>
    let text := blanks text
    match text with
    | '#' :: _ => (newline? (comment text)).bind (gap? fuel)
    | '\n' :: _ | '\r' :: _ => (newline? text).bind (gap? fuel)
    | text => some text

/-! ### Strings -/

/-- The character that a number of hexadecimal digits at the front of a text stands for. -/
def numbered? (count : Nat) (text : List Char) : Option (Char × List Char) := do
  let digits := text.take count
  if digits.length ≠ count then none
  let n ← Json.hexNumber? digits
  if (0xD800 ≤ n && n ≤ 0xDFFF) || 0x10FFFF < n then none
  else some (Char.ofNat n, text.drop count)

/-- The character of an escape, after its backslash. -/
def escape? : List Char → Option (Char × List Char)
  | 'b' :: rest => some ('\x08', rest)
  | 't' :: rest => some ('\t', rest)
  | 'n' :: rest => some ('\n', rest)
  | 'f' :: rest => some ('\x0c', rest)
  | 'r' :: rest => some ('\r', rest)
  | '"' :: rest => some ('"', rest)
  | '\\' :: rest => some ('\\', rest)
  | 'u' :: rest => numbered? 4 rest
  | 'U' :: rest => numbered? 8 rest
  | _ => none

/-- The characters of a string in double quotes, after the first one. -/
def basic? : (fuel : Nat) → List Char → Option (List Char × List Char)
  | 0, _ => none
  | _, [] => none
  | fuel + 1, c :: rest =>
    if c = '"' then some ([], rest)
    else if c = '\\' then do
      let (c, rest) ← escape? rest
      let (tail, rest) ← basic? fuel rest
      some (c :: tail, rest)
    else if isPrinted c then (basic? fuel rest).map fun (tail, rest) => (c :: tail, rest)
    else none

/-- The characters of a string in single quotes, after the first one. -/
def literal? (text : List Char) : Option (List Char × List Char) :=
  let inside (c : Char) : Bool := isPrinted c && c ≠ '\''
  match text.dropWhile inside with
  | '\'' :: rest => some (text.takeWhile inside, rest)
  | _ => none

/-- A string closed by three quotes, after the first three: up to two more quotes before the
closing ones belong to it.  Escapes are read in the form with double quotes only; there a
backslash at the end of a line takes off the blanks and line ends up to the next character. -/
def long? (quote : Char) : (fuel : Nat) → List Char → Option (List Char × List Char)
  | 0, _ => none
  | _, [] => none
  | fuel + 1, c :: rest =>
    let text := c :: rest
    let run := (text.takeWhile (· = quote)).length
    if 3 ≤ run then
      let inside := min (run - 3) 2
      some (List.replicate inside quote, text.drop (inside + 3))
    else if c = '\\' && quote = '"' then
      match newline? (blanks rest) with
      | some next =>
        long? quote fuel (next.dropWhile fun c => isBlank c || c = '\n' || c = '\r')
      | none => do
        let (c, rest) ← escape? rest
        let (tail, rest) ← long? quote fuel rest
        some (c :: tail, rest)
    else
      match newline? text with
      | some next => (long? quote fuel next).map fun (tail, rest) => ('\n' :: tail, rest)
      | none =>
        if isPrinted c then (long? quote fuel rest).map fun (tail, rest) => (c :: tail, rest)
        else none

/-- Past a line end that stands right after the opening quotes of a long string. -/
def afterOpening (text : List Char) : List Char := (newline? text).getD text

/-- **A string** in any of its four forms. -/
def string? (text : List Char) : Option (List Char × List Char) :=
  match text with
  | '"' :: '"' :: '"' :: rest => long? '"' (rest.length + 1) (afterOpening rest)
  | '\'' :: '\'' :: '\'' :: rest => long? '\'' (rest.length + 1) (afterOpening rest)
  | '"' :: rest => basic? (rest.length + 1) rest
  | '\'' :: rest => literal? rest
  | _ => none

/-! ### Keys -/

/-- The characters of a key without quotes. -/
def isBare (c : Char) : Bool := c.isAlphanum || c = '-' || c = '_'

/-- One part of a key. -/
def part? (text : List Char) : Option (List Char × List Char) :=
  match text with
  | '"' :: rest => basic? (rest.length + 1) rest
  | '\'' :: rest => literal? rest
  | text =>
    let part := text.takeWhile isBare
    if part = [] then none else some (part, text.dropWhile isBare)

/-- The parts of a key with points between them; blanks around a part do not count. -/
def parts? : (fuel : Nat) → List Char → Option (List String × List Char)
  | 0, _ => none
  | fuel + 1, text => do
    let (part, rest) ← part? (blanks text)
    match blanks rest with
    | '.' :: rest =>
      let (more, rest) ← parts? fuel rest
      some (String.ofList part :: more, rest)
    | rest => some ([String.ofList part], rest)

/-- How deep tables and arrays may nest. -/
def maxDepth : Nat := 79

/-- **A key**: the path before its last part, and that part. -/
def key? (text : List Char) : Option ((List String × String) × List Char) := do
  let (parts, rest) ← parts? (text.length + 1) text
  if maxDepth < parts.length then none
  let last ← parts.getLast?
  some ((parts.dropLast, last), rest)

/-! ### Numbers -/

/-- A run of digits with single underscores between them: the digits, and the text after
them. -/
def run (isDigit : Char → Bool) : List Char → List Char × List Char
  | '_' :: d :: rest =>
    if isDigit d then
      let (digits, rest) := run isDigit rest
      (d :: digits, rest)
    else ([], '_' :: d :: rest)
  | d :: rest =>
    if isDigit d then
      let (digits, rest) := run isDigit rest
      (d :: digits, rest)
    else ([], d :: rest)
  | [] => ([], [])

/-- A run of digits that begins with one. -/
def digits? (isDigit : Char → Bool) (text : List Char) : Option (List Char × List Char) :=
  if (text.head?.any isDigit) then some (run isDigit text) else none

/-- A sign that may be left out: whether it is a minus, and the text after it. -/
def sign : List Char → Bool × List Char
  | '+' :: rest => (false, rest)
  | '-' :: rest => (true, rest)
  | text => (false, text)

/-- Decimal digits without a leading zero. -/
def decimal? (text : List Char) : Option (List Char × List Char) :=
  match text with
  | '0' :: rest => some (['0'], rest)
  | text => digits? Char.isDigit text

/-- An integer of 64 bits with a sign. -/
def bounded? (n : Int) : Option Int :=
  if -0x8000000000000000 ≤ n && n < 0x8000000000000000 then some n else none

/-- The value of hexadecimal digits of either case, or of digits of a smaller base. -/
def valueIn (base : Nat) (digits : List Char) : Int :=
  digits.foldl (fun value d => value * base + ((Json.hexValue? d).getD 0 : Nat)) 0

/-- A digit of a base. -/
def isDigitOf (base : Nat) (c : Char) : Bool := (Json.hexValue? c).any (· < base)

/-- **An integer**: decimal with a sign, or in one of three bases without. -/
def integer? (text : List Char) : Option (Int × List Char) :=
  let based (base : Nat) (rest : List Char) : Option (Int × List Char) := do
    let (digits, rest) ← digits? (isDigitOf base) rest
    some (← bounded? (valueIn base digits), rest)
  match text with
  | '0' :: 'x' :: rest => based 16 rest
  | '0' :: 'o' :: rest => based 8 rest
  | '0' :: 'b' :: rest => based 2 rest
  | text => do
    let (negative, rest) := sign text
    let (digits, rest) ← decimal? rest
    let n := valueIn 10 digits
    some (← bounded? (if negative then -n else n), rest)

/-- The exponent of a double, as its characters without underscores. -/
def exponent? : List Char → Option (List Char × List Char)
  | c :: rest =>
    if c = 'e' || c = 'E' then do
      let (negative, rest) := sign rest
      let (digits, rest) ← digits? Char.isDigit rest
      some ('e' :: (if negative then '-' :: digits else digits), rest)
    else none
  | [] => none

/-- **A double**: a fraction, an exponent, or both.  One beyond the largest double is refused
unless it is negative. -/
def double? (text : List Char) : Option (Float × List Char) :=
  let (negative, rest) := sign text
  let signed (x : Float) : Float := if negative then -x else x
  match rest with
  | 'i' :: 'n' :: 'f' :: rest => some (signed (1.0 / 0.0), rest)
  | 'n' :: 'a' :: 'n' :: rest => some (signed (0.0 / 0.0), rest)
  | rest => do
    let (whole, rest) ← decimal? rest
    let (tail, rest) ←
      match rest with
      | '.' :: rest => do
        let (fraction, rest) ← digits? Char.isDigit rest
        match exponent? rest with
        | some (exponent, rest) => some ('.' :: fraction ++ exponent, rest)
        | none => some ('.' :: fraction, rest)
      | rest => exponent? rest
    let x ← Decimal.readDouble? (whole ++ tail)
    if x.isInf && !negative then none else some (signed x, rest)

/-! ### Dates and times -/

/-- A number of exactly so many digits within bounds. -/
def numeral? (count low high : Nat) (text : List Char) : Option (Nat × List Char) :=
  let digits := text.take count
  let n := Decimal.valueOf digits
  if digits.length = count && digits.all Char.isDigit && low ≤ n && n ≤ high then
    some (n, text.drop count)
  else none

/-- Past one character. -/
def past? (c : Char) : List Char → Option (List Char)
  | d :: rest => if c = d then some rest else none
  | [] => none

/-- The number of days of a month. -/
def daysIn (year month : Nat) : Nat :=
  if month = 2 then
    if year % 4 = 0 && (year % 100 ≠ 0 || year % 400 = 0) then 29 else 28
  else if month ∈ [4, 6, 9, 11] then 30
  else 31

/-- Past a date. -/
def date? (text : List Char) : Option (List Char) := do
  let (year, rest) ← numeral? 4 0 9999 text
  let (month, rest) ← numeral? 2 1 12 (← past? '-' rest)
  let (_, rest) ← numeral? 2 1 (daysIn year month) (← past? '-' rest)
  some rest

/-- Past a time of day, with a fraction of its seconds if there is one. -/
def time? (text : List Char) : Option (List Char) := do
  let (_, rest) ← numeral? 2 0 23 text
  let (_, rest) ← numeral? 2 0 59 (← past? ':' rest)
  let (_, rest) ← numeral? 2 0 60 (← past? ':' rest)
  match rest with
  | '.' :: d :: more => some (if d.isDigit then more.dropWhile Char.isDigit else rest)
  | rest => some rest

/-- Past an offset from universal time. -/
def offset? (text : List Char) : Option (List Char) :=
  match text with
  | 'Z' :: rest | 'z' :: rest => some rest
  | '+' :: rest | '-' :: rest => do
    let (_, rest) ← numeral? 2 0 23 rest
    let (_, rest) ← numeral? 2 0 59 (← past? ':' rest)
    some rest
  | _ => none

/-- Past a date, with a time and an offset if they follow it, or past a time alone. -/
def afterMoment? (text : List Char) : Option (List Char) :=
  match date? text with
  | none => time? text
  | some rest =>
    let timed := match rest with
      | 'T' :: rest | 't' :: rest | ' ' :: rest => time? rest
      | _ => none
    some (match timed with
      | none => rest
      | some rest => (offset? rest).getD rest)

/-- **A date, a time, or both**, as its characters. -/
def moment? (text : List Char) : Option (List Char × List Char) :=
  (afterMoment? text).map fun rest => (text.take (text.length - rest.length), rest)

end InfraScan.Toml
