import InfraScan.Json.Basic

/-!
# Reading JSON

A strict reader: blanks are the four of the format, a document is one value and nothing after
it, strings hold no raw control character and no lone surrogate, and at most 127 arrays and
objects enclose a value.  Repeated members of an object are kept as they stand, since some
readings of a value refuse them.

* `Number.read` — a number literal; integers stay integers while they fit 64 bits
* `readString` — the rest of a string after its opening quote
* `readValue` — a value
* `parseFront?` — a value at the front of a text
* `parse?` — a whole document
-/

namespace InfraScan.Json

/-! ### Numbers -/

/-- The largest significand: the largest unsigned integer of 64 bits. -/
def maxSignificand : Nat := UInt64.size - 1

/-- The value of a decimal digit. -/
def digitValue (c : Char) : Nat := c.toNat - '0'.toNat

/-- Extend a significand by digits for as long as it fits 64 bits; the digits that do not fit
are returned. -/
def absorb (significand : Nat) : List Char → Nat × List Char
  | [] => (significand, [])
  | d :: rest =>
    if significand * 10 + digitValue d ≤ maxSignificand then
      absorb (significand * 10 + digitValue d) rest
    else (significand, d :: rest)

/-- `x · 10 ^ e`, scaled in steps a double can represent.  A result beyond the largest double
is none; one below the smallest is zero. -/
def scale (x : Float) (e : Int) : Nat → Option Float
  | 0 => some x
  | steps + 1 =>
    if e.natAbs ≤ 308 then
      let power := Float.ofScientific 1 false e.natAbs
      if 0 ≤ e then
        let y := x * power
        if y.isInf then none else some y
      else some (x / power)
    else if x == 0.0 then some x
    else if 0 ≤ e then none
    else scale (x / Float.ofScientific 1 false 308) (e + 308) steps

/-- The double with a sign, a significand and a decimal exponent.  Four steps of scaling take
every significand to zero. -/
def double (negative : Bool) (significand : Nat) (e : Int) : Option Number :=
  (scale (Float.ofNat significand) e 4).map fun x => .float (if negative then -x else x)

/-- An integer literal: an integer when it fits, and a double for `-0` and for what lies below
the smallest signed integer. -/
def integer (negative : Bool) (significand : Nat) : Number :=
  if !negative then .int significand
  else if significand = 0 || 0x8000000000000000 < significand then
    .float (-(Float.ofNat significand))
  else .int (-(significand : Int))

/-- The exponent part of a literal whose digits so far make `significand · 10 ^ start`. -/
def readExponent (negative : Bool) (significand : Nat) (start : Int) (text : List Char) :
    Option (Number × List Char) :=
  let (down, text) :=
    match text with
    | '+' :: rest => (false, rest)
    | '-' :: rest => (true, rest)
    | rest => (false, rest)
  let digits := text.takeWhile Char.isDigit
  let rest := text.dropWhile Char.isDigit
  if digits = [] then none
  else
    let e := digits.foldl (fun acc d => acc * 10 + digitValue d) 0
    if 0x80000000 ≤ e then
      if significand ≠ 0 && !down then none
      else some (.float (if negative then -0.0 else 0.0), rest)
    else (double negative significand (if down then start - e else start + e)).map (·, rest)

/-- The fraction part of a literal, after its point. -/
def readFraction (negative : Bool) (significand : Nat) (start : Int) (text : List Char) :
    Option (Number × List Char) :=
  let digits := text.takeWhile Char.isDigit
  let rest := text.dropWhile Char.isDigit
  if digits = [] then none
  else
    let (significand, excess) := absorb significand digits
    let e := start - (digits.length - excess.length : Nat)
    match rest with
    | 'e' :: rest | 'E' :: rest => readExponent negative significand e rest
    | rest => (double negative significand e).map (·, rest)

/-- The literal after its sign. -/
def readUnsigned (negative : Bool) (text : List Char) : Option (Number × List Char) :=
  let digits := text.takeWhile Char.isDigit
  let rest := text.dropWhile Char.isDigit
  if digits = [] || (digits.head? = some '0' && digits.length ≠ 1) then none
  else
    let (significand, excess) := absorb 0 digits
    match rest with
    | '.' :: rest => readFraction negative significand excess.length rest
    | 'e' :: rest | 'E' :: rest => readExponent negative significand excess.length rest
    | rest =>
      if excess = [] then some (integer negative significand, rest)
      else (double negative significand excess.length).map (·, rest)

/-- A number literal and the text after it. -/
def Number.read : List Char → Option (Number × List Char)
  | '-' :: rest => readUnsigned true rest
  | text => readUnsigned false text

/-! ### Strings -/

/-- The value of a hexadecimal digit of either case. -/
def hexValue? (c : Char) : Option Nat :=
  if c.isDigit then some (c.toNat - '0'.toNat)
  else if 'a' ≤ c && c ≤ 'f' then some (c.toNat - 'a'.toNat + 10)
  else if 'A' ≤ c && c ≤ 'F' then some (c.toNat - 'A'.toNat + 10)
  else none

/-- The number that hexadecimal digits write. -/
def hexNumber? (digits : List Char) : Option Nat :=
  digits.foldl (fun acc d => acc.bind fun n => (hexValue? d).map (16 * n + ·)) (some 0)

/-- The character of a `\u` escape whose four digits stand at the front of the text.  A high
surrogate has to be followed by the escape of a low one. -/
def readUnicode (text : List Char) : Option (Char × List Char) := do
  let digits := text.take 4
  let rest := text.drop 4
  if digits.length ≠ 4 then none
  let unit ← hexNumber? digits
  if 0xDC00 ≤ unit && unit ≤ 0xDFFF then none
  else if 0xD800 ≤ unit && unit ≤ 0xDBFF then
    match rest with
    | '\\' :: 'u' :: tail =>
      let digits := tail.take 4
      if digits.length ≠ 4 then none
      let low ← hexNumber? digits
      if 0xDC00 ≤ low && low ≤ 0xDFFF then
        some (Char.ofNat (0x10000 + (unit - 0xD800) * 0x400 + (low - 0xDC00)), tail.drop 4)
      else none
    | _ => none
  else some (Char.ofNat unit, rest)

/-- The character of an escape of two characters. -/
def simpleEscape? (c : Char) : Option Char :=
  match c with
  | '"' => some '"'
  | '\\' => some '\\'
  | '/' => some '/'
  | 'b' => some '\x08'
  | 'f' => some '\x0c'
  | 'n' => some '\n'
  | 'r' => some '\r'
  | 't' => some '\t'
  | _ => none

/-- The characters of a string after its opening quote, and the text after its closing quote.
Every step takes at least one character, so `fuel` beyond the text's length is never used
up. -/
def readString : (fuel : Nat) → List Char → Option (List Char × List Char)
  | 0, _ => none
  | _, [] => none
  | _, '"' :: rest => some ([], rest)
  | fuel + 1, '\\' :: 'u' :: rest => do
    let (c, rest) ← readUnicode rest
    let (tail, rest) ← readString fuel rest
    some (c :: tail, rest)
  | fuel + 1, '\\' :: e :: rest => do
    let c ← simpleEscape? e
    let (tail, rest) ← readString fuel rest
    some (c :: tail, rest)
  | fuel + 1, c :: rest =>
    if c = '\\' || c.toNat < 0x20 then none
    else do
      let (tail, rest) ← readString fuel rest
      some (c :: tail, rest)

/-! ### Values -/

/-- The four blanks of the format. -/
def isSpace (c : Char) : Bool := c = ' ' || c = '\t' || c = '\n' || c = '\r'

/-- The text after its leading blanks. -/
def skipSpace (text : List Char) : List Char := text.dropWhile isSpace

/-- The text after a word, when it starts with the word. -/
def expect? (word : String) (text : List Char) : Option (List Char) :=
  if word.toList.isPrefixOf text then some (text.drop word.length) else none

mutual

/-- A value inside collections that may nest `depth` levels further, and the text after it. -/
def readValue (fuel depth : Nat) (text : List Char) : Option (Json × List Char) :=
  match fuel with
  | 0 => none
  | fuel + 1 =>
    match skipSpace text with
    | '"' :: rest => (readString fuel rest).map fun (s, rest) =>
      (.str (String.ofList s), rest)
    | '[' :: rest =>
      if depth ≤ 1 then none
      else
        match skipSpace rest with
        | ']' :: rest => some (.arr [], rest)
        | _ => (readItems fuel (depth - 1) rest).map fun (items, rest) => (.arr items, rest)
    | '{' :: rest =>
      if depth ≤ 1 then none
      else
        match skipSpace rest with
        | '}' :: rest => some (.obj [], rest)
        | _ => (readFields fuel (depth - 1) rest).map fun (fields, rest) =>
          (.obj fields, rest)
    | 't' :: rest => (expect? "rue" rest).map (.bool true, ·)
    | 'f' :: rest => (expect? "alse" rest).map (.bool false, ·)
    | 'n' :: rest => (expect? "ull" rest).map (.null, ·)
    | text => (Number.read text).map fun (n, rest) => (.num n, rest)

/-- One or more items of an array, its closing bracket, and the text after it. -/
def readItems (fuel depth : Nat) (text : List Char) : Option (List Json × List Char) :=
  match fuel with
  | 0 => none
  | fuel + 1 =>
    match readValue fuel depth text with
    | none => none
    | some (item, rest) =>
      match skipSpace rest with
      | ',' :: rest => (readItems fuel depth rest).map fun (items, rest) =>
        (item :: items, rest)
      | ']' :: rest => some ([item], rest)
      | _ => none

/-- One or more members of an object, its closing brace, and the text after it. -/
def readFields (fuel depth : Nat) (text : List Char) :
    Option (List (String × Json) × List Char) :=
  match fuel with
  | 0 => none
  | fuel + 1 =>
    match skipSpace text with
    | '"' :: rest =>
      match readString fuel rest with
      | none => none
      | some (name, rest) =>
        match skipSpace rest with
        | ':' :: rest =>
          match readValue fuel depth rest with
          | none => none
          | some (value, rest) =>
            let field := (String.ofList name, value)
            match skipSpace rest with
            | ',' :: rest =>
              (readFields fuel depth rest).map fun (fields, rest) => (field :: fields, rest)
            | '}' :: rest => some ([field], rest)
            | _ => none
        | _ => none
    | _ => none

end

/-- One more than the number of collections that may enclose a value. -/
def maxDepth : Nat := 128

/-- The value at the front of a text, and the text after it.  Every step of the reader takes a
character, or hands the same text from a list of items to its first item, so twice the length
of the text is fuel enough. -/
def parseFront? (text : String) : Option (Json × List Char) :=
  let chars := text.toList
  readValue (2 * chars.length + 2) maxDepth chars

/-- Nothing but blanks is left of a text. -/
def isFinished (rest : List Char) : Bool := skipSpace rest = []

/-- **The value that a text writes**, with nothing but blanks after it. -/
def parse? (text : String) : Option Json :=
  match parseFront? text with
  | some (value, rest) => if isFinished rest then some value else none
  | none => none

end InfraScan.Json
