import InfraScan.Decimal.Nearest
import InfraScan.Json.Reader

/-!
# Plain scalars

What a scalar without quotes stands for.  The words for null and for the two truth values come
first, then integers, then doubles; everything else is text.

* `isNullWord`, `flag?` — the words
* `integer?` — integers, with the three bases that a lead selects
* `double?` — doubles; infinities and what is not a number are null
* `plain?` — the value of a plain scalar
-/

namespace InfraScan.Yaml.Scalar

/-- The words for null. -/
def isNullWord (text : List Char) : Bool :=
  ["null", "Null", "NULL", "~"].any fun word => word.toList = text

/-- The truth value that a word names. -/
def flag? (text : List Char) : Option Bool :=
  if ["true", "True", "TRUE"].any fun word => word.toList = text then some true
  else if ["false", "False", "FALSE"].any fun word => word.toList = text then some false
  else none

/-! ### Integers -/

/-- The value of a digit of any base up to sixteen. -/
def digit? (base : Nat) (c : Char) : Option Nat := (Json.hexValue? c).filter (· < base)

/-- The number that one or more digits of a base write. -/
def natural? (base : Nat) (digits : List Char) : Option Nat :=
  if digits = [] then none
  else
    digits.foldl (fun acc d => acc.bind fun n => (digit? base d).map (base * n + ·)) (some 0)

/-- The number after one of the leads that select a base. -/
def based? : List Char → Option Nat
  | '0' :: 'x' :: rest => natural? 16 rest
  | '0' :: 'o' :: rest => natural? 8 rest
  | '0' :: 'b' :: rest => natural? 2 rest
  | _ => none

/-- Two or more decimal digits of which the first is zero, with or without a sign: a text, not
a number. -/
def isPadded (text : List Char) : Bool :=
  let digits := match text with
    | '+' :: rest | '-' :: rest => rest
    | rest => rest
  1 < digits.length && digits.head? = some '0' && digits.all Char.isDigit

/-- **The integer that a plain scalar writes**, of any size. -/
def integer? (text : List Char) : Option Int :=
  let read (digits : List Char) : Option Nat :=
    (based? digits).or (if isPadded digits then none else natural? 10 digits)
  match text with
  | '+' :: rest => (read rest).map Int.ofNat
  | '-' :: rest => (read rest).map fun n => -(n : Int)
  | rest => (read rest).map Int.ofNat

/-- An integer as a value: one that fits 64 bits, signed or unsigned. -/
def ofInteger? (n : Int) : Option Json :=
  if -0x8000000000000000 ≤ n && n < UInt64.size then some (.num (.int n)) else none

/-- An integer is out of range: beyond 64 bits, but within 128, signed or unsigned. -/
def isOutOfRange (n : Int) : Bool :=
  (ofInteger? n).isNone && -0x80000000000000000000000000000000 ≤ n &&
    n < 0x100000000000000000000000000000000

/-! ### Doubles -/

/-- The double that a plain scalar writes, as a value.  A decimal beyond the largest double is
none; the words for infinities and for what is not a number are null. -/
def double? (text : List Char) : Option Json :=
  let unsigned := match text with
    | '+' :: rest | '-' :: rest => rest
    | rest => rest
  if [".inf", ".Inf", ".INF"].any fun word => word.toList = unsigned then some .null
  else if [".nan", ".NaN", ".NAN"].any fun word => word.toList = text then some .null
  else
    match Decimal.readDouble? unsigned with
    | none => none
    | some x =>
      if x.isInf then none
      else some (.num (.float (if text.head? = some '-' then -x else x)))

/-! ### Values -/

/-- **The value of a plain scalar.**  An integer out of range has none. -/
def plain? (text : List Char) : Option Json :=
  if text = [] || isNullWord text then some .null
  else
    match flag? text with
    | some b => some (.bool b)
    | none =>
      let other : Json :=
        if isPadded text then .str (String.ofList text)
        else (double? text).getD (.str (String.ofList text))
      match integer? text with
      | none => some other
      | some n => if isOutOfRange n then none else some ((ofInteger? n).getD other)

end InfraScan.Yaml.Scalar
