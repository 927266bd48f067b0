import InfraScan.Decimal.Shortest

/-!
# Reading decimals

The double nearest to a decimal.  Decimals far outside the range of doubles are decided by
their number of digits alone, so that an exponent of any size costs nothing.

* `Digits.magnitude` — the number of digits before the decimal point
* `Digits.nearest` — the double nearest to a decimal
* `readDouble?` — the double that a text without a sign spells
-/

namespace InfraScan.Decimal

/-- The value of a run of decimal digits. -/
def valueOf (digits : List Char) : Nat :=
  digits.foldl (fun value d => value * 10 + (d.toNat - '0'.toNat)) 0

namespace Digits

/-- The number of digits before the decimal point, zero or negative below one tenth. -/
def magnitude (digits : Digits) : Int :=
  ((Nat.toDigits 10 digits.coefficient).length : Int) + digits.exponent

/-- **The double nearest to a decimal**; infinite when it lies beyond the largest one. -/
def nearest (digits : Digits) : Float :=
  if digits.coefficient = 0 || digits.magnitude < -400 then 0.0
  else if 400 < digits.magnitude then 1.0 / 0.0
  else if 0 ≤ digits.exponent then
    Float.ofScientific digits.coefficient false digits.exponent.toNat
  else Float.ofScientific digits.coefficient true (-digits.exponent).toNat

end Digits

/-- The exponent that a text after its mark spells: a sign that may be left out, and
digits. -/
def readExponent? (text : List Char) : Option Int :=
  let (negative, digits) :=
    match text with
    | '+' :: rest => (false, rest)
    | '-' :: rest => (true, rest)
    | rest => (false, rest)
  if digits = [] || !digits.all Char.isDigit then none
  else some (if negative then -(valueOf digits : Int) else valueOf digits)

/-- The decimal that a text without a sign spells: digits with or without a point among them
or at either end, and perhaps an exponent. -/
def readDigits? (text : List Char) : Option Digits :=
  let whole := text.takeWhile Char.isDigit
  let rest := text.dropWhile Char.isDigit
  let (fraction, rest) :=
    match rest with
    | '.' :: rest => (rest.takeWhile Char.isDigit, rest.dropWhile Char.isDigit)
    | rest => ([], rest)
  let digits := whole ++ fraction
  if digits = [] then none
  else
    match rest with
    | [] => some ⟨valueOf digits, -(fraction.length : Int)⟩
    | 'e' :: rest | 'E' :: rest =>
      (readExponent? rest).map fun e => ⟨valueOf digits, e - fraction.length⟩
    | _ => none

/-- **The double that a text without a sign spells.** -/
def readDouble? (text : List Char) : Option Float := (readDigits? text).map Digits.nearest

example : readDigits? "12.50e-3".toList = some ⟨1250, -5⟩ := by decide

example : [".5", "1.", ".", "1e", "1_0"].map (fun s => readDigits? s.toList) =
    [some ⟨5, -1⟩, some ⟨1, 0⟩, none, none, none] := by decide

end InfraScan.Decimal
