/-!
# Shortest decimals

The text of a double is the shortest decimal that reads back as the same double, and the
nearest one to its value among those.  The computation is exact: a finite double is an integer
times a power of two, the reals that round to it form an interval, and a decimal grid either
has a point in that interval or has none.

* `Binary` — a positive finite double as `mantissa · 2 ^ exponent`
* `Digits` — a decimal `coefficient · 10 ^ exponent`
* `Binary.onGrid?` — the point of one decimal grid that reads back, if there is one
* `Binary.shortest` — the coarsest grid with such a point
* `Layout` — where a decimal is written positionally and how its exponent is spelled
-/

namespace InfraScan.Decimal

/-- A positive number `mantissa · 2 ^ exponent`.  `lowerHalf` says that the next smaller
double is only half as far away as the next larger one, which happens at the powers of two. -/
structure Binary where
  mantissa : Nat
  exponent : Int
  lowerHalf : Bool
  deriving Repr, DecidableEq

/-- A decimal `coefficient · 10 ^ exponent`. -/
structure Digits where
  coefficient : Nat
  exponent : Int
  deriving Repr, DecidableEq

/-- How many doubles share one exponent. -/
def Binary.fractions : Nat := 0x10000000000000

/-- The magnitude that the low 63 bits of a finite double denote; none for zero. -/
def Binary.ofBits? (bits : UInt64) : Option Binary :=
  let fraction : Nat := bits.toNat % fractions
  let biased : Nat := bits.toNat / fractions % 2048
  if biased = 0 then
    if fraction = 0 then none else some ⟨fraction, -1074, false⟩
  else
    some ⟨fractions + fraction, (biased : Int) - 1075, fraction = 0 && biased > 1⟩

/-- `base ^ e` for a non-negative `e`, and `1` below zero. -/
def powUp (base : Nat) (e : Int) : Nat := Nat.pow base e.toNat

/-- Compare `c · 10 ^ p` with `x · 2 ^ e`, exactly. -/
def compareScaled (c : Nat) (p : Int) (x : Nat) (e : Int) : Ordering :=
  compare (c * powUp 10 p * powUp 2 (-e)) (x * powUp 2 e * powUp 10 (-p))

namespace Binary

/-- How often `10 ^ p` goes into the number. -/
def floorAt (b : Binary) (p : Int) : Nat :=
  b.mantissa * powUp 2 b.exponent * powUp 10 (-p) / (powUp 2 (-b.exponent) * powUp 10 p)

/-- The number of digits before the decimal point, zero or negative below one tenth. -/
def magnitude (b : Binary) : Int := ((Nat.toDigits 10 (b.floorAt (-400))).length : Int) - 400

/-- `c · 10 ^ p` lies in the interval of reals that round to the number.  The ends of the
interval are in it exactly when the mantissa is even. -/
def readsBack (b : Binary) (c : Nat) (p : Int) : Bool :=
  let low := 4 * b.mantissa - if b.lowerHalf then 1 else 2
  let high := 4 * b.mantissa + 2
  let closed := b.mantissa % 2 = 0
  (match compareScaled c p low (b.exponent - 2) with
    | .lt => false
    | .eq => closed
    | .gt => true) &&
  (match compareScaled c p high (b.exponent - 2) with
    | .lt => true
    | .eq => closed
    | .gt => false)

/-- The multiple of `10 ^ p` that reads back and is nearest to the number; of two equally near
ones the even one.  Only the two neighbours of the number on the grid can read back. -/
def onGrid? (b : Binary) (p : Int) : Option Digits :=
  let c := b.floorAt p
  match b.readsBack c p, b.readsBack (c + 1) p with
  | false, false => none
  | true, false => some ⟨c, p⟩
  | false, true => some ⟨c + 1, p⟩
  | true, true =>
    match compareScaled (2 * c + 1) p b.mantissa (b.exponent + 1) with
    | .gt => some ⟨c, p⟩
    | .lt => some ⟨c + 1, p⟩
    | .eq => some ⟨if c % 2 = 0 then c else c + 1, p⟩

/-- **The shortest decimal that reads back.**  Seventeen digits always suffice. -/
def shortest (b : Binary) : Digits :=
  let k := b.magnitude
  ((List.range 17).findSome? fun (i : Nat) => b.onGrid? (k - ((i : Int) + 1))).getD
    ⟨b.floorAt (k - 17), k - 17⟩

end Binary

/-! ### Writing decimals -/

/-- The digits of a number, most significant first. -/
def digitsOf (n : Nat) : List Char := Nat.toDigits 10 n

/-- **How a decimal is written.**  A decimal whose first digit stands at `10 ^ k` is written
positionally when `smallest ≤ k < largest`, and with an exponent otherwise. -/
structure Layout where
  smallest : Int
  largest : Int
  exponentMark : List Char
  plusSign : Bool
  deriving Repr

/-- The digits of a decimal under a layout. -/
def Layout.write (layout : Layout) (d : Digits) : List Char :=
  let all := digitsOf d.coefficient
  let digits := (all.reverse.dropWhile (· = '0')).reverse
  let exponent := d.exponent + (all.length - digits.length : Nat)
  let point : Int := exponent + digits.length
  let k := point - 1
  if layout.smallest ≤ k && k < layout.largest then
    if point ≤ 0 then
      ['0', '.'] ++ List.replicate (-point).toNat '0' ++ digits
    else if 0 ≤ exponent then
      digits ++ List.replicate exponent.toNat '0' ++ ['.', '0']
    else
      digits.take point.toNat ++ ['.'] ++ digits.drop point.toNat
  else
    let lead := digits.take 1 ++ (if digits.length ≤ 1 then [] else '.' :: digits.drop 1)
    let sign := if k < 0 then ['-'] else if layout.plusSign then ['+'] else []
    lead ++ layout.exponentMark ++ sign ++ digitsOf k.natAbs

/-- The text of a finite double: a sign for negative numbers and for negative zero, then the
shortest decimal that reads back. -/
def Layout.writeDouble (layout : Layout) (x : Float) : List Char :=
  let bits := x.toBits
  let sign := if bits.toNat < 0x8000000000000000 then [] else ['-']
  match Binary.ofBits? bits with
  | none => sign ++ ['0', '.', '0']
  | some b => sign ++ layout.write b.shortest

end InfraScan.Decimal
