/-!
# Instants

A moment of universal time as text: date, time, a fraction of the second in three, six or nine
digits if there is one, and the offset.

* `Date.ofDays` — the date that comes some days after the first of January 1970
* `instantText` — the text of a moment
-/

namespace InfraScan.Report

/-- A date of the Gregorian calendar. -/
structure Date where
  year : Nat
  month : Nat
  day : Nat
  deriving Repr, DecidableEq

/-- **The date that comes some days after the first of January 1970.**  Years are counted from
March, so that the day that leap years add is the last one of the year. -/
def Date.ofDays (days : Nat) : Date :=
  let shifted := days + 719468
  let era := shifted / 146097
  let dayOfEra := shifted % 146097
  let yearOfEra := (dayOfEra - dayOfEra / 1460 + dayOfEra / 36524 - dayOfEra / 146096) / 365
  let dayOfYear := dayOfEra - (365 * yearOfEra + yearOfEra / 4 - yearOfEra / 100)
  let monthOfYear := (5 * dayOfYear + 2) / 153
  let month := if monthOfYear < 10 then monthOfYear + 3 else monthOfYear - 9
  ⟨yearOfEra + 400 * era + (if month ≤ 2 then 1 else 0), month,
    dayOfYear - (153 * monthOfYear + 2) / 5 + 1⟩

/-- A number with zeros before it up to a width. -/
def padded (width n : Nat) : String :=
  let digits := toString n
  String.ofList (List.replicate (width - digits.length) '0') ++ digits

/-- A fraction of a second, in the least of three, six and nine digits that shows all of
it. -/
def fractionText (nanoseconds : Nat) : String :=
  if nanoseconds = 0 then ""
  else if nanoseconds % 1000000 = 0 then "." ++ padded 3 (nanoseconds / 1000000)
  else if nanoseconds % 1000 = 0 then "." ++ padded 6 (nanoseconds / 1000)
  else "." ++ padded 9 nanoseconds

/-- **The text of a moment**, counted in nanoseconds from the beginning of 1970. -/
def instantText (nanoseconds : Nat) : String :=
  let seconds := nanoseconds / 1000000000
  let date := Date.ofDays (seconds / 86400)
  padded 4 date.year ++ "-" ++ padded 2 date.month ++ "-" ++ padded 2 date.day ++ "T" ++
    padded 2 (seconds / 3600 % 24) ++ ":" ++ padded 2 (seconds / 60 % 60) ++ ":" ++
    padded 2 (seconds % 60) ++ fractionText (nanoseconds % 1000000000) ++ "+00:00"

example : [0, 59, 11016, 19782].map Date.ofDays =
    [⟨1970, 1, 1⟩, ⟨1970, 3, 1⟩, ⟨2000, 2, 29⟩, ⟨2024, 2, 29⟩] := by decide

end InfraScan.Report
