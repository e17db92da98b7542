/-!
# Moments

A moment is a number of nanoseconds since the start of 1970, in universal time. It is written as a
date and a time of day. Years are counted from the first of March, so that a leap day is the last
day of its year, and in periods of four hundred years, which all have the same number of days.
-/

namespace EntityModel.CommandLine

/-- A day of the calendar. -/
structure Day where
  year : Nat
  month : Nat
  day : Nat
  deriving DecidableEq, Repr

namespace Day

/-- The days from the first of March of the year zero to the start of 1970. -/
def epoch : Nat := 719468

/-- The days of four hundred years. -/
def period : Nat := 146097

/-- The year within a period that a day of the period lies in. -/
def yearOf (day : Nat) : Nat := (day - day / 1460 + day / 36524 - day / 146096) / 365

/-- The day that lies a number of days after the start of 1970. -/
def ofDays (days : Nat) : Day :=
  let n := days + epoch
  let inPeriod := n % period
  let year := yearOf inPeriod
  let inYear := inPeriod - (365 * year + year / 4 - year / 100)
  let month := (5 * inYear + 2) / 153
  let day := inYear - (153 * month + 2) / 5 + 1
  let civil := if month < 10 then month + 3 else month - 9
  ⟨n / period * 400 + year + (if civil ≤ 2 then 1 else 0), civil, day⟩

end Day

/-- A number with zeros in front of it where it has fewer digits than asked for. -/
def zeroPadded (width n : Nat) : String :=
  let s := toString n
  String.ofList (List.replicate (width - s.length) '0') ++ s

/-- The text of a moment. -/
def momentText (nanoseconds : Nat) : String :=
  let seconds := nanoseconds / 1000000000
  let d := Day.ofDays (seconds / 86400)
  zeroPadded 4 d.year ++ "-" ++ zeroPadded 2 d.month ++ "-" ++ zeroPadded 2 d.day ++ "T" ++
    zeroPadded 2 (seconds / 3600 % 24) ++ ":" ++ zeroPadded 2 (seconds / 60 % 60) ++ ":" ++
    zeroPadded 2 (seconds % 60) ++ "." ++ zeroPadded 9 (nanoseconds % 1000000000) ++ "+00:00"

end EntityModel.CommandLine
