/-!
# Moments in writing

A moment is kept as the nanoseconds since the beginning of 1970, without leap seconds. It is
written as a date, a time of day and the mark of the zero meridian; of the fraction of a second,
as many groups of three digits are written as are needed to lose nothing.

## Main definitions

* `Moment`: moments
* `Moment.text`: how a moment is written
-/

namespace FiberPrograms

/-- A moment: nanoseconds since the beginning of 1970. -/
structure Moment where
  nanoseconds : Int
deriving DecidableEq, Repr

namespace Moment

/-- Seconds since the beginning of 1970. -/
def seconds (moment : Moment) : Int :=
  moment.nanoseconds.fdiv 1000000000

/-- Nanoseconds within the second. -/
def fraction (moment : Moment) : Nat :=
  (moment.nanoseconds.fmod 1000000000).toNat

/-- Days since the beginning of 1970. -/
def days (moment : Moment) : Int :=
  moment.seconds.fdiv 86400

/-- Seconds within the day. -/
def secondOfDay (moment : Moment) : Nat :=
  (moment.seconds.fmod 86400).toNat

/-- Year, month and day. Years are counted from March, in cycles of 400 years that have 146097
days each, so the day that some years have more is the last of its year. -/
def date (moment : Moment) : Int × Nat × Nat :=
  let day := moment.days + 719468
  let cycle := day.fdiv 146097
  let day := (day.fmod 146097).toNat
  let year := (day - day / 1460 + day / 36524 - day / 146096) / 365
  let day := day - (365 * year + year / 4 - year / 100)
  let month := (5 * day + 2) / 153
  let day := day - (153 * month + 2) / 5 + 1
  let year : Int := cycle * 400 + year
  if month < 10 then (year, month + 3, day) else (year + 1, month - 9, day)

/-- A number with zeros in front of it, up to a number of digits. -/
def padded (count n : Nat) : String :=
  let digits := Nat.toDigits 10 n
  String.ofList (List.replicate (count - digits.length) '0' ++ digits)

/-- The fraction of a second, in as many groups of three digits as are needed. -/
def fractionText (n : Nat) : String :=
  if n = 0 then ""
  else if n % 1000000 = 0 then "." ++ padded 3 (n / 1000000)
  else if n % 1000 = 0 then "." ++ padded 6 (n / 1000)
  else "." ++ padded 9 n

/-- How a moment is written. -/
def text (moment : Moment) : String :=
  let (year, month, day) := moment.date
  let second := moment.secondOfDay
  padded 4 year.toNat ++ "-" ++ padded 2 month ++ "-" ++ padded 2 day
    ++ "T" ++ padded 2 (second / 3600) ++ ":" ++ padded 2 (second / 60 % 60) ++ ":"
    ++ padded 2 (second % 60) ++ fractionText moment.fraction ++ "Z"

example : Moment.text ⟨0⟩ = "1970-01-01T00:00:00Z" := by decide +kernel

example : Moment.text ⟨951825599123000000⟩ = "2000-02-29T11:59:59.123Z" := by decide +kernel

example : Moment.text ⟨-1⟩ = "1969-12-31T23:59:59.999999999Z" := by decide +kernel

end Moment

end FiberPrograms
