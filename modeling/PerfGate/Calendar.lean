/-!
# Calendar

An instant is a count of seconds since the start of 1970 with a fraction in nanoseconds.
Dates are those of the proleptic Gregorian calendar at the prime meridian. The day count is
shifted to years that begin in March, so that the leap day is the last of its year; four
hundred such years have 146097 days.
-/

set_option autoImplicit false

namespace PerfGate

structure Instant where
  seconds : Int
  nanos : Nat
  deriving DecidableEq, Repr

structure Date where
  year : Int
  month : Nat
  day : Nat
  deriving DecidableEq, Repr

structure TimeOfDay where
  hour : Nat
  minute : Nat
  second : Nat
  deriving DecidableEq, Repr

namespace Date

def yearOfEra (day : Nat) : Nat :=
  (day - day / 1460 + day / 36524 - day / 146096) / 365

def daysBefore (year : Nat) : Nat :=
  365 * year + year / 4 - year / 100

def ofDays (days : Int) : Date :=
  let shifted := days + 719468
  let era := shifted.fdiv 146097
  let dayOfEra := (shifted.fmod 146097).toNat
  let year := yearOfEra dayOfEra
  let dayOfYear := dayOfEra - daysBefore year
  let fromMarch := (5 * dayOfYear + 2) / 153
  let month := if fromMarch < 10 then fromMarch + 3 else fromMarch - 9
  { year := year + era * 400 + (if month ≤ 2 then 1 else 0)
    month := month
    day := dayOfYear - (153 * fromMarch + 2) / 5 + 1 }

end Date

namespace Instant

def date (t : Instant) : Date :=
  Date.ofDays (t.seconds.fdiv 86400)

def timeOfDay (t : Instant) : TimeOfDay :=
  let s := (t.seconds.fmod 86400).toNat
  ⟨s / 3600, s / 60 % 60, s % 60⟩

def micros (t : Instant) : Int :=
  t.seconds * 1000000 + (t.nanos / 1000 : Nat)

end Instant

/-! ## Texts -/

def padded (width n : Nat) : String :=
  let digits := Nat.toDigits 10 n
  String.ofList (List.replicate (width - digits.length) '0' ++ digits)

/-- Four digits; a year that does not have four digits has a sign. -/
def Date.yearText (d : Date) : String :=
  if d.year < 0 then "-" ++ padded 4 d.year.natAbs
  else if 9999 < d.year then "+" ++ padded 4 d.year.natAbs
  else padded 4 d.year.natAbs

def Date.text (d : Date) (separator : String) : String :=
  d.yearText ++ separator ++ padded 2 d.month ++ separator ++ padded 2 d.day

def TimeOfDay.text (t : TimeOfDay) (separator : String) : String :=
  padded 2 t.hour ++ separator ++ padded 2 t.minute ++ separator ++ padded 2 t.second

namespace Instant

def dateTimeText (t : Instant) : String :=
  t.date.text "-" ++ " " ++ t.timeOfDay.text ":"

/-- With six digits of the fraction. -/
def preciseText (t : Instant) : String :=
  t.date.text "-" ++ "T" ++ t.timeOfDay.text ":" ++ "." ++ padded 6 (t.nanos / 1000)

def fileStamp (t : Instant) : String :=
  t.date.text "" ++ "_" ++ t.timeOfDay.text ""

end Instant

end PerfGate
