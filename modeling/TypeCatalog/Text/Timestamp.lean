/-! # Timestamps

A point in time is shown by its date and its time of day in universal time, with a fraction of six
digits when it is not a whole second. -/

namespace TypeCatalog.Text

/-- A number in at least so many decimal digits. -/
def paddedDigits (width value : Nat) : String :=
  let digits := Nat.toDigits 10 value
  String.ofList (List.replicate (width - digits.length) '0' ++ digits)

/-- A day of the calendar. -/
structure Day where
  year : Nat
  month : Nat
  day : Nat
  deriving DecidableEq, Repr

namespace Day

/-- The day so many days after the first of March of the year zero. Years begin in March here, so
that a leap day is the last day of its year, and repeat every four hundred years. -/
def ofNumber (number : Nat) : Day :=
  let cycle := number / 146097
  let inCycle := number % 146097
  let yearOfCycle := (inCycle - inCycle / 1460 + inCycle / 36524 - inCycle / 146096) / 365
  let inYear := inCycle - (365 * yearOfCycle + yearOfCycle / 4 - yearOfCycle / 100)
  let month := (5 * inYear + 2) / 153
  let year := 400 * cycle + yearOfCycle
  { year := if month < 10 then year else year + 1
    month := if month < 10 then month + 3 else month - 9
    day := inYear - (153 * month + 2) / 5 + 1 }

def text (day : Day) : String :=
  paddedDigits 4 day.year ++ "-" ++ paddedDigits 2 day.month ++ "-" ++ paddedDigits 2 day.day

end Day

/-- The number of days from the first of March of the year zero to the first of January of 1970. -/
def daysBeforeEpoch : Nat := 719468

/-- The text of the point in time so many seconds and billionths of a second after the beginning of
1970. -/
def timestamp (seconds billionths : Nat) : String :=
  let inDay := seconds % 86400
  let clock := [inDay / 3600, inDay / 60 % 60, inDay % 60].map (paddedDigits 2)
  let millionths := billionths / 1000
  let fraction := if millionths = 0 then "" else "." ++ paddedDigits 6 millionths
  (Day.ofNumber (seconds / 86400 + daysBeforeEpoch)).text ++ "T" ++ ":".intercalate clock ++
    fraction ++ "+00:00"

end TypeCatalog.Text
