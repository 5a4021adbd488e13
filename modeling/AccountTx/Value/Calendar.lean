import AccountTx.Text.Decimal

/-!
Dates of the Gregorian calendar for times from the year 1970 on, and their text after RFC 3339 in
universal time.
-/

namespace AccountTx.Calendar

open Text (pad)

structure Date where
  year : Nat
  month : Nat
  day : Nat
  deriving DecidableEq

/-- The date so many days after the first of January 1970. Years are counted from March here, so
that the leap day is the last day of a year. -/
def Date.ofDays (days : Nat) : Date :=
  let fromEra := days + 719468
  let era := fromEra / 146097
  let dayOfEra := fromEra % 146097
  let yearOfEra := (dayOfEra - dayOfEra / 1460 + dayOfEra / 36524 - dayOfEra / 146096) / 365
  let dayOfYear := dayOfEra - (365 * yearOfEra + yearOfEra / 4 - yearOfEra / 100)
  let fromMarch := (5 * dayOfYear + 2) / 153
  let month := if fromMarch < 10 then fromMarch + 3 else fromMarch - 9
  { year := yearOfEra + era * 400 + if month ≤ 2 then 1 else 0
    month := month
    day := dayOfYear - (153 * fromMarch + 2) / 5 + 1 }

/-- A year of more than four digits has a sign. -/
def yearText (year : Nat) : String :=
  if year ≤ 9999 then pad 4 year else "+" ++ toString year

/-- The last second that is written as a date. -/
def lastSecond : Nat := 8210266876799

def timeText (seconds : Nat) : String :=
  let date := Date.ofDays (seconds / 86400)
  let time := seconds % 86400
  yearText date.year ++ "-" ++ pad 2 date.month ++ "-" ++ pad 2 date.day ++ "T"
    ++ pad 2 (time / 3600) ++ ":" ++ pad 2 (time / 60 % 60) ++ ":" ++ pad 2 (time % 60) ++ "+00:00"

end AccountTx.Calendar
