/-
# `Calendar` — local dates and the traffic period of a host

`Date` objects are instants; the program reads their local year, month and day
and builds instants from such fields.  Local time is a fixed offset from UTC
(`tz`, in milliseconds), and the fields are those of the Gregorian calendar
extended in both directions, with months counted from 0 as in the source.
-/
import Incudal.Basic

namespace Incudal

/-- Milliseconds of a day. -/
def dayMs : Time := 86400000

/-- Days from 1970-01-01 to a date; months outside 0..11 carry into the year. -/
def daysFromCivil (year month day : ℤ) : ℤ :=
  let y := year + month / 12
  let m := month % 12
  -- years that begin in March, so that the leap day is the last one
  let y' := if m < 2 then y - 1 else y
  let era := y' / 400
  let yoe := y' - era * 400
  let doy := (153 * ((m + 10) % 12) + 2) / 5 + day - 1
  era * 146097 + (yoe * 365 + yoe / 4 - yoe / 100 + doy) - 719468

/-- Year, month and day of a number of days from 1970-01-01. -/
def civilFromDays (days : ℤ) : ℤ × ℤ × ℤ :=
  let z := days + 719468
  let era := z / 146097
  let doe := z - era * 146097
  let yoe := (doe - doe / 1460 + doe / 36524 - doe / 146096) / 365
  let doy := doe - (365 * yoe + yoe / 4 - yoe / 100)
  let mp := (5 * doy + 2) / 153
  let month := (mp + 2) % 12
  let year := yoe + era * 400
  (if month < 2 then year + 1 else year, month, doy - (153 * mp + 2) / 5 + 1)

section Local

-- the offset of local time from UTC
variable (tz : Time)

/-- The local year, month and day of an instant. -/
def localDate (t : Time) : ℤ × ℤ × ℤ := civilFromDays ((t + tz) / dayMs)

/-- The instant at which a local date begins: `new Date(year, month, day)`. -/
def startOfDate (year month day : ℤ) : Time := daysFromCivil year month day * dayMs - tz

/-- `getTrafficPeriod`: the period of a reset day that an instant lies in. -/
def getTrafficPeriod (resetDay : ℤ) (referenceDate : Time) : Time × Time :=
  let day := max 1 (min 28 resetDay)
  let (year, month, currentDay) := localDate tz referenceDate
  if currentDay ≥ day then
    (startOfDate tz year month day, startOfDate tz year (month + 1) day)
  else
    (startOfDate tz year (month - 1) day, startOfDate tz year month day)

end Local

example : civilFromDays (daysFromCivil 2028 1 29) = (2028, 1, 29) := by decide

end Incudal
