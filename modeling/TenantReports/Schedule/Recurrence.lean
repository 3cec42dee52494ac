import TenantReports.Calendar.Span
import TenantReports.Value.Mapping
import TenantReports.Value.Number

/-!
Recurring times. A schedule's type and configuration describe a recurrence; a recurrence has a
next time after any point of a wall clock.
-/

namespace TenantReports

open TenantReports.Text

/-- A minute of the day. -/
structure ClockTime where
  hour : Nat
  minute : Nat
deriving DecidableEq, Repr

inductive Recurrence
  | daily (time : ClockTime)
  /-- Weekdays count from Sunday as zero. -/
  | weekly (weekday : Nat) (time : ClockTime)
  /-- On the last day of a month that is too short for `day`. -/
  | monthly (day : Nat) (time : ClockTime)
deriving DecidableEq, Repr

namespace ClockTime

def isOnClock (t : ClockTime) : Bool := t.hour ≤ 23 && t.minute ≤ 59

def toTimeOfDay (t : ClockTime) : TimeOfDay := ⟨t.hour, t.minute, 0, 0⟩

/-- One or two digits, a colon, and two digits; a line feed may follow. -/
def ofChars? (cs : List Char) : Option ClockTime :=
  let hours := cs.takeWhile isDigit
  let minutes? (minutes : List Char) : Option ClockTime :=
    if (hours.length == 1 || hours.length == 2) && minutes.length == 2 && minutes.all isDigit then
      some ⟨digitsValue hours, digitsValue minutes⟩
    else none
  match cs.dropWhile isDigit with
  | ':' :: rest => minutes? (if rest.getLast? = some '\n' then rest.dropLast else rest)
  | _ => none

def default : ClockTime := ⟨9, 0⟩

/-- The time that a configuration gives; nothing given means the default. -/
def ofValue (given : Value) : Result ClockTime :=
  if !given.isTruthy then .ok default
  else
    match given with
    | .text s =>
        match ofChars? s.toList with
        | some t => if t.isOnClock then .ok t else .error (.schedule (.time given))
        | none => .error (.schedule (.time given))
    | _ => .error .mistyped

/-- The first two fields of a cron expression: the minute and the hour. -/
def ofCronFields (given : Value) (fields : List (List Char)) : Result ClockTime :=
  match fields with
  | minute :: hour :: _ =>
      if minute.all isDigitSign && hour.all isDigitSign then do
        let minute ← Value.wholeOfChars (.text (String.ofList minute)) minute
        let hour ← Value.wholeOfChars (.text (String.ofList hour)) hour
        let t : ClockTime := ⟨hour.toNat, minute.toNat⟩
        if t.isOnClock then .ok t else .error (.schedule (.cron given))
      else .error (.schedule (.cron given))
  | _ => .error (.schedule (.cron given))

/-- A byte of a cron expression: all but the ASCII digits and blanks are alike. -/
def cronChar (byte : UInt8) : Char :=
  let code := byte.toNat
  if (48 ≤ code ∧ code ≤ 57) ∨ (9 ≤ code ∧ code ≤ 13) ∨ code = 32 then Char.ofNat code else '?'

def ofCron (given : Value) : Result ClockTime :=
  if !given.isTruthy then .ok default
  else
    match given with
    | .text s => ofCronFields given (words s.toList)
    | .bytes content => ofCronFields given (words (content.map cronChar))
    | _ => .error .noOperation

end ClockTime

namespace Recurrence

/-- The entries of a configuration; what counts as not given has none. -/
def configEntries (config : Value) : Result Entries :=
  match config with
  | .mapping entries => .ok entries
  | other => if other.isTruthy then .error .noOperation else .ok []

def wholeField (config : Entries) (name : String) (default : Int) : Result Int :=
  match config.field name with
  | .null => .ok default
  | given => given.toWhole

def weekdayField (config : Entries) : Result Nat := do
  let weekday ← wholeField config "day_of_week" 1
  if 0 ≤ weekday ∧ weekday ≤ 6 then return weekday.toNat
  else throw (.schedule (.weekday weekday))

def monthDayField (config : Entries) : Result Nat := do
  let day ← wholeField config "day_of_month" 1
  if 1 ≤ day ∧ day ≤ 31 then return day.toNat else throw (.schedule (.monthDay day))

/-- The recurrence that a schedule's type and configuration describe. -/
def ofConfig (type : String) (config : Value) : Result Recurrence :=
  match type with
  | "daily" => do
      let config ← configEntries config
      return daily (← ClockTime.ofValue (config.field "time"))
  | "weekly" => do
      let config ← configEntries config
      let time ← ClockTime.ofValue (config.field "time")
      return weekly (← weekdayField config) time
  | "monthly" => do
      let config ← configEntries config
      let time ← ClockTime.ofValue (config.field "time")
      return monthly (← monthDayField config) time
  | "custom" => do
      let config ← configEntries config
      return daily (← ClockTime.ofCron (config.field "cron"))
  | other => .error (.schedule (.type other))

/-- The next time of day on today's date or on tomorrow's. -/
def nextDaily (time : ClockTime) (now : DateTime) : Result DateTime :=
  let slot := { now with time := time.toTimeOfDay }
  if now.wallLt slot then .ok slot else ofCalendar (slot.addDays? 1)

/-- Days until the next date after today's that falls on a weekday. -/
def daysUntil (weekday : Nat) (today : Date) : Nat :=
  let current := (today.weekday + 1) % 7
  match (weekday + 7 - current) % 7 with
  | 0 => 7
  | days => days

def nextWeekly (weekday : Nat) (time : ClockTime) (now : DateTime) : Result DateTime := do
  let day ← ofCalendar (now.addDays? (daysUntil weekday now.date))
  return { day with time := time.toTimeOfDay }

/-- The day of a month, or its last day where it is shorter. -/
def monthDate (year month day : Nat) : Date := ⟨year, month, min day (daysInMonth year month)⟩

/-- The day of this month, or of the month after it. -/
def nextMonthly (day : Nat) (time : ClockTime) (now : DateTime) : Result DateTime :=
  let year := now.date.year
  let month := now.date.month
  let slot (date : Date) : DateTime := ⟨date, time.toTimeOfDay, now.zone⟩
  if now.wallLt (slot (monthDate year month day)) then .ok (slot (monthDate year month day))
  else if month < 12 then .ok (slot (monthDate year (month + 1) day))
  else if year < Date.lastYear then .ok (slot (monthDate (year + 1) 1 day))
  else .error (.calendar (.year (year + 1)))

/-- The next time of a recurrence after `now`, by the wall clock. -/
def next : Recurrence → DateTime → Result DateTime
  | daily time, now => nextDaily time now
  | weekly weekday time, now => nextWeekly weekday time now
  | monthly day time, now => nextMonthly day time now

end Recurrence

/-- When a schedule runs next after `now`. -/
def nextRun (type : String) (config : Value) (now : DateTime) : Result DateTime := do
  (← Recurrence.ofConfig type config).next now

end TenantReports
