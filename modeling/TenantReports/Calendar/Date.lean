import TenantReports.Decimal.Digits

/-!
Dates of the Gregorian calendar, extended to the years 1 to 9999.
-/

namespace TenantReports

/-- A date by year, month and day, all counted from one. -/
structure Date where
  year : Nat
  month : Nat
  day : Nat
deriving DecidableEq, Repr

def isLeapYear (year : Nat) : Bool :=
  year % 4 == 0 && (year % 100 != 0 || year % 400 == 0)

def daysInMonth (year month : Nat) : Nat :=
  match month with
  | 2 => if isLeapYear year then 29 else 28
  | 4 | 6 | 9 | 11 => 30
  | _ => 31

/-- Days of the months before `month`. -/
def daysBeforeMonth (year : Nat) : (month : Nat) → Nat
  | 0 | 1 => 0
  | month + 1 => daysBeforeMonth year month + daysInMonth year month

/-- Days of the years before `year`. -/
def daysBeforeYear (year : Nat) : Nat :=
  let past := year - 1
  past * 365 + past / 4 - past / 100 + past / 400

namespace Date

def lastYear : Nat := 9999

def IsValid (d : Date) : Prop :=
  1 ≤ d.year ∧ d.year ≤ lastYear ∧ 1 ≤ d.month ∧ d.month ≤ 12 ∧
    1 ≤ d.day ∧ d.day ≤ daysInMonth d.year d.month

instance (d : Date) : Decidable d.IsValid := by unfold IsValid; infer_instance

/-- The number of the day, counted from one on the first day of year one. -/
def ordinal (d : Date) : Nat :=
  daysBeforeYear d.year + daysBeforeMonth d.year d.month + d.day

def lastOrdinal : Nat := 3652059

/-- The month that holds the day `rest` of the year, and the day of that month. -/
def monthOfDay (year : Nat) : (month fuel rest : Nat) → Nat × Nat
  | month, 0, rest => (month, rest)
  | month, fuel + 1, rest =>
      if rest ≤ daysInMonth year month then (month, rest)
      else monthOfDay year (month + 1) fuel (rest - daysInMonth year month)

/-- The year that holds the day with a given number: the estimate by mean length, or the year
before or after it. -/
def yearOfOrdinal (n : Nat) : Nat :=
  let guess := (n - 1) * 400 / 146097 + 1
  if n ≤ daysBeforeYear guess then guess - 1
  else if daysBeforeYear (guess + 1) < n then guess + 1
  else guess

/-- The date with a given number. -/
def ofOrdinal (n : Nat) : Date :=
  let year := yearOfOrdinal n
  let (month, day) := monthOfDay year 1 11 (n - daysBeforeYear year)
  ⟨year, month, day⟩

/-- The date `days` later, if it lies within the calendar. -/
def addDays? (d : Date) (days : Int) : Option Date :=
  let n := (d.ordinal : Int) + days
  if 1 ≤ n ∧ n ≤ lastOrdinal then some (ofOrdinal n.toNat) else none

/-- The day of the week, counted from Monday as zero. -/
def weekday (d : Date) : Nat := (d.ordinal + 6) % 7

def lt (a b : Date) : Bool := a.ordinal < b.ordinal

def toChars (d : Date) : List Char :=
  Decimal.padded 4 d.year ++ '-' :: Decimal.padded 2 d.month ++ '-' :: Decimal.padded 2 d.day

/-- The date as year, month and day with hyphens between them. -/
def toText (d : Date) : String := String.ofList d.toChars

end Date

end TenantReports
