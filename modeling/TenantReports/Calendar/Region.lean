import TenantReports.Calendar.DateTime

/-!
Regions of the world whose clocks stand at a fixed distance from universal time, or are put
forward by an hour in summer.
-/

namespace TenantReports

/-- When clocks are an hour ahead: never; from the second Sunday of March to the first Sunday of
November, changing at two by the wall clock; or from the last Sunday of March to the last Sunday
of October, changing at one in universal time. -/
inductive SummerTime
  | none
  | american
  | european
deriving DecidableEq, Repr

structure Region where
  /-- The distance from universal time outside summer, in minutes. -/
  standard : Int
  summer : SummerTime
deriving DecidableEq, Repr

def microsPerMinute : Int := 60000000

def microsPerHour : Int := 60 * microsPerMinute

namespace Date

/-- The number of the first Sunday on or after a date. -/
def sundayFrom (d : Date) : Nat := d.ordinal + (6 - d.weekday)

/-- The number of the last Sunday of a month with thirty-one days. -/
def lastSunday (year month : Nat) : Nat := sundayFrom ⟨year, month, 25⟩

end Date

namespace SummerTime

/-- The first and the last day of summer time in a year, by their numbers. -/
def days (year : Nat) : SummerTime → Nat × Nat
  | none => (0, 0)
  | american => (Date.sundayFrom ⟨year, 3, 8⟩, Date.sundayFrom ⟨year, 11, 1⟩)
  | european => (Date.lastSunday year 3, Date.lastSunday year 10)

end SummerTime

namespace Region

def standardMicros (region : Region) : Int := region.standard * microsPerMinute

/-- Beginning and end of summer time in a year, in universal time. -/
def summerOf (region : Region) (year : Nat) : Int × Int :=
  let (first, last) := region.summer.days year
  let point (day : Nat) (hours : Int) : Int := day * microsPerDay + hours * microsPerHour
  match region.summer with
  | .none => (0, 0)
  | .american => (point first 2 - region.standardMicros, point last 1 - region.standardMicros)
  | .european => (point first 1, point last 1)

/-- The distance from universal time at a point in universal time. -/
def offsetAt (region : Region) (instant : Int) : Int :=
  let year := (Date.ofOrdinal (instant / microsPerDay).toNat).year
  let (first, last) := region.summerOf year
  if first ≤ instant ∧ instant < last then region.standardMicros + microsPerHour
  else region.standardMicros

/-- Whether the clock has shown the time of a point in universal time before: in the hour after
it was put back. -/
def isRepeatedAt (region : Region) (instant : Int) : Bool :=
  let year := (Date.ofOrdinal (instant / microsPerDay).toNat).year
  let last := (region.summerOf year).2
  region.summer ≠ .none ∧ last ≤ instant ∧ instant < last + microsPerHour

/-- The distance from universal time at a time of the wall clock. A time that the clock skips is
told by the clock before the change, or by the one after it where the later one of two times is
meant. -/
def offsetOfWall (region : Region) (isLater : Bool) (wall : DateTime) : Int :=
  let (first, last) := region.summerOf wall.date.year
  let summer := region.standardMicros + microsPerHour
  let change := if isLater then region.standardMicros else summer
  if first + change ≤ wall.wallMicros ∧ (wall.wallMicros : Int) < last + change then summer
  else region.standardMicros

/-- The regions by their names. -/
def known : List (String × Region) :=
  [("UTC", ⟨0, .none⟩), ("GMT", ⟨0, .none⟩), ("Africa/Accra", ⟨0, .none⟩),
   ("Africa/Johannesburg", ⟨120, .none⟩), ("Africa/Lagos", ⟨60, .none⟩),
   ("Africa/Nairobi", ⟨180, .none⟩), ("America/Bogota", ⟨-300, .none⟩),
   ("America/Chicago", ⟨-360, .american⟩), ("America/Denver", ⟨-420, .american⟩),
   ("America/Halifax", ⟨-240, .american⟩), ("America/Los_Angeles", ⟨-480, .american⟩),
   ("America/New_York", ⟨-300, .american⟩), ("America/Phoenix", ⟨-420, .none⟩),
   ("America/Sao_Paulo", ⟨-180, .none⟩), ("America/Toronto", ⟨-300, .american⟩),
   ("America/Vancouver", ⟨-480, .american⟩), ("Asia/Bangkok", ⟨420, .none⟩),
   ("Asia/Calcutta", ⟨330, .none⟩), ("Asia/Colombo", ⟨330, .none⟩), ("Asia/Dhaka", ⟨360, .none⟩),
   ("Asia/Dubai", ⟨240, .none⟩), ("Asia/Ho_Chi_Minh", ⟨420, .none⟩),
   ("Asia/Hong_Kong", ⟨480, .none⟩), ("Asia/Jakarta", ⟨420, .none⟩), ("Asia/Karachi", ⟨300, .none⟩),
   ("Asia/Kathmandu", ⟨345, .none⟩), ("Asia/Kolkata", ⟨330, .none⟩),
   ("Asia/Kuala_Lumpur", ⟨480, .none⟩), ("Asia/Manila", ⟨480, .none⟩),
   ("Asia/Riyadh", ⟨180, .none⟩), ("Asia/Seoul", ⟨540, .none⟩), ("Asia/Shanghai", ⟨480, .none⟩),
   ("Asia/Singapore", ⟨480, .none⟩), ("Asia/Taipei", ⟨480, .none⟩), ("Asia/Tokyo", ⟨540, .none⟩),
   ("Asia/Yangon", ⟨390, .none⟩), ("Australia/Brisbane", ⟨600, .none⟩),
   ("Australia/Perth", ⟨480, .none⟩), ("Etc/GMT", ⟨0, .none⟩), ("Etc/UTC", ⟨0, .none⟩),
   ("Europe/Amsterdam", ⟨60, .european⟩), ("Europe/Athens", ⟨120, .european⟩),
   ("Europe/Berlin", ⟨60, .european⟩), ("Europe/Brussels", ⟨60, .european⟩),
   ("Europe/Bucharest", ⟨120, .european⟩), ("Europe/Budapest", ⟨60, .european⟩),
   ("Europe/Copenhagen", ⟨60, .european⟩), ("Europe/Dublin", ⟨0, .european⟩),
   ("Europe/Helsinki", ⟨120, .european⟩), ("Europe/Istanbul", ⟨180, .none⟩),
   ("Europe/Kyiv", ⟨120, .european⟩), ("Europe/Lisbon", ⟨0, .european⟩),
   ("Europe/London", ⟨0, .european⟩), ("Europe/Madrid", ⟨60, .european⟩),
   ("Europe/Moscow", ⟨180, .none⟩), ("Europe/Oslo", ⟨60, .european⟩),
   ("Europe/Paris", ⟨60, .european⟩), ("Europe/Prague", ⟨60, .european⟩),
   ("Europe/Rome", ⟨60, .european⟩), ("Europe/Stockholm", ⟨60, .european⟩),
   ("Europe/Vienna", ⟨60, .european⟩), ("Europe/Warsaw", ⟨60, .european⟩),
   ("Europe/Zurich", ⟨60, .european⟩), ("Pacific/Honolulu", ⟨-600, .none⟩)]

def ofName? (name : String) : Option Region := known.lookup name

end Region

namespace DateTime

/-- The wall clock of a region at a point in time. -/
def inRegion? (t : DateTime) (name : String) : Option DateTime := do
  let region ← Region.ofName? name
  let zone := .region name (region.isRepeatedAt t.instant)
  ofWallMicros? (t.instant + region.offsetAt t.instant) zone

/-- The offset that a clock has from universal time. -/
def offset (t : DateTime) : Int :=
  match t.zone with
  | .naive => 0
  | .offset micros => micros
  | .region name isLater =>
      match Region.ofName? name with
      | some region => region.offsetOfWall isLater t
      | none => 0

/-- The same point in time by the universal clock. -/
def inUniversal? (t : DateTime) : Option DateTime :=
  ofWallMicros? (t.wallMicros - t.offset) (.offset 0)

end DateTime

end TenantReports
