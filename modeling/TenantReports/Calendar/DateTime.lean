import TenantReports.Calendar.Date
import TenantReports.Decimal.Binary64

/-!
Times of day, durations, and wall-clock times in a zone. Arithmetic that keeps the zone works on
the wall clock alone.
-/

namespace TenantReports

structure TimeOfDay where
  hour : Nat
  minute : Nat
  second : Nat
  micro : Nat
deriving DecidableEq, Repr

/-- A span of time in microseconds. -/
structure Duration where
  micros : Int
deriving DecidableEq, Repr

/-- Where a wall clock hangs: nowhere in particular, at a fixed offset from universal time, or in
a region with rules of its own. -/
inductive Zone
  | naive
  | offset (micros : Int)
  /-- A region's clock can show one time twice; `isLater` tells that the second one is meant. -/
  | region (name : String) (isLater : Bool := false)
deriving DecidableEq, Repr

/-- The zone of a time that a clock was moved to: of two times that are shown alike, the first is
meant. -/
def Zone.first : Zone → Zone
  | region name _ => region name
  | zone => zone

structure DateTime where
  date : Date
  time : TimeOfDay
  zone : Zone
deriving DecidableEq, Repr

/-- A time of day that may state its offset from universal time. -/
structure ZonedTime where
  time : TimeOfDay
  offset : Option Int
deriving DecidableEq, Repr

def microsPerSecond : Nat := 1000000
def microsPerDay : Nat := 86400000000

namespace TimeOfDay

def IsValid (t : TimeOfDay) : Prop :=
  t.hour ≤ 23 ∧ t.minute ≤ 59 ∧ t.second ≤ 59 ∧ t.micro < microsPerSecond

instance (t : TimeOfDay) : Decidable t.IsValid := by unfold IsValid; infer_instance

/-- Microseconds since midnight. -/
def micros (t : TimeOfDay) : Nat :=
  ((t.hour * 60 + t.minute) * 60 + t.second) * microsPerSecond + t.micro

def ofMicros (n : Nat) : TimeOfDay :=
  let seconds := n / microsPerSecond
  ⟨seconds / 3600, seconds / 60 % 60, seconds % 60, n % microsPerSecond⟩

end TimeOfDay

namespace Duration

def ofParts (days seconds micros : Int) : Duration :=
  ⟨(days * 86400 + seconds) * microsPerSecond + micros⟩

/-- Whole days, rounded down. -/
def days (d : Duration) : Int := d.micros.fdiv microsPerDay

/-- What is left of the span after its whole days. -/
def withinDay (d : Duration) : Nat := (d.micros.fmod microsPerDay).toNat

/-- The span in seconds. -/
def seconds (d : Duration) : Float :=
  Decimal.nearest (d.micros < 0) d.micros.natAbs microsPerSecond

/-- The whole seconds of a span, as far as a floating-point number holds it; what is left of the
point is cut off. -/
def wholeSeconds (d : Duration) : Int :=
  match Decimal.Binary.ofBits? (Decimal.nearestBits d.micros.natAbs microsPerSecond) with
  | some b => if d.micros < 0 then -b.truncate else b.truncate
  | none => 0

end Duration

namespace DateTime

/-- The wall clock in microseconds, counted from the day before the first. -/
def wallMicros (t : DateTime) : Nat := t.date.ordinal * microsPerDay + t.time.micros

/-- Whether one wall clock shows an earlier time than another. -/
def wallLt (a b : DateTime) : Bool := a.wallMicros < b.wallMicros

def ofWallMicros? (micros : Int) (zone : Zone) : Option DateTime :=
  let day := micros / microsPerDay
  if 1 ≤ day ∧ day ≤ Date.lastOrdinal then
    some ⟨Date.ofOrdinal day.toNat, TimeOfDay.ofMicros (micros % microsPerDay).toNat, zone⟩
  else none

/-- The wall clock moved on by a span, if it stays within the calendar. -/
def add? (t : DateTime) (span : Duration) : Option DateTime :=
  ofWallMicros? (t.wallMicros + span.micros) t.zone.first

/-- The wall clock moved on by whole days. -/
def addDays? (t : DateTime) (days : Int) : Option DateTime :=
  (t.date.addDays? days).map fun date => { t with date, zone := t.zone.first }

/-- The point in universal time, where the zone states its offset. -/
def universal? (t : DateTime) : Option Int :=
  match t.zone with
  | .offset micros => some (t.wallMicros - micros)
  | _ => none

/-- The point in time in microseconds. A clock that states no offset counts as universal. -/
def instant (t : DateTime) : Int := t.universal?.getD t.wallMicros

/-- The span from one point in time to another. -/
def since (t earlier : DateTime) : Duration := ⟨t.instant - earlier.instant⟩

end DateTime

end TenantReports
