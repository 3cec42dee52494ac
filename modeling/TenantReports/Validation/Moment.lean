import TenantReports.Validation.Reader

/-!
Dates and moments as requests spell them: in the ISO 8601 format, or as a count of seconds from
the start of the year 1970 in universal time. A count beyond the seconds that a calendar needs is
one of milliseconds.
-/

namespace TenantReports

open TenantReports.Decimal

namespace Moment

/-- The number of the day with which counts start. -/
def epochDay : Nat := 719163

/-- The greatest magnitude of a count of seconds; greater ones are of milliseconds. -/
def mostSeconds : Nat := 20000000000

/-- The second with which the year 1600 starts. -/
def firstSecond : Int := -11676096000

/-- The last second of the year 9999. -/
def lastSecond : Int := 253402300799

/-- The moment that lies some microseconds behind a count. -/
def ofCount? (count : Int) (micros : Nat) : Option DateTime :=
  let unit := if count.natAbs ≤ mostSeconds then microsPerSecond else 1000
  let total := count * unit + micros
  let second := total.fdiv microsPerSecond
  if firstSecond ≤ second ∧ second ≤ lastSecond then
    DateTime.ofWallMicros? (total + epochDay * microsPerDay) (.offset 0)
  else none

/-- The moment at a count with a fraction, whose magnitude is added to the next lower count as
microseconds. -/
def ofReal? (x : Float) : Option DateTime := do
  let b ← Binary.ofFloat? x
  let (num, den) := b.ratio
  let floor := if b.negative && !b.isWhole then b.truncate - 1 else b.truncate
  ofCount? floor ((2 * (num % den) * microsPerSecond + den) / (2 * den))

/-- The moment at a number of seconds, or of milliseconds, to the nearest microsecond. -/
def nearestReal? (x : Float) : Option DateTime := do
  let seconds := if mostSeconds.toFloat < x.abs then x / 1000.0 else x
  let b ← Binary.ofFloat? seconds
  let (num, den) := b.ratio
  let micros := Value.signed b.negative ((2 * num * microsPerSecond + den) / (2 * den))
  ofCount? (micros.fdiv microsPerSecond) (micros.fmod microsPerSecond).toNat

/-- The digits of a count, which may have a sign and a point. -/
def ofCountText? (cs : List Char) : Option DateTime :=
  let (negative, digits) := splitSign cs
  let whole := digits.takeWhile Char.isDigit
  if whole = [] then none
  else
    match digits.dropWhile Char.isDigit with
    | [] => ofCount? (Value.signed negative (Text.digitsValue whole)) 0
    | '.' :: fraction =>
        let count : Numeral :=
          ⟨negative, Text.digitsValue (whole ++ fraction), -fraction.length⟩
        if fraction.all Char.isDigit then nearestReal? count.toFloat else none
    | _ => none

/-- What may stand between a date and a time of day. -/
def separators : List Char := ['T', 't', ' ', '_']

def offsetSign? : Char → Option Bool
  | '+' => some false
  | '-' | '\u2212' => some true
  | _ => none

/-- How far a clock is ahead of universal time: hours and minutes, with a colon or without. -/
def zone? : List Char → Option Zone
  | [] => some .naive
  | ['Z'] | ['z'] => some (.offset 0)
  | sign :: rest => do
      let negative ← offsetSign? sign
      let (hours, rest) ← Iso.number? 2 rest
      let (minutes, rest) ← Iso.number? 2 ((Iso.skip? ':' rest).getD rest)
      let time : TimeOfDay := ⟨hours, minutes, 0, 0⟩
      if rest = [] ∧ time.IsValid then return .offset (Value.signed negative time.micros) else none

def yearZero : List Char := ['0', '0', '0', '0']

/-- A date, also of the leap year before the first year, and what follows it. -/
def date? (cs : List Char) : Option (Date × List Char) :=
  if cs.take 4 = yearZero then
    (Iso.date? ("0400".toList ++ cs.drop 4)).map fun (date, rest) => ({ date with year := 0 }, rest)
  else Iso.date? cs

/-- A date and a time of day, and the offset where it is stated. -/
def ofClockText? (cs : List Char) : Option DateTime := do
  let (date, rest) ← date? cs
  let separator ← rest.head?
  if !separators.contains separator then none
  let (time, rest) ← Iso.time? rest.tail
  let zone ← zone? rest
  return ⟨date, time, zone⟩

/-- The midnight with which a date starts. -/
def midnight (date : Date) : DateTime := ⟨date, ⟨0, 0, 0, 0⟩, .naive⟩

/-- A date alone, which stands for its midnight. -/
def ofDateText? (cs : List Char) : Option DateTime :=
  match date? cs with
  | some (date, []) => some (midnight date)
  | _ => none

def ofText? (s : String) : Option DateTime :=
  ofClockText? s.toList <|> ofDateText? s.toList <|> ofCountText? s.toList

end Moment

namespace Read

open Validated (issue)

/-- How readers of moments name what is wrong with a text, with a number, and with what is
neither. -/
structure MomentIssues where
  text : IssueKind
  number : IssueKind
  other : IssueKind

def validOr {α : Type} (kind : IssueKind) : Option α → Validated α
  | some a => .valid a
  | none => issue kind

/-- A moment, which may lie in the year before the first. -/
def moment (kinds : MomentIssues) : Reader DateTime
  | .dateTime t => .valid t
  | .date d => .valid (Moment.midnight d)
  | .text s => validOr kinds.text (Moment.ofText? s)
  | .bytes content => validOr kinds.text ((textOfBytes? content).bind Moment.ofText?)
  | .int n =>
      if Numeral.isFinite ⟨n < 0, n.natAbs, 0⟩ then validOr kinds.number (Moment.ofCount? n 0)
      else issue kinds.other
  | .float x => validOr kinds.number (Moment.ofReal? x)
  | .numeric n =>
      match n.toFloat? with
      | some x => validOr kinds.number (Moment.ofReal? x)
      | none => issue kinds.other
  | _ => issue kinds.other

def dateTime : Reader DateTime := fun v =>
  (moment ⟨.momentFromDate, .momentParsing, .momentType⟩ v).andThen fun t =>
    if t.date.year = 0 then issue .momentParsing else .valid t

/-- A date. A moment counts as one at midnight only. -/
def date : Reader Date := fun v =>
  (moment ⟨.dateFromMoment, .dateFromMoment, .dateType⟩ v).andThen fun t =>
    if t.time.micros ≠ 0 then issue .dateInexact
    else if t.date.year = 0 then issue .dateParsing
    else .valid t.date

end Read

end TenantReports
