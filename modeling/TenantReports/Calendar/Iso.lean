import TenantReports.Calendar.DateTime
import TenantReports.Text.Digit

/-!
Dates and times in the extended ISO 8601 format.
-/

namespace TenantReports

open TenantReports.Decimal (padded tenTo)

/-- Hours, minutes and seconds, and the fraction when there is one. -/
def TimeOfDay.toChars (t : TimeOfDay) : List Char :=
  padded 2 t.hour ++ ':' :: padded 2 t.minute ++ ':' :: padded 2 t.second ++
    (if t.micro = 0 then [] else '.' :: padded 6 t.micro)

/-- An offset as a sign, hours and minutes; seconds and their fraction only where they count. -/
def offsetChars (micros : Int) : List Char :=
  let t := TimeOfDay.ofMicros micros.natAbs
  (if micros < 0 then '-' else '+') :: padded 2 t.hour ++ ':' :: padded 2 t.minute ++
    (if t.second = 0 ∧ t.micro = 0 then []
     else ':' :: padded 2 t.second ++ (if t.micro = 0 then [] else '.' :: padded 6 t.micro))

def ZonedTime.toText (t : ZonedTime) : String :=
  String.ofList (t.time.toChars ++ (t.offset.map offsetChars).getD [])

namespace DateTime

def zoneChars : Zone → List Char
  | .offset micros => offsetChars micros
  | _ => []

/-- Date and time with a separator between them, and the offset where the zone states one. -/
def toChars (separator : Char) (t : DateTime) : List Char :=
  t.date.toChars ++ separator :: t.time.toChars ++ zoneChars t.zone

def toText (t : DateTime) : String := String.ofList (t.toChars 'T')

/-- The date and the time of day alone. -/
def wallText (t : DateTime) : String := { t with zone := .naive }.toText

end DateTime

namespace Iso

def asciiDigit? (c : Char) : Option Nat :=
  if '0' ≤ c ∧ c ≤ '9' then some (c.toNat - 48) else none

/-- Exactly `width` digits, and what follows them. -/
def number? : (width : Nat) → List Char → Option (Nat × List Char)
  | 0, cs => some (0, cs)
  | width + 1, cs => do
      let c ← cs.head?
      let d ← asciiDigit? c
      let (value, rest) ← number? width cs.tail
      return (d * tenTo width + value, rest)

def skip? (c : Char) : List Char → Option (List Char)
  | d :: rest => if c = d then some rest else none
  | [] => none

def date? (cs : List Char) : Option (Date × List Char) := do
  let (year, cs) ← number? 4 cs
  let cs ← skip? '-' cs
  let (month, cs) ← number? 2 cs
  let cs ← skip? '-' cs
  let (day, cs) ← number? 2 cs
  let date : Date := ⟨year, month, day⟩
  if date.IsValid then return (date, cs) else none

/-- Digits behind a point as microseconds; digits beyond the sixth are dropped. -/
def fraction? (cs : List Char) : Option (Nat × List Char) :=
  match cs with
  | '.' :: rest | ',' :: rest =>
      let digits := rest.takeWhile (asciiDigit? · |>.isSome)
      if digits = [] then none
      else
        let kept := digits.take 6
        some (TenantReports.Text.digitsValue kept * tenTo (6 - kept.length),
          rest.drop digits.length)
  | _ => some (0, cs)

/-- Hours and minutes, then seconds with their fraction where they are written. -/
def time? (cs : List Char) : Option (TimeOfDay × List Char) := do
  let (hour, cs) ← number? 2 cs
  let cs ← skip? ':' cs
  let (minute, cs) ← number? 2 cs
  let (second, micro, cs) ←
    match cs with
    | ':' :: rest => do
        let (second, rest) ← number? 2 rest
        let (micro, rest) ← fraction? rest
        pure (second, micro, rest)
    | rest => pure (0, 0, rest)
  let time : TimeOfDay := ⟨hour, minute, second, micro⟩
  if time.IsValid then return (time, cs) else none

def offset? (cs : List Char) : Option (Option Int) :=
  match cs with
  | [] => some none
  | ['Z'] => some (some 0)
  | '+' :: rest =>
      match time? rest with
      | some (t, []) => some (some t.micros)
      | _ => none
  | '-' :: rest =>
      match time? rest with
      | some (t, []) => some (some (-(t.micros : Int)))
      | _ => none
  | _ => none

end Iso

def Date.ofText? (s : String) : Option Date :=
  match Iso.date? s.toList with
  | some (date, []) => some date
  | _ => none

def ZonedTime.ofText? (s : String) : Option ZonedTime := do
  let (time, rest) ← Iso.time? s.toList
  let offset ← Iso.offset? rest
  return ⟨time, offset⟩

/-- Reads date and time with any one character between them; a date alone is midnight. -/
def DateTime.ofText? (s : String) : Option DateTime := do
  let (date, rest) ← Iso.date? s.toList
  match rest with
  | [] => return ⟨date, ⟨0, 0, 0, 0⟩, .naive⟩
  | _ :: rest =>
      let (time, rest) ← Iso.time? rest
      let offset ← Iso.offset? rest
      return ⟨date, time, (offset.map Zone.offset).getD .naive⟩

end TenantReports
