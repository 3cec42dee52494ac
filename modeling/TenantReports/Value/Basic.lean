import TenantReports.Calendar.Iso
import TenantReports.Decimal.FloatText
import TenantReports.Decimal.Numeric
import TenantReports.Text.Quoted
import TenantReports.Uuid

/-!
The values that requests carry and that report queries return, with the two texts of a value: as
it stands by itself, and as a message or a container shows it.
-/

namespace TenantReports

open TenantReports.Decimal

inductive Value
  | null
  | bool (b : Bool)
  | int (n : Int)
  | float (x : Float)
  | numeric (n : Numeric)
  | text (s : String)
  | list (items : List Value)
  | tuple (items : List Value)
  | mapping (entries : List (Value × Value))
  | date (d : Date)
  | dateTime (t : DateTime)
  | time (t : ZonedTime)
  | duration (d : Duration)
  | uuid (id : Uuid)
  | bytes (content : List UInt8)
  /-- Bytes that are only lent. -/
  | view (content : List UInt8)
deriving Inhabited

namespace Value

/-- The name of a value's type, as column descriptions and messages give it. -/
def typeName : Value → String
  | null => "NoneType"
  | bool _ => "bool"
  | int _ => "int"
  | float _ => "float"
  | numeric _ => "Decimal"
  | text _ => "str"
  | list _ => "list"
  | tuple _ => "tuple"
  | mapping _ => "dict"
  | date _ => "date"
  | dateTime _ => "datetime"
  | time _ => "time"
  | duration _ => "timedelta"
  | uuid _ => "UUID"
  | bytes _ => "bytes"
  | view _ => "memoryview"

/-- Whether a value counts as given: null, false, zero and what is empty do not. -/
def isTruthy : Value → Bool
  | null => false
  | bool b => b
  | int n => n != 0
  | float x => x != 0.0
  | numeric n => !n.isZero
  | text s => s != ""
  | list items | tuple items => !items.isEmpty
  | mapping entries => !entries.isEmpty
  | duration d => d.micros != 0
  | bytes content | view content => !content.isEmpty
  | date _ | dateTime _ | time _ | uuid _ => true

/-- A value without its type name would read as a number or a word, so messages add it. -/
def tagged (name : String) (parts : List (List Char)) : List Char :=
  name.toList ++ '(' :: List.intercalate [',', ' '] parts ++ [')']

def field (name : String) (n : Int) : List Char := name.toList ++ '=' :: intDigits n

/-- A span by its parts, the zero ones left out. -/
def durationParts (d : Duration) : List (List Char) :=
  let seconds : Nat := d.withinDay / microsPerSecond
  let micros : Nat := d.withinDay % microsPerSecond
  let parts :=
    (if d.days = 0 then [] else [field "days" d.days]) ++
    (if seconds = 0 then [] else [field "seconds" seconds]) ++
    (if micros = 0 then [] else [field "microseconds" micros])
  if parts = [] then [['0']] else parts

def durationShown (d : Duration) : List Char := tagged "datetime.timedelta" (durationParts d)

def offsetShown (micros : Int) : List Char :=
  if micros = 0 then "datetime.timezone.utc".toList
  else tagged "datetime.timezone" [durationShown ⟨micros⟩]

def dateParts (d : Date) : List (List Char) :=
  [natDigits d.year, natDigits d.month, natDigits d.day]

/-- Hours and minutes always; seconds and microseconds only where they count. -/
def timeParts (t : TimeOfDay) : List (List Char) :=
  [natDigits t.hour, natDigits t.minute] ++
    (if t.second = 0 ∧ t.micro = 0 then [] else [natDigits t.second]) ++
    (if t.micro = 0 then [] else [natDigits t.micro])

def offsetParts (offset : Option Int) : List (List Char) :=
  match offset with
  | some micros => ["tzinfo=".toList ++ offsetShown micros]
  | none => []

def zoneOffset : Zone → Option Int
  | .offset micros => some micros
  | _ => none

mutual

/-- A value as containers and messages show it. -/
def shownChars : Value → List Char
  | null => "None".toList
  | bool b => if b then "True".toList else "False".toList
  | int n => intDigits n
  | float x => floatChars floatStyle x
  | numeric n => tagged "Decimal" [Text.quoted n.toChars]
  | text s => Text.quoted s.toList
  | list items => '[' :: List.intercalate [',', ' '] (shownItems items) ++ [']']
  | tuple items =>
      match items with
      | [item] => '(' :: shownChars item ++ [',', ')']
      | items => '(' :: List.intercalate [',', ' '] (shownItems items) ++ [')']
  | mapping entries =>
      '\x7b' :: List.intercalate [',', ' '] (shownEntries entries) ++ ['\x7d']
  | date d => tagged "datetime.date" (dateParts d)
  | dateTime t =>
      tagged "datetime.datetime" (dateParts t.date ++ timeParts t.time ++
        offsetParts (zoneOffset t.zone))
  | time t => tagged "datetime.time" (timeParts t.time ++ offsetParts t.offset)
  | duration d => durationShown d
  | uuid id => tagged "UUID" [Text.quoted id.toChars]
  | bytes content => Text.quotedBytes content
  | view _ => "<memory>".toList

def shownItems : List Value → List (List Char)
  | [] => []
  | item :: items => shownChars item :: shownItems items

def shownEntries : List (Value × Value) → List (List Char)
  | [] => []
  | (key, value) :: entries =>
      (shownChars key ++ ':' :: ' ' :: shownChars value) :: shownEntries entries

end

/-- A span as days, and hours, minutes and seconds. -/
def durationChars (d : Duration) : List Char :=
  let t := TimeOfDay.ofMicros d.withinDay
  let plural := if d.days.natAbs = 1 then [] else ['s']
  (if d.days = 0 then [] else intDigits d.days ++ " day".toList ++ plural ++ [',', ' ']) ++
    natDigits t.hour ++ ':' :: padded 2 t.minute ++ ':' :: padded 2 t.second ++
    (if t.micro = 0 then [] else '.' :: padded 6 t.micro)

/-- A value as a text of its own. -/
def plainChars : Value → List Char
  | text s => s.toList
  | numeric n => n.toChars
  | date d => d.toChars
  | dateTime t => t.toChars ' '
  | time t => t.toText.toList
  | duration d => durationChars d
  | uuid id => id.toChars
  | other => shownChars other

def shown (v : Value) : String := String.ofList v.shownChars

def plainText (v : Value) : String := String.ofList v.plainChars

end Value

end TenantReports
