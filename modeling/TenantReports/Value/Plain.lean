import TenantReports.Fault
import TenantReports.Value.Mapping
import TenantReports.Value.Number

/-!
Plain values: null, truth values, numbers, texts, lists, and mappings with text keys. Every other
value has a plain form.
-/

namespace TenantReports

open TenantReports.Decimal

namespace Value

mutual

/-- Whether a value is made of plain parts only. -/
def isPlain : Value → Bool
  | null | bool _ | int _ | float _ | text _ => true
  | list items => allPlain items
  | mapping entries => entriesPlain entries
  | _ => false

def allPlain : List Value → Bool
  | [] => true
  | item :: items => isPlain item && allPlain items

def entriesPlain : List (Value × Value) → Bool
  | [] => true
  | (.text _, value) :: entries => isPlain value && entriesPlain entries
  | _ => false

end

mutual

/-- Whether all floating-point numbers in a value are finite. -/
def isFinite : Value → Bool
  | float x => (Binary.ofFloat? x).isSome
  | list items => allFinite items
  | mapping entries => entriesFinite entries
  | _ => true

def allFinite : List Value → Bool
  | [] => true
  | item :: items => isFinite item && allFinite items

def entriesFinite : List (Value × Value) → Bool
  | [] => true
  | (_, value) :: entries => isFinite value && entriesFinite entries

end

mutual

/-- The plain form: exact decimals become floating-point numbers, times their ISO texts, spans
their seconds, bytes their hexadecimal digits, and keys their texts. -/
def toPlain : Value → Result Value
  | list items | tuple items => do return .list (← itemsToPlain items)
  | mapping entries => do return .mapping (Entries.ofPairs (← entriesToPlain entries))
  | uuid id => .ok (.text id.toText)
  | numeric n => do return .float (← realOfNumeric n)
  | date d => .ok (.text d.toText)
  | dateTime t => .ok (.text t.toText)
  | time t => .ok (.text t.toText)
  | duration d => .ok (.float d.seconds)
  | bytes content | view content => .ok (.text (String.ofList (Text.hexOfBytes content)))
  | null => .ok null
  | bool b => .ok (bool b)
  | int n => .ok (int n)
  | float x => .ok (float x)
  | text s => .ok (text s)

def itemsToPlain : List Value → Result (List Value)
  | [] => .ok []
  | item :: items => do
      let item ← toPlain item
      return item :: (← itemsToPlain items)

def entriesToPlain : List (Value × Value) → Result (List (Value × Value))
  | [] => .ok []
  | (key, value) :: entries => do
      let value ← toPlain value
      return (.text key.plainText, value) :: (← entriesToPlain entries)

end

end Value

/-- The plain forms of rows. -/
def rowsToPlain (rows : List Entries) : Result (List Entries) :=
  rows.mapM fun row => do return Entries.ofPairs (← Value.entriesToPlain row)

end TenantReports
