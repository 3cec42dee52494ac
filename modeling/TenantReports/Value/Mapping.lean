import TenantReports.Value.Basic

/-!
Looking up and replacing the entries of a mapping. Numbers of different kinds are one key when
they are equal as numbers, and so are times that denote one point in universal time. Changes to the
columns of a row are a mapping: a column that no change names keeps its value; a column that must
not be null refuses a change to null.
-/

namespace TenantReports

open TenantReports.Decimal

namespace Value

/-- A number as a fraction with a sign, or an infinity. -/
inductive Magnitude
  | fraction (num : Int) (den : Nat)
  | infinite (negative : Bool)

def Magnitude.same : Magnitude → Magnitude → Bool
  | .fraction a b, .fraction c d => a * d == c * b
  | .infinite a, .infinite b => a == b
  | _, _ => false

def signed (negative : Bool) (n : Nat) : Int := if negative then -(n : Int) else n

def floatMagnitude? (x : Float) : Option Magnitude :=
  match Binary.ofFloat? x with
  | some b => some (.fraction (signed b.negative b.ratio.1) b.ratio.2)
  | none => if x == x then some (.infinite (x < 0.0)) else none

def numericMagnitude? : Numeric → Option Magnitude
  | .finite negative coefficient exponent =>
      let ratio := decimalRatio coefficient exponent
      some (.fraction (signed negative ratio.1) ratio.2)
  | .infinite negative => some (.infinite negative)
  | .notANumber _ _ _ => none

def magnitude? : Value → Option Magnitude
  | bool b => some (.fraction (if b then 1 else 0) 1)
  | int n => some (.fraction n 1)
  | float x => floatMagnitude? x
  | numeric n => numericMagnitude? n
  | _ => none

def sameTime (a b : ZonedTime) : Bool :=
  match a.offset, b.offset with
  | none, none => a.time == b.time
  | some x, some y => (a.time.micros : Int) - x == (b.time.micros : Int) - y
  | _, _ => false

def sameDateTime (a b : DateTime) : Bool :=
  match a.universal?, b.universal? with
  | some x, some y => x == y
  | none, none => a == b
  | _, _ => false

def content? : Value → Option (List UInt8)
  | bytes content | view content => some content
  | _ => none

/-- Whether two values that hold no others are one key. -/
def sameLeaf (a b : Value) : Bool :=
  match a, b with
  | null, null => true
  | text s, text t => s == t
  | date d, date e => d == e
  | dateTime t, dateTime u => sameDateTime t u
  | time t, time u => sameTime t u
  | duration d, duration e => d == e
  | uuid i, uuid j => i == j
  | _, _ =>
      match magnitude? a, magnitude? b, content? a, content? b with
      | some x, some y, _, _ => x.same y
      | _, _, some x, some y => x == y
      | _, _, _, _ => false

mutual

/-- Whether two values are one key of a mapping. -/
def sameKey : Value → Value → Bool
  | tuple xs, other =>
      match other with
      | tuple ys => sameKeys xs ys
      | _ => false
  | a, b => sameLeaf a b

def sameKeys : List Value → List Value → Bool
  | [], ys => ys.isEmpty
  | x :: xs, ys =>
      match ys with
      | y :: ys => sameKey x y && sameKeys xs ys
      | [] => false

end

mutual

/-- Whether a value can be a key of a mapping. -/
def isKey : Value → Bool
  | list _ | mapping _ => false
  | numeric (.notANumber _ signaling _) => !signaling
  | tuple items => allKeys items
  | _ => true

def allKeys : List Value → Bool
  | [] => true
  | item :: items => isKey item && allKeys items

end

end Value

/-- The entries of a mapping, in the order in which their keys came first. -/
abbrev Entries := List (Value × Value)

namespace Entries

def get? (entries : Entries) (key : Value) : Option Value :=
  (entries.find? fun entry => entry.1.sameKey key).map (·.2)

def has (entries : Entries) (key : Value) : Bool :=
  entries.any fun entry => entry.1.sameKey key

/-- Gives a key a value. A key that was there keeps its place. -/
def put (entries : Entries) (key value : Value) : Entries :=
  if entries.has key then
    entries.map fun entry => if entry.1.sameKey key then (entry.1, value) else entry
  else entries ++ [(key, value)]

def ofPairs (pairs : List (Value × Value)) : Entries :=
  pairs.foldl (fun entries pair => entries.put pair.1 pair.2) []

/-- The value of the key that is the text `name`. -/
def field? (entries : Entries) (name : String) : Option Value := entries.get? (.text name)

/-- The value of a text key, or null. -/
def field (entries : Entries) (name : String) : Value := (entries.field? name).getD .null

end Entries

/-- The text that bytes encode. -/
def textOfBytes? (content : List UInt8) : Option String := String.fromUTF8? ⟨content.toArray⟩

/-- The text that a value is, or that its bytes encode. -/
def Value.spelled? : Value → Option String
  | .text s => some s
  | .bytes content => textOfBytes? content
  | _ => none

/-- A mapping with text keys. -/
def Value.record (fields : List (String × Value)) : Value :=
  .mapping (fields.map fun field => (.text field.1, field.2))

/-- What may be missing: null where it is. -/
def Value.orNull {α : Type} (f : α → Value) : Option α → Value
  | some a => f a
  | none => .null

/-- The text of an identifier. -/
def Value.ofId (id : Uuid) : Value := .text id.toText

def Value.texts (items : List String) : Value := .list (items.map .text)

/-! Changes -/

namespace Change

def textColumn (changes : Entries) (name old : String) : Option String :=
  match changes.field? name with
  | none => some old
  | some (.text s) => some s
  | some _ => none

def optionalTextColumn (changes : Entries) (name : String) (old : Option String) :
    Option String :=
  match changes.field? name with
  | none => old
  | some (.text s) => some s
  | some _ => none

def flagColumn (changes : Entries) (name : String) (old : Bool) : Option Bool :=
  match changes.field? name with
  | none => some old
  | some (.bool b) => some b
  | some _ => none

/-- A column that holds a document, which may be null. -/
def documentColumn (changes : Entries) (name : String) (old : Value) : Value :=
  (changes.field? name).getD old

end Change

end TenantReports
