import TenantReports.Fault

/-!
Reading values as numbers. Numbers, truth values, and texts or bytes that spell a number can be
read; other values cannot.
-/

namespace TenantReports

open TenantReports.Decimal

namespace Value

/-- Bytes as characters, one for each. -/
def byteChars (content : List UInt8) : List Char :=
  content.map fun byte => Char.ofNat byte.toNat

/-- Bytes beyond ASCII spell no number. -/
def asciiChars? (content : List UInt8) : Option (List Char) :=
  if content.all fun byte => byte.toNat < 128 then some (byteChars content) else none

def wholeOfChars (given : Value) (cs : List Char) : Result Int :=
  match intOfChars? cs with
  | some n =>
      let count := intDigitCount cs
      if NumberFault.digitLimit < count then .error (.number (.tooManyDigits count)) else .ok n
  | none => .error (.number (.notWhole given))

def wholeOfFloat (x : Float) : Result Int :=
  match Binary.ofFloat? x with
  | some b => .ok b.truncate
  | none => .error (.number (if x == x then .infiniteFloat else .undefinedFloat))

def wholeOfNumeric : Numeric → Result Int
  | .finite negative coefficient exponent => .ok (Numeric.truncate negative coefficient exponent)
  | .infinite _ => .error (.number .infiniteNumeric)
  | .notANumber _ _ _ => .error (.number .undefinedNumeric)

/-- A value as a whole number; fractions are cut off. -/
def toWhole (v : Value) : Result Int :=
  match v with
  | bool b => .ok (if b then 1 else 0)
  | int n => .ok n
  | float x => wholeOfFloat x
  | numeric n => wholeOfNumeric n
  | text s => wholeOfChars v s.toList
  | bytes content | view content =>
      match asciiChars? content with
      | some cs => wholeOfChars (.bytes content) cs
      | none => .error (.number (.notWhole (.bytes content)))
  | uuid id => .ok id.value
  | _ => .error .mistyped

def floatOfWhole (n : Int) : Result Float :=
  if Numeral.isFinite ⟨n < 0, n.natAbs, 0⟩ then .ok (nearest (n < 0) n.natAbs 1)
  else .error (.number .tooLargeForFloat)

def realOfChars (given : Value) (cs : List Char) : Result Float :=
  match floatOfChars? cs with
  | some x => .ok x
  | none => .error (.number (.notReal given))

def realOfNumeric (n : Numeric) : Result Float :=
  match n.toFloat? with
  | some x => .ok x
  | none => .error (.number .signaling)

/-- A value as a floating-point number. -/
def toReal (v : Value) : Result Float :=
  match v with
  | bool b => .ok (if b then 1.0 else 0.0)
  | int n => floatOfWhole n
  | float x => .ok x
  | numeric n => realOfNumeric n
  | text s => realOfChars v s.toList
  | bytes content | view content =>
      match asciiChars? content with
      | some cs => realOfChars (.bytes content) cs
      | none => .error (.number (.notReal (.bytes content)))
  | _ => .error .mistyped

/-- Whole, floating-point and exact decimal numbers; truth values are none. -/
def isNumber : Value → Bool
  | int _ | float _ | numeric _ => true
  | _ => false

end Value

end TenantReports
