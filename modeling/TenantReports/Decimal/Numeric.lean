import TenantReports.Decimal.Numeral

/-!
Exact decimal numbers that keep their scale, as NUMERIC columns hold them.
-/

namespace TenantReports.Decimal

open TenantReports.Text

inductive Numeric
  /-- The number `coefficient * 10 ^ exponent`; `1.0` and `1.00` differ in their exponents. -/
  | finite (negative : Bool) (coefficient : Nat) (exponent : Int)
  | infinite (negative : Bool)
  /-- Not a number; a signaling one may not be turned into another kind of number. -/
  | notANumber (negative signaling : Bool) (payload : Nat)
deriving DecidableEq, Repr

namespace Numeric

def signChars (negative : Bool) : List Char := if negative then ['-'] else []

/-- Positional where no zeros have to be put in behind the point and at most five in front of the
digits; with an exponent elsewhere. -/
def magnitudeChars (coefficient : Nat) (exponent : Int) : List Char :=
  let digits := natDigits coefficient
  let leading := exponent + digits.length - 1
  if exponent ≤ 0 ∧ -6 ≤ leading then
    let point := exponent + digits.length
    if exponent = 0 then digits
    else if point ≤ 0 then '0' :: '.' :: (List.replicate (-point).toNat '0' ++ digits)
    else digits.take point.toNat ++ '.' :: digits.drop point.toNat
  else
    let mantissa :=
      match digits with
      | [] => ['0']
      | [d] => [d]
      | d :: rest => d :: '.' :: rest
    mantissa ++ 'E' :: (if leading < 0 then '-' else '+') :: natDigits leading.natAbs

def toChars : Numeric → List Char
  | .finite negative coefficient exponent =>
      signChars negative ++ magnitudeChars coefficient exponent
  | .infinite negative => signChars negative ++ "Infinity".toList
  | .notANumber negative signaling payload =>
      signChars negative ++ (if signaling then "sNaN".toList else "NaN".toList) ++
        (if payload = 0 then [] else natDigits payload)

def toText (n : Numeric) : String := String.ofList n.toChars

/-- Reads the name of a number that is not finite. -/
def special? (negative : Bool) (name : List Char) : Option Numeric :=
  let lower := lowerAscii name
  let payload? (digits : List Char) : Option Nat :=
    if digits.all isDigit then some (digitsValue digits) else none
  if lower = "inf".toList ∨ lower = "infinity".toList then some (.infinite negative)
  else if "snan".toList.isPrefixOf lower then
    (payload? (lower.drop 4)).map (.notANumber negative true)
  else if "nan".toList.isPrefixOf lower then
    (payload? (lower.drop 3)).map (.notANumber negative false)
  else none

def ofText? (s : String) : Option Numeric :=
  let cs := (trim s.toList).filter (· ≠ '_')
  match Numeral.ofChars? cs with
  | some n => some (.finite n.negative n.coefficient n.exponent)
  | none => let (negative, name) := splitSign cs; special? negative name

def isFinite : Numeric → Bool
  | .finite _ _ _ => true
  | _ => false

/-- Zero of either sign and any scale. -/
def isZero : Numeric → Bool
  | .finite _ coefficient _ => coefficient == 0
  | _ => false

/-- The nearest floating-point number; a signaling value has none. -/
def toFloat? : Numeric → Option Float
  | .finite negative coefficient exponent =>
      some (Numeral.toFloat ⟨negative, coefficient, exponent⟩)
  | .infinite negative => some (floatOfBits (signedBits negative infinityBits))
  | .notANumber _ true _ => none
  | .notANumber _ false _ => some (floatOfBits (infinityBits + twoTo 51))

/-- The whole part of a finite number. -/
def truncate (negative : Bool) (coefficient : Nat) (exponent : Int) : Int :=
  let magnitude : Nat :=
    if 0 ≤ exponent then coefficient * tenTo exponent.toNat
    else if digitCount coefficient + exponent ≤ 0 then 0
    else coefficient / tenTo (-exponent).toNat
  if negative then -(magnitude : Int) else magnitude

end Numeric

end TenantReports.Decimal
