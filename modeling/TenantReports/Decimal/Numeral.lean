import TenantReports.Decimal.Binary64
import TenantReports.Decimal.Digits
import TenantReports.Text.Basic
import TenantReports.Text.Digit

/-!
Numerals: an optional sign, decimal digits of any script with at most one point among them, and
an optional exponent.
-/

namespace TenantReports.Decimal

open TenantReports.Text

/-- The number `coefficient * 10 ^ exponent`, with a sign. -/
structure Numeral where
  negative : Bool
  coefficient : Nat
  exponent : Int
deriving DecidableEq, Repr

/-- Splits off a sign; without one the number is positive. -/
def splitSign : List Char → Bool × List Char
  | '-' :: rest => (true, rest)
  | '+' :: rest => (false, rest)
  | rest => (false, rest)

/-- The number written behind an exponent mark: a sign and at least one digit. -/
def signedDigits? (cs : List Char) : Option Int :=
  let (negative, digits) := splitSign cs
  if digits ≠ [] ∧ digits.all isDigit then
    some (if negative then -(digitsValue digits : Int) else digitsValue digits)
  else none

/-- The exponent that `cs` states: zero when nothing is left. -/
def exponentPart? : List Char → Option Int
  | [] => some 0
  | c :: rest => if c = 'e' ∨ c = 'E' then signedDigits? rest else none

namespace Numeral

/-- The number between sign and exponent, as whole digits, digits behind the point, and the rest. -/
def splitMagnitude (cs : List Char) : Option (List Char × List Char × List Char) :=
  let whole := cs.takeWhile isDigit
  match cs.dropWhile isDigit with
  | '.' :: rest =>
      let fraction := rest.takeWhile isDigit
      if whole = [] ∧ fraction = [] then none
      else some (whole, fraction, rest.dropWhile isDigit)
  | rest => if whole = [] then none else some (whole, [], rest)

/-- Reads a whole text as a numeral. -/
def ofChars? (cs : List Char) : Option Numeral := do
  let (negative, unsigned) := splitSign cs
  let (whole, fraction, rest) ← splitMagnitude unsigned
  let exponent ← exponentPart? rest
  return ⟨negative, digitsValue (whole ++ fraction), exponent - fraction.length⟩

/-- The position of the leading digit: the number is below `10 ^ magnitude`. -/
def magnitude (n : Numeral) : Int := digitCount n.coefficient + n.exponent

/-- The floating-point number nearest to the numeral; one far outside their range is not
worked out digit by digit. -/
def toFloat (n : Numeral) : Float :=
  if n.coefficient = 0 ∨ n.magnitude < -400 then floatOfBits (signedBits n.negative 0)
  else if 400 < n.magnitude then floatOfBits (signedBits n.negative infinityBits)
  else if 0 ≤ n.exponent then nearest n.negative (n.coefficient * tenTo n.exponent.toNat) 1
  else nearest n.negative n.coefficient (tenTo (-n.exponent).toNat)

/-- Half a place above the greatest floating-point number. -/
def overflowBound : Nat := twoTo 1024 - twoTo 970

/-- Whether some finite floating-point number is nearest to the numeral. -/
def isFinite (n : Numeral) : Bool :=
  if n.coefficient = 0 ∨ n.magnitude < -400 then true
  else if 400 < n.magnitude then false
  else if 0 ≤ n.exponent then n.coefficient * tenTo n.exponent.toNat < overflowBound
  else n.coefficient < overflowBound * tenTo (-n.exponent).toNat

end Numeral

/-- Blanks that may stand around a number; the four information separators may not. -/
def isNumberBlank (c : Char) : Bool := isBlank c && !(0x1C ≤ c.toNat && c.toNat ≤ 0x1F)

def trimNumber (cs : List Char) : List Char :=
  ((cs.dropWhile isNumberBlank).reverse.dropWhile isNumberBlank).reverse

/-- Removes underscores, each of which has to stand between two digits. -/
def dropSeparators : (afterDigit : Bool) → List Char → Option (List Char)
  | _, [] => some []
  | afterDigit, '_' :: rest =>
      match rest with
      | d :: _ => if afterDigit && isDigit d then dropSeparators false rest else none
      | [] => none
  | _, c :: rest => (dropSeparators (isDigit c) rest).map (c :: ·)

/-- Reads a whole number: blanks around it, a sign, and single underscores between digits. -/
def intOfChars? (cs : List Char) : Option Int :=
  (dropSeparators false (trimNumber cs)).bind signedDigits?

/-- How many digits a text that reads as a whole number has. -/
def intDigitCount (cs : List Char) : Nat := (cs.filter isDigit).length

def lowerAscii (cs : List Char) : List Char := cs.map Char.toLower

/-- Reads a floating-point number without blanks or underscores: a numeral, or the name of an
infinity or of no number. -/
def plainFloat? (cs : List Char) : Option Float :=
  let (negative, unsigned) := splitSign cs
  let name := lowerAscii unsigned
  if name = "inf".toList ∨ name = "infinity".toList then
    some (floatOfBits (signedBits negative infinityBits))
  else if name = "nan".toList then some (floatOfBits (infinityBits + twoTo 51))
  else (Numeral.ofChars? cs).map Numeral.toFloat

/-- Reads a floating-point number: blanks around it, and single underscores between digits. -/
def floatOfChars? (cs : List Char) : Option Float :=
  (dropSeparators false (trimNumber cs)).bind plainFloat?

end TenantReports.Decimal
