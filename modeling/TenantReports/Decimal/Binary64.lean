import TenantReports.Decimal.Digits

/-!
Sixty-four-bit floating-point numbers as exact fractions, and the nearest one to a fraction.
-/

namespace TenantReports.Decimal

/-- A finite binary fraction: `mantissa * 2 ^ exponent`, with a sign. -/
structure Binary where
  negative : Bool
  mantissa : Nat
  exponent : Int

namespace Binary

/-- The fraction whose bits are given, unless they stand for an infinity or for no number. -/
def ofBits? (bits : Nat) : Option Binary :=
  let negative := bits / twoTo 63 % 2 == 1
  let exponent : Nat := bits / twoTo 52 % twoTo 11
  let fraction : Nat := bits % twoTo 52
  if exponent = 0x7FF then none
  else if exponent = 0 then some ⟨negative, fraction, -1074⟩
  else some ⟨negative, fraction + twoTo 52, (exponent : Int) - 1075⟩

def ofFloat? (x : Float) : Option Binary := ofBits? x.toBits.toNat

/-- The magnitude as a quotient. -/
def ratio (b : Binary) : Nat × Nat :=
  if 0 ≤ b.exponent then (b.mantissa * twoTo b.exponent.toNat, 1)
  else (b.mantissa, twoTo (-b.exponent).toNat)

/-- The whole part, without the digits behind the point. -/
def truncate (b : Binary) : Int :=
  let magnitude := b.ratio.1 / b.ratio.2
  if b.negative then -magnitude else magnitude

def isWhole (b : Binary) : Bool := b.ratio.1 % b.ratio.2 == 0

end Binary

/-- A quotient rounded to a whole number; a half goes to the even neighbour. -/
def roundHalfEven (num den : Nat) : Nat :=
  let whole := num / den
  let rest := num % den
  if 2 * rest < den then whole
  else if den < 2 * rest then whole + 1
  else if whole % 2 = 0 then whole else whole + 1

def infinityBits : Nat := 0x7FF * twoTo 52

/-- The power of two that is the last place of the number nearest to `num / den`. -/
def lastPlace (num den : Nat) : Int :=
  let guess : Int := (Nat.log2 num : Int) - Nat.log2 den - 52
  let below : Bool :=
    if 0 ≤ guess then num < den * twoTo (guess.toNat + 52)
    else num * twoTo (-guess).toNat < den * twoTo 52
  max (-1074) (if below then guess - 1 else guess)

/-- The bits of the number nearest to `num / den`: ties go to the even mantissa, and what is
half a place or more above the greatest number is infinite. -/
def nearestBits (num den : Nat) : Nat :=
  if num = 0 then 0
  else
    let place := lastPlace num den
    let mantissa :=
      if 0 ≤ place then roundHalfEven num (den * twoTo place.toNat)
      else roundHalfEven (num * twoTo (-place).toNat) den
    let carried := if mantissa = twoTo 53 then twoTo 52 else mantissa
    let place := if mantissa = twoTo 53 then place + 1 else place
    if carried < twoTo 52 then carried
    else if 971 < place then infinityBits
    else (place + 1075).toNat * twoTo 52 + (carried - twoTo 52)

def signedBits (negative : Bool) (bits : Nat) : Nat :=
  if negative then bits + twoTo 63 else bits

def floatOfBits (bits : Nat) : Float := Float.ofBits (UInt64.ofNat bits)

/-- The number nearest to a fraction with a sign. -/
def nearest (negative : Bool) (num den : Nat) : Float :=
  floatOfBits (signedBits negative (nearestBits num den))

end TenantReports.Decimal
