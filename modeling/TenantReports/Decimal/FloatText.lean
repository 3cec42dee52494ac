import TenantReports.Decimal.Binary64
import TenantReports.Decimal.Digits

/-!
How a floating-point number is written: in the fewest decimal digits that read back as it, and of
those the nearest to it. They stand positionally between `0.0001` and `10 ^ 16`, always with a
point, and with a signed exponent of two digits or more elsewhere.
-/

namespace TenantReports.Decimal

/-! The shortest digits -/

/-- The `k` with `10 ^ (k - 1) ≤ num / den < 10 ^ k`. -/
def decimalPoint (num den : Nat) : Int :=
  let guess : Int := (digitCount num : Int) - digitCount den
  let above : Bool :=
    if 0 ≤ guess then den * tenTo guess.toNat ≤ num else den ≤ num * tenTo (-guess).toNat
  if above then guess + 1 else guess

/-- A decimal fraction `digits * 10 ^ exponent` as a quotient. -/
def decimalRatio (digits : Nat) (exponent : Int) : Nat × Nat :=
  if 0 ≤ exponent then (digits * tenTo exponent.toNat, 1) else (digits, tenTo (-exponent).toNat)

/-- Whether a decimal fraction reads back as the number with the given bits. -/
def readsBack (bits digits : Nat) (exponent : Int) : Bool :=
  let ratio := decimalRatio digits exponent
  nearestBits ratio.1 ratio.2 == bits

/-- The neighbour of `num / den` on the grid of multiples of `10 ^ exponent` that reads back as
`bits`; of two the nearer, and of two equally near the even one. -/
def gridPoint? (bits num den : Nat) (exponent : Int) : Option Nat :=
  let scaled :=
    if 0 ≤ exponent then (num, den * tenTo exponent.toNat)
    else (num * tenTo (-exponent).toNat, den)
  let low := scaled.1 / scaled.2
  match readsBack bits low exponent, readsBack bits (low + 1) exponent with
  | true, true => some (roundHalfEven scaled.1 scaled.2)
  | true, false => some low
  | false, true => some (low + 1)
  | false, false => none

/-- Tries grids of one digit more each time, `fuel` grids at most. -/
def shortestFrom (bits num den : Nat) (exponent : Int) : (fuel : Nat) → Nat × Int
  | 0 => ((if 0 ≤ exponent then num / (den * tenTo exponent.toNat)
            else num * tenTo (-exponent).toNat / den), exponent)
  | fuel + 1 =>
      match gridPoint? bits num den exponent with
      | some digits => (digits, exponent)
      | none => shortestFrom bits num den (exponent - 1) fuel

/-- Digits and exponent of the shortest decimal fraction that reads back as `num / den`, where
`num / den` is the positive number with the given bits. Seventeen digits always suffice. -/
def shortest (bits num den : Nat) : Nat × Int :=
  shortestFrom bits num den (decimalPoint num den - 1) 17

/-! Their layout -/

/-- The conventions by which a floating-point number is written. -/
structure FloatStyle where
  /-- Least exponent of the leading digit that is written positionally. -/
  lowest : Int
  /-- Least exponent of the leading digit that is written with an exponent again. -/
  highest : Int
  exponentDigits : Nat
  notANumber : String
  infinite : String

def floatStyle : FloatStyle := ⟨-4, 16, 2, "nan", "inf"⟩

def dropTrailingZeros (digits : List Char) : List Char :=
  match (digits.reverse.dropWhile (· == '0')).reverse with
  | [] => ['0']
  | rest => rest

/-- Digits with the point behind the first `point` of them; zeros fill what is missing. -/
def positional (digits : List Char) (point : Int) : List Char :=
  if point ≤ 0 then '0' :: '.' :: (List.replicate (-point).toNat '0' ++ digits)
  else
    let whole := digits.take point.toNat
    let rest := digits.drop point.toNat
    whole ++ List.replicate (point.toNat - whole.length) '0' ++
      '.' :: (if rest = [] then ['0'] else rest)

/-- One digit, the others behind a point, and the exponent. -/
def scientific (style : FloatStyle) (digits : List Char) (exponent : Int) : List Char :=
  let mantissa :=
    match digits with
    | [] => ['0']
    | [d] => [d]
    | d :: rest => d :: '.' :: rest
  let sign := if exponent < 0 then '-' else '+'
  mantissa ++ 'e' :: sign :: padded style.exponentDigits exponent.natAbs

def magnitudeText (style : FloatStyle) (bits : Nat) (b : Binary) : List Char :=
  if b.mantissa = 0 then ['0', '.', '0']
  else
    let ratio := b.ratio
    let (digits, exponent) := shortest bits ratio.1 ratio.2
    let all := natDigits digits
    let leading := exponent + all.length - 1
    let kept := dropTrailingZeros all
    if style.lowest ≤ leading && leading < style.highest then positional kept (leading + 1)
    else scientific style kept leading

def floatChars (style : FloatStyle) (x : Float) : List Char :=
  let bits := x.toBits.toNat
  let negative := bits / twoTo 63 % 2 == 1
  match Binary.ofBits? bits with
  | some b =>
      let magnitude := magnitudeText style (bits % twoTo 63) b
      if negative then '-' :: magnitude else magnitude
  | none =>
      if bits % twoTo 52 ≠ 0 then style.notANumber.toList
      else if negative then '-' :: style.infinite.toList
      else style.infinite.toList

def floatText (x : Float) : String := String.ofList (floatChars floatStyle x)

end TenantReports.Decimal
