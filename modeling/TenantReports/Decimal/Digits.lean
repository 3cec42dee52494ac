/-!
Powers of the two bases of numbers, and whole numbers in base ten.
-/

namespace TenantReports.Decimal

def twoTo (exponent : Nat) : Nat := Nat.pow 2 exponent

def tenTo (exponent : Nat) : Nat := Nat.pow 10 exponent

def natDigits (n : Nat) : List Char := Nat.toDigits 10 n

/-- How many digits a number has; zero has one. -/
def digitCount (n : Nat) : Nat := (natDigits n).length

def natText (n : Nat) : String := String.ofList (natDigits n)

def intDigits (n : Int) : List Char :=
  if n < 0 then '-' :: natDigits n.natAbs else natDigits n.natAbs

def intText (n : Int) : String := String.ofList (intDigits n)

/-- A number with at least `width` digits, filled with zeros in front. -/
def padded (width n : Nat) : List Char :=
  List.replicate (width - digitCount n) '0' ++ natDigits n

end TenantReports.Decimal
