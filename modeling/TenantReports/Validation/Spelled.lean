import TenantReports.Decimal.Numeral

/-!
Numbers as requests spell them, in ASCII digits. A whole number may have blanks around it, a plus
sign, zeros in front, single underscores, and a fraction of zeros; a floating-point number may
have either blanks around it or single underscores.
-/

namespace TenantReports.Spelled

open TenantReports.Decimal

/-- The most characters of a text that is read as a whole number. -/
def longestWhole : Nat := 4300

def startsWithNonzero (cs : List Char) : Bool := cs.head?.any fun c => c.isDigit && c != '0'

/-- How many characters the number at the start of a text takes; one with a zero in front takes
none. -/
def wholeLength : List Char → Nat
  | '-' :: digits =>
      if startsWithNonzero digits then (digits.takeWhile Char.isDigit).length + 1 else 0
  | digits => if startsWithNonzero digits then (digits.takeWhile Char.isDigit).length else 0

/-- Whether a text starts with more digits than are read. -/
def isTooLong (cs : List Char) : Bool := longestWhole < wholeLength cs

/-- Digits without a zero in front. -/
def natural? (digits : List Char) : Option Int :=
  if digits = ['0'] then some 0
  else if startsWithNonzero digits && digits.all Char.isDigit then some (Text.digitsValue digits)
  else none

/-- A whole number in its shortest spelling. -/
def shortWhole? (cs : List Char) : Option Int :=
  if isTooLong cs then none
  else
    match cs with
    | '-' :: digits => (natural? digits).map (- ·)
    | digits => natural? digits

def hasDoubleSeparator : List Char → Bool
  | '_' :: '_' :: _ => true
  | _ :: rest => hasDoubleSeparator rest
  | [] => false

/-- Removes underscores, unless one stands at an end or beside another. -/
def dropSingleSeparators (cs : List Char) : List Char :=
  if cs.head? = some '_' ∨ cs.getLast? = some '_' ∨ hasDoubleSeparator cs then cs
  else cs.filter (· ≠ '_')

/-- Drops a point and the zeros behind it. -/
def dropZeroFraction (cs : List Char) : List Char :=
  match cs.dropWhile (· ≠ '.') with
  | _ :: fraction =>
      if fraction ≠ [] ∧ fraction.all (· == '0') then cs.takeWhile (· ≠ '.') else cs
  | [] => cs

def isZeroOrSeparator (c : Char) : Bool := c == '0' || c == '_'

/-- Drops zeros in front, and the underscores among them. A zero stays where nothing, or a point,
follows. -/
def dropLeadingZeros? (cs : List Char) : Option (List Char) :=
  if cs.head? = some '0' then
    let zeros := cs.takeWhile isZeroOrSeparator
    let rest := cs.dropWhile isZeroOrSeparator
    match rest with
    | c :: _ =>
        if c.isDigit || c == '-' then some rest
        else if c = '.' ∧ zeros.getLast? = some '0' then some ('0' :: rest)
        else none
    | [] => if zeros.getLast? = some '0' then some ['0'] else none
  else if startsWithNonzero cs then some cs
  else none

/-- Takes off a sign; two signs are none. -/
def splitOneSign? : List Char → Option (List Char × List Char)
  | '+' :: '-' :: _ => none
  | '+' :: rest => some ([], rest)
  | '-' :: rest => some (['-'], rest)
  | rest => some ([], rest)

def whole? (cs : List Char) : Option Int := do
  let (sign, unsigned) ← splitOneSign? (trimNumber cs)
  let digits ← dropLeadingZeros? unsigned
  shortWhole? (sign ++ dropSingleSeparators (dropZeroFraction digits))

/-- A floating-point number without blanks or underscores. -/
def plainReal? (cs : List Char) : Option Float :=
  if cs.all fun c => c.toNat < 128 then plainFloat? cs else none

def real? (cs : List Char) : Option Float :=
  plainReal? (trimNumber cs) <|> plainReal? (dropSingleSeparators cs)

end TenantReports.Spelled
