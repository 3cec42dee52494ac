import TenantReports.Decimal.Digits
import TenantReports.Text.Hex

/-!
Universally unique identifiers: their canonical text, and the texts they are read from.
-/

namespace TenantReports

/-- An identifier of 128 bits. -/
structure Uuid where
  value : Nat
deriving DecidableEq, Repr, Inhabited

namespace Uuid

open TenantReports.Text
open TenantReports.Decimal (twoTo)

/-- How many digits stand in the first group: eight, or as many as it takes to lose none. -/
def leadingWidth (id : Uuid) : Nat := max 8 ((id.value / twoTo 96).log2 / 4 + 1)

/-- Groups of eight, four, four, four and twelve digits with hyphens between them. -/
def toChars (id : Uuid) : List Char :=
  hexPadded id.leadingWidth (id.value / twoTo 96) ++ '-' :: hexPadded 4 (id.value / twoTo 80) ++
    '-' :: hexPadded 4 (id.value / twoTo 64) ++ '-' :: hexPadded 4 (id.value / twoTo 48) ++
    '-' :: hexPadded 12 id.value

def toText (id : Uuid) : String := String.ofList id.toChars

/-- Thirty-two digits without any mark between them. -/
def ofDigits? (cs : List Char) : Option Uuid :=
  if cs.length = 32 then (hexNumber? cs).map Uuid.mk else none

/-- Digits in groups of eight, four, four, four and twelve. -/
def ofGroups? (cs : List Char) : Option Uuid :=
  if cs.length = 36 ∧ cs[8]? = some '-' ∧ cs[13]? = some '-' ∧ cs[18]? = some '-' ∧
      cs[23]? = some '-' then
    ofDigits? (cs.take 8 ++ (cs.drop 9).take 4 ++ (cs.drop 14).take 4 ++ (cs.drop 19).take 4 ++
      cs.drop 24)
  else none

/-- Reads an identifier in any of four spellings: bare digits, grouped digits, grouped digits in
braces, and grouped digits as a uniform resource name. -/
def ofText? (s : String) : Option Uuid :=
  let cs := s.toList
  match cs.length with
  | 32 => ofDigits? cs
  | 36 => ofGroups? cs
  | 38 =>
      if cs.head? = some '\x7b' ∧ cs.getLast? = some '\x7d' then ofGroups? (cs.drop 1).dropLast
      else none
  | 45 => if "urn:uuid:".toList.isPrefixOf cs then ofGroups? (cs.drop 9) else none
  | _ => none

end Uuid

end TenantReports
