import TenantReports.Value.Plain

/-!
Values as JSON text in ASCII characters, with a blank behind every comma and colon.
-/

namespace TenantReports.Json

open TenantReports.Text

/-- An escape by one unit of sixteen bits. -/
def unitEscape (n : Nat) : List Char := '\\' :: 'u' :: hexPadded 4 n

/-- An escape by code point: one unit, or the two units of a surrogate pair. -/
def codePointEscape (n : Nat) : List Char :=
  if n < 0x10000 then unitEscape n
  else unitEscape (0xD800 + (n - 0x10000) / 0x400) ++ unitEscape (0xDC00 + (n - 0x10000) % 0x400)

def escapeChar (c : Char) : List Char :=
  if c = '"' then ['\\', '"']
  else if c = '\\' then ['\\', '\\']
  else if c = '\n' then ['\\', 'n']
  else if c = '\r' then ['\\', 'r']
  else if c = '\t' then ['\\', 't']
  else if c = '\x08' then ['\\', 'b']
  else if c = '\x0c' then ['\\', 'f']
  else if 0x20 ≤ c.toNat ∧ c.toNat ≤ 0x7E then [c]
  else codePointEscape c.toNat

def textChars (cs : List Char) : List Char := '"' :: cs.flatMap escapeChar ++ ['"']

/-- Numbers as everywhere else, but for the names of the three that are not finite. -/
def floatStyle : Decimal.FloatStyle :=
  { Decimal.floatStyle with notANumber := "NaN", infinite := "Infinity" }

def separator : List Char := [',', ' ']

mutual

def chars : Value → List Char
  | .null => "null".toList
  | .bool b => if b then "true".toList else "false".toList
  | .int n => Decimal.intDigits n
  | .float x => Decimal.floatChars floatStyle x
  | .text s => textChars s.toList
  | .list items => '[' :: List.intercalate separator (itemChars items) ++ [']']
  | .mapping entries => '\x7b' :: List.intercalate separator (entryChars entries) ++ ['\x7d']
  | other => textChars other.plainChars

def itemChars : List Value → List (List Char)
  | [] => []
  | item :: items => chars item :: itemChars items

def entryChars : List (Value × Value) → List (List Char)
  | [] => []
  | (key, value) :: entries =>
      (textChars key.plainChars ++ ':' :: ' ' :: chars value) :: entryChars entries

end

/-- A plain value as text. -/
def write (v : Value) : String := String.ofList (chars v)

end TenantReports.Json
