import TenantReports.Decimal.Numeral
import TenantReports.Value.Mapping

/-!
Reading JSON text, by the standard's rules or by wider ones: the names of the three floating-point
values that are not finite may be read too, and whole numbers may be limited in length. A string in
which half of a surrogate pair is escaped is no text; it is read as bytes that are no text either.
-/

namespace TenantReports.Json

open TenantReports.Text
open TenantReports.Decimal

/-- What is read beside the standard's values, and how long whole numbers may be. -/
structure Rules where
  /-- The most digits of a whole number. -/
  digitLimit : Option Nat
  /-- Whether the names of the values that are not finite are read. -/
  namesFloats : Bool

/-- The standard's values alone, of any length. -/
def standardRules : Rules := ⟨none, false⟩

/-- The rules of whoever hands in a text. -/
def wideRules : Rules := ⟨some 4300, true⟩

def isSpace (c : Char) : Bool := c == ' ' || c == '\t' || c == '\n' || c == '\r'

def skipSpace (cs : List Char) : List Char := cs.dropWhile isSpace

/-- What follows a fixed word. -/
def word? (word : String) (cs : List Char) : Option (List Char) :=
  if word.toList.isPrefixOf cs then some (cs.drop word.length) else none

def isAsciiDigit (c : Char) : Bool := '0' ≤ c && c ≤ '9'

def digits (cs : List Char) : List Char × List Char :=
  (cs.takeWhile isAsciiDigit, cs.dropWhile isAsciiDigit)

/-- A whole part without needless zeros. -/
def wholePart? (cs : List Char) : Option (List Char × List Char) :=
  match cs with
  | '0' :: rest => some (['0'], rest)
  | _ =>
      match digits cs with
      | ([], _) => none
      | (whole, rest) => some (whole, rest)

/-- A point and the digits behind it, where both are there. -/
def fractionPart (cs : List Char) : List Char × List Char :=
  match cs with
  | '.' :: rest =>
      match digits rest with
      | ([], _) => ([], cs)
      | (fraction, rest) => ('.' :: fraction, rest)
  | _ => ([], cs)

def exponentPart (cs : List Char) : List Char × List Char :=
  match cs with
  | mark :: rest =>
      if mark = 'e' ∨ mark = 'E' then
        let sign := rest.takeWhile fun c => c == '+' || c == '-'
        match digits (rest.drop sign.length) with
        | ([], _) => ([], cs)
        | (power, rest) => if sign.length ≤ 1 then (mark :: sign ++ power, rest) else ([], cs)
      else ([], cs)
  | [] => ([], cs)

def Rules.admits (rules : Rules) (digitCount : Nat) : Bool :=
  rules.digitLimit.all fun limit => digitCount ≤ limit

def numberOfParts (rules : Rules) (sign whole fraction exponent : List Char) : Option Value :=
  if fraction = [] ∧ exponent = [] then
    if rules.admits whole.length then (signedDigits? (sign ++ whole)).map .int else none
  else (Numeral.ofChars? (sign ++ whole ++ fraction ++ exponent)).map fun n => .float n.toFloat

def number? (rules : Rules) (cs : List Char) : Option (Value × List Char) := do
  let sign := cs.takeWhile (· == '-')
  let (whole, rest) ← wholePart? (cs.drop sign.length)
  let (fraction, rest) := fractionPart rest
  let (exponent, rest) := exponentPart rest
  if sign.length ≤ 1 then
    let v ← numberOfParts rules sign whole fraction exponent
    return (v, rest)
  else none

/-- The value that is not finite whose name a text begins with. -/
def floatName? (rules : Rules) (cs : List Char) : Option (Value × List Char) :=
  if rules.namesFloats then
    ((word? "NaN" cs).map (Value.float (floatOfBits (infinityBits + twoTo 51)), ·)) <|>
    ((word? "Infinity" cs).map (Value.float (floatOfBits infinityBits), ·)) <|>
    ((word? "-Infinity" cs).map (Value.float (floatOfBits (signedBits true infinityBits)), ·))
  else none

/-- The unit of sixteen bits that four digits denote. -/
def unit? (cs : List Char) : Option (Nat × List Char) :=
  if cs.length < 4 then none else (hexNumber? (cs.take 4)).map fun n => (n, cs.drop 4)

/-- The character of one unit; half of a pair is none. -/
def charOfUnit (n : Nat) : Option Char :=
  if 0xD800 ≤ n ∧ n < 0xE000 then none else some (Char.ofNat n)

/-- What an escape by one unit, or by the two units of a surrogate pair, stands for. -/
def unitChar? (cs : List Char) : Option (Option Char × List Char) := do
  let (high, rest) ← unit? cs
  match rest with
  | '\\' :: 'u' :: more =>
      match unit? more with
      | some (low, more) =>
          if 0xD800 ≤ high ∧ high < 0xDC00 ∧ 0xDC00 ≤ low ∧ low < 0xE000 then
            return (some (Char.ofNat (0x10000 + (high - 0xD800) * 0x400 + (low - 0xDC00))), more)
          else return (charOfUnit high, rest)
      | none => return (charOfUnit high, rest)
  | _ => return (charOfUnit high, rest)

def shortEscape? : Char → Option Char
  | '"' => some '"'
  | '\\' => some '\\'
  | '/' => some '/'
  | 'b' => some '\x08'
  | 'f' => some '\x0c'
  | 'n' => some '\n'
  | 'r' => some '\r'
  | 't' => some '\t'
  | _ => none

/-- The characters up to the closing quote, none for each half of a pair. -/
def textBody? : (fuel : Nat) → List Char → Option (List (Option Char) × List Char)
  | 0, _ => none
  | fuel + 1, cs =>
      match cs with
      | [] => none
      | '"' :: rest => some ([], rest)
      | '\\' :: 'u' :: rest => do
          let (c, rest) ← unitChar? rest
          let (body, rest) ← textBody? fuel rest
          return (c :: body, rest)
      | '\\' :: mark :: rest => do
          let c ← shortEscape? mark
          let (body, rest) ← textBody? fuel rest
          return (some c :: body, rest)
      | c :: rest =>
          if c.toNat < 0x20 then none
          else do
            let (body, rest) ← textBody? fuel rest
            return (some c :: body, rest)

/-- The value of a string. -/
def textOf (body : List (Option Char)) : Value :=
  match body.mapM id with
  | some cs => .text (String.ofList cs)
  | none => .bytes [0xFF]

section Values

variable (rules : Rules)

mutual

def value? : (fuel : Nat) → List Char → Option (Value × List Char)
  | 0, _ => none
  | fuel + 1, cs =>
      match cs with
      | '"' :: rest => do
          let (body, rest) ← textBody? rest.length rest
          return (textOf body, rest)
      | '[' :: rest => do
          let (items, rest) ←
            match skipSpace rest with
            | ']' :: rest => some ([], rest)
            | rest => items? fuel rest
          return (.list items, rest)
      | '\x7b' :: rest => do
          let (entries, rest) ←
            match skipSpace rest with
            | '\x7d' :: rest => some ([], rest)
            | rest => entries? fuel rest
          return (.mapping (Entries.ofPairs entries), rest)
      | cs =>
          ((word? "null" cs).map (Value.null, ·)) <|>
          ((word? "true" cs).map (Value.bool true, ·)) <|>
          ((word? "false" cs).map (Value.bool false, ·)) <|>
          floatName? rules cs <|> number? rules cs

def items? : (fuel : Nat) → List Char → Option (List Value × List Char)
  | 0, _ => none
  | fuel + 1, cs => do
      let (item, rest) ← value? fuel cs
      match skipSpace rest with
      | ',' :: rest => do
          let (items, rest) ← items? fuel (skipSpace rest)
          return (item :: items, rest)
      | ']' :: rest => return ([item], rest)
      | _ => none

def entries? : (fuel : Nat) → List Char → Option (List (Value × Value) × List Char)
  | 0, _ => none
  | fuel + 1, cs =>
      match cs with
      | '"' :: rest => do
          let (key, rest) ← textBody? rest.length rest
          match skipSpace rest with
          | ':' :: rest => do
              let (v, rest) ← value? fuel (skipSpace rest)
              let entry := (textOf key, v)
              match skipSpace rest with
              | ',' :: rest => do
                  let (entries, rest) ← entries? fuel (skipSpace rest)
                  return (entry :: entries, rest)
              | '\x7d' :: rest => return ([entry], rest)
              | _ => none
          | _ => none
      | _ => none

end

/-- The value that a whole text denotes by some rules. -/
def readBy? (s : String) : Option Value :=
  let cs := skipSpace s.toList
  match value? rules (2 * cs.length + 1) cs with
  | some (v, rest) => if (skipSpace rest).isEmpty then some v else none
  | none => none

end Values

/-- The value that a text denotes that someone hands in. -/
def read? : String → Option Value := readBy? wideRules

end TenantReports.Json
