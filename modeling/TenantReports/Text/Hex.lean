/-!
Numbers in base sixteen, with lower-case digits. Characters that stand for themselves in an address,
and characters that are written as their UTF-8 bytes, each as a percent sign and two digits.
-/

namespace TenantReports.Text

def hexDigit (n : Nat) : Char :=
  if n < 10 then Char.ofNat (48 + n) else Char.ofNat (87 + n)

/-- The last `width` digits of a number. -/
def hexPadded : (width : Nat) → Nat → List Char
  | 0, _ => []
  | width + 1, n => hexPadded width (n / 16) ++ [hexDigit (n % 16)]

def hexValue? (c : Char) : Option Nat :=
  if '0' ≤ c ∧ c ≤ '9' then some (c.toNat - 48)
  else if 'a' ≤ c ∧ c ≤ 'f' then some (c.toNat - 87)
  else if 'A' ≤ c ∧ c ≤ 'F' then some (c.toNat - 55)
  else none

/-- The number that a run of digits of either case denotes, if all are digits. -/
def hexNumber? (cs : List Char) : Option Nat :=
  cs.foldlM (fun value c => (hexValue? c).map (value * 16 + ·)) 0

/-- Bytes from pairs of digits. -/
def hexBytes? : List Char → Option (List UInt8)
  | [] => some []
  | [_] => none
  | high :: low :: rest => do
      let h ← hexValue? high
      let l ← hexValue? low
      let bytes ← hexBytes? rest
      return UInt8.ofNat (h * 16 + l) :: bytes

/-- Two digits for each byte. -/
def hexOfBytes (bytes : List UInt8) : List Char :=
  bytes.flatMap fun byte => hexPadded 2 byte.toNat

/-! Percent signs -/

/-- Whether a text can stand in a header. -/
def isAscii (s : String) : Bool := s.toList.all fun c => c.toNat < 0x80

/-- Printable ASCII characters, but for blanks and the given marks. -/
def isSafe (marks : List Char) (c : Char) : Bool :=
  0x20 < c.toNat && c.toNat < 0x7F && !marks.contains c

def percentByte (byte : UInt8) : List Char :=
  '%' :: (hexPadded 2 byte.toNat).map Char.toUpper

def percentChar (marks : List Char) (c : Char) : List Char :=
  if isSafe marks c then [c] else (String.singleton c).toUTF8.toList.flatMap percentByte

/-- A text in which the marks, blanks, and what is not ASCII do not stand for themselves. -/
def percentEncoded (marks cs : List Char) : List Char := cs.flatMap (percentChar marks)

/-- The bytes that characters of an address stand for. -/
def addressBytes : List Char → List UInt8
  | [] => []
  | '%' :: high :: low :: rest =>
      match hexBytes? [high, low] with
      | some bytes => bytes ++ addressBytes rest
      | none => '%'.toNat.toUInt8 :: addressBytes (high :: low :: rest)
  | c :: rest => (String.singleton c).toUTF8.toList ++ addressBytes rest

/-- Text from bytes; where they are no UTF-8, a mark stands for each byte beyond ASCII. -/
def textOfBytes (bytes : List UInt8) : String :=
  match String.fromUTF8? ⟨bytes.toArray⟩ with
  | some s => s
  | none =>
      String.ofList (bytes.map fun byte => if byte < 128 then Char.ofNat byte.toNat else '\ufffd')

def percentDecoded (cs : List Char) : String := textOfBytes (addressBytes cs)

end TenantReports.Text
