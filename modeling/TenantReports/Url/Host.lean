import TenantReports.Text.Basic
import TenantReports.Text.Hex
import TenantReports.Url.Punycode

/-!
Hosts: numeric addresses, which are tested, and names, which are written in small ASCII letters.
-/

namespace TenantReports.Host

open TenantReports.Text

/-! Numeric addresses -/

/-- A number up to 255 without a zero in front. -/
def isOctet (cs : List Char) : Bool :=
  cs ≠ [] && cs.length ≤ 3 && cs.all Char.isDigit && (cs = ['0'] || cs.head? ≠ some '0') &&
    cs.foldl (fun n c => n * 10 + (c.toNat - 48)) 0 ≤ 255

def isFourOctets (cs : List Char) : Bool :=
  let octets := split '.' cs
  octets.length = 4 && octets.all isOctet

/-- Up to four hexadecimal digits. -/
def isHextet (cs : List Char) : Bool :=
  cs ≠ [] && cs.length ≤ 4 && cs.all fun c => (hexValue? c).isSome

/-- Hextets on one side of a gap; an end of the address beside a gap has none. -/
def areHextets (parts : List (List Char)) : Bool := parts = [[]] || parts.all isHextet

/-- The parts of an address in which four octets stand for the last two hextets. -/
def withHextets? (parts : List (List Char)) : Option (List (List Char)) :=
  let last := parts.getLastD []
  if !last.contains '.' then some parts
  else if isFourOctets last then some (parts.dropLast ++ [['0'], ['0']])
  else none

def sideLength (parts : List (List Char)) : Nat := if parts = [[]] then 0 else parts.length

/-- Eight hextets, or fewer around one gap. -/
def areEight (parts : List (List Char)) : Bool :=
  match (parts.drop 1).dropLast.count [] with
  | 0 => parts.length = 8 && parts.all isHextet
  | 1 =>
      let before := 1 + ((parts.drop 1).takeWhile (· ≠ [])).length
      let (left, right) := (parts.take before, parts.drop (before + 1))
      areHextets left && areHextets right && sideLength left + sideLength right ≤ 7
  | _ => false

/-- The name of a zone may follow behind a percent sign. -/
def isZone : List Char → Bool
  | [] => true
  | _ :: zone => zone ≠ [] && !zone.contains '%'

def isSixteenBytes (cs : List Char) : Bool :=
  let parts := split ':' (cs.takeWhile (· ≠ '%'))
  isZone (cs.dropWhile (· ≠ '%')) && 3 ≤ parts.length && (withHextets? parts).any areEight

/-- How many marks could be set within a run of digits, with digits on both sides of each. -/
def roomFor (digits : List Char) : Nat := (digits.length - 1) / 2

/-- The runs of digits between other characters. -/
def digitRuns (cs : List Char) : List (List Char) :=
  split '.' (cs.map fun c => if c.isDigit then c else '.')

/-- Whether a host looks like four numbers with a mark between each two of them; a mark may be any
character. -/
def looksNumeric (cs : List Char) : Bool :=
  let runs := digitRuns cs
  let room := runs.foldl (fun room digits => room + roomFor digits) 0
  runs.all (fun digits => !digits.isEmpty) && runs.length ≤ 4 && 4 ≤ runs.length + room

/-! Names -/

/-- Letters of the usual scripts that names beyond ASCII are made of. -/
def nameLetters : Ranges :=
  [(0xDF, 0xF6), (0xF8, 0x17F), (0x180, 0x24F), (0x300, 0x36F), (0x3AC, 0x3CE), (0x430, 0x45F),
   (0x560, 0x586), (0xE01, 0xE2E), (0x10D0, 0x10FA), (0x3041, 0x3096), (0x30A1, 0x30FA),
   (0x30FC, 0x30FE), (0x3400, 0x4DBF), (0x4E00, 0x9FFF), (0xAC00, 0xD7A3)]

/-- Pairs of letters in which the even code point is the capital. -/
def evenCapitals : Ranges := [(0x100, 0x137), (0x14A, 0x177), (0x1DE, 0x1EF), (0x1F8, 0x233)]

/-- Pairs of letters in which the odd code point is the capital. -/
def oddCapitals : Ranges := [(0x139, 0x148), (0x179, 0x17E), (0x1CD, 0x1DC)]

/-- Letters whose small forms follow 32 places behind. -/
def shiftedCapitals : Ranges :=
  [(0x41, 0x5A), (0xC0, 0xD6), (0xD8, 0xDE), (0x391, 0x3A9), (0x410, 0x42F)]

def smallLetter (c : Char) : Char :=
  let n := c.toNat
  if shiftedCapitals.has c then Char.ofNat (n + 32)
  else if evenCapitals.has c && n % 2 = 0 then Char.ofNat (n + 1)
  else if oddCapitals.has c && n % 2 = 1 then Char.ofNat (n + 1)
  else if 0x400 ≤ n && n ≤ 0x40F then Char.ofNat (n + 80)
  else c

def isNameChar (c : Char) : Bool :=
  c.isDigit || c = '-' || ('a' ≤ c && c ≤ 'z') || nameLetters.has c

/-- The most characters of one label. -/
def labelLimit : Nat := 63

/-- Hyphens stand neither at an end of a label nor both at its third and fourth place. -/
def hasGoodHyphens (label : List Char) : Bool :=
  label.head? ≠ some '-' && label.getLast? ≠ some '-' && (label.drop 2).take 2 ≠ ['-', '-']

/-- A label of a name in ASCII. -/
def label? (label : List Char) : Option (List Char) :=
  let isAscii := label.all Punycode.isBasic
  let written := if isAscii then label else "xn--".toList ++ Punycode.encode label
  if label ≠ [] && label.all isNameChar && hasGoodHyphens label && written.length ≤ labelLimit then
    some written
  else none

/-- Full stops of other scripts. -/
def isStop (c : Char) : Bool := "\u3002\uff0e\uff61".toList.contains c

/-- A name with letters beyond ASCII, label by label; a full stop may end it. -/
def name? (cs : List Char) : Option (List Char) := do
  let labels := split '.' (cs.map fun c => if isStop c then '.' else c)
  let isEnded := labels.getLast? = some []
  let written ← (if isEnded then labels.dropLast else labels).mapM label?
  let name := List.intercalate ['.'] (if isEnded then written ++ [[]] else written)
  if name.length ≤ (if isEnded then 254 else 253) then some name else none

/-- Marks that are not written in a name for themselves. -/
def marks : List Char := "#/:<>?@[]^".toList

/-- A host as it is sent, unless it is a bad address or no name. -/
def written? (cs : List Char) : Option (List Char) :=
  if looksNumeric cs then if isFourOctets cs then some cs else none
  else if cs.head? = some '[' && cs.getLast? = some ']' then
    let address := (cs.drop 1).dropLast
    if isSixteenBytes address then some address else none
  else if cs.all Punycode.isBasic then some (percentEncoded marks (cs.map smallLetter))
  else name? (cs.map smallLetter)

end TenantReports.Host
