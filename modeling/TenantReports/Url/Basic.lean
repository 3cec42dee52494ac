import TenantReports.Decimal.Numeral
import TenantReports.Url.Host

/-!
Addresses of resources: their parts, how they are read and written, and how one is resolved
against a base. Reading brings an address into the form in which it is sent.
-/

namespace TenantReports

open TenantReports.Text

structure Url where
  scheme : List Char
  userinfo : List Char
  host : List Char
  port : Option Int
  path : List Char
  query : Option (List Char)
  fragment : Option (List Char)
deriving DecidableEq, Repr

namespace Url

/-! Parts as they are written -/

def isSchemeChar (c : Char) : Bool := c.isAlphanum || "+.-".toList.contains c

/-- Splits off a scheme, which a colon ends; it may be empty. -/
def splitScheme (cs : List Char) : List Char × List Char :=
  let scheme := cs.takeWhile isSchemeChar
  match cs.dropWhile isSchemeChar with
  | ':' :: rest => if scheme.head?.all Char.isAlpha then (scheme, rest) else ([], cs)
  | _ => ([], cs)

def endsAuthority (c : Char) : Bool := c = '/' || c = '?' || c = '#'

/-- Splits off an authority, which two slashes begin. -/
def splitAuthority : List Char → List Char × List Char
  | '/' :: '/' :: rest =>
      (rest.takeWhile (!endsAuthority ·), rest.dropWhile (!endsAuthority ·))
  | rest => ([], rest)

/-- What follows a mark, if it is there. -/
def behind (mark : Char) : List Char → Option (List Char)
  | c :: rest => if c = mark then some rest else none
  | [] => none

/-- Path, query and fragment. -/
def splitTarget (cs : List Char) : List Char × Option (List Char) × Option (List Char) :=
  let rest := cs.dropWhile (· ≠ '#')
  let target := cs.takeWhile (· ≠ '#')
  (target.takeWhile (· ≠ '?'), behind '?' (target.dropWhile (· ≠ '?')), behind '#' rest)

/-- Splits a text at the last place of a mark. -/
def splitLast? (mark : Char) (cs : List Char) : Option (List Char × List Char) :=
  if cs.contains mark then
    let last := (cs.reverse.takeWhile (· ≠ mark)).reverse
    some (cs.take (cs.length - last.length - 1), last)
  else none

/-- Host and port of an authority. A host in brackets may hold colons. -/
def splitHost (cs : List Char) : List Char × List Char :=
  let (host, rest) :=
    match cs.head?, splitLast? ']' cs with
    | some '[', some (address, rest) => (address ++ [']'], rest)
    | _, _ => (cs.takeWhile (· ≠ ':'), cs.dropWhile (· ≠ ':'))
  (host, (behind ':' rest).getD rest)

/-! Parts as they are sent -/

def defaultPorts : List (String × Int) :=
  [("ftp", 21), ("http", 80), ("https", 443), ("ws", 80), ("wss", 443)]

/-- The number of a port, none where it is the one that the scheme stands for. -/
def port? (scheme port : List Char) : Option (Option Int) :=
  if port = [] then some none
  else
    (Decimal.intOfChars? port).map fun n =>
      if defaultPorts.lookup (String.ofList scheme) = some n then none else some n

/-- Drops the parts of a path that stand for the directory itself, and with those that stand for
the one above it the part before. -/
def withoutDots (path : List Char) : List Char :=
  let step (kept : List (List Char)) (part : List Char) : List (List Char) :=
    if part = ['.'] then kept
    else if part = ['.', '.'] then (if kept = [[]] then kept else kept.dropLast)
    else kept ++ [part]
  List.intercalate ['/'] ((split '/' path).foldl step [])

def pathMarks : List Char := "\"<>`#?\x7b\x7d".toList

def queryMarks : List Char := "\"#<>".toList

def fragmentMarks : List Char := "\"<>`".toList

def userinfoMarks : List Char := pathMarks ++ "/;=@[\\]^|".toList

/-- The most characters of an address, and of each of its parts. -/
def lengthLimit : Nat := 65536

def isControl (c : Char) : Bool := c.toNat < 0x20 || c.toNat = 0x7F

/-- Whether the path can follow what stands before it. -/
def isPathFitting (hasScheme hasAuthority : Bool) (path : List Char) : Bool :=
  if hasAuthority then path.head?.all (· = '/')
  else hasScheme || (path.head? ≠ some ':' && path.take 2 ≠ ['/', '/'])

/-- Reads an address. One with control characters, one that is too long, and one with a bad host or
port is none. -/
def ofChars? (cs : List Char) : Option Url := do
  guard (cs.length ≤ lengthLimit && cs.all (!isControl ·))
  let (scheme, rest) := splitScheme cs
  let (authority, rest) := splitAuthority rest
  let (path, query, fragment) := splitTarget rest
  let (userinfo, address) := (splitLast? '@' authority).getD ([], authority)
  let (host, port) := splitHost address
  let host ← if host = [] then some [] else Host.written? host
  let port ← port? scheme port
  let userinfo := percentEncoded userinfoMarks userinfo
  let hasAuthority := userinfo ≠ [] || host ≠ [] || port.isSome
  guard (isPathFitting (scheme ≠ []) hasAuthority path)
  let path := if scheme ≠ [] || hasAuthority then withoutDots path else path
  return {
    scheme := scheme.map Char.toLower
    userinfo, host, port
    path := percentEncoded pathMarks path
    query := query.map (percentEncoded queryMarks)
    fragment := fragment.map (percentEncoded fragmentMarks) }

/-! Writing and resolving -/

def authority (url : Url) : List Char :=
  (if url.userinfo = [] then [] else url.userinfo ++ ['@']) ++
    (if url.host.contains ':' then '[' :: url.host ++ [']'] else url.host) ++
    (url.port.map fun n => ':' :: Decimal.intDigits n).getD []

def toChars (url : Url) : List Char :=
  (if url.scheme = [] then [] else url.scheme ++ [':']) ++
    (if url.authority = [] then [] else '/' :: '/' :: url.authority) ++ url.path ++
    ((url.query.map ('?' :: ·)).getD []) ++ ((url.fragment.map ('#' :: ·)).getD [])

def toText (url : Url) : String := String.ofList url.toChars

def isAbsolute (url : Url) : Bool := url.scheme ≠ [] && url.host ≠ []

/-- The address of no resource, against which nothing but the path and the query counts. -/
def blank : Url := ⟨[], [], [], none, [], none, none⟩

/-- The root of a host that is reached over HTTP. -/
def ofHost (host : String) : Url := { blank with scheme := "http".toList, host := host.toList }

/-- An address as it is sent from a base: one that is absolute as it is, and any other as a path
below the root of the base. -/
def resolve? (base url : Url) : Option Url := do
  if url.isAbsolute then return url
  let path := '/' :: url.path.dropWhile (· = '/')
  guard (path.length ≤ lengthLimit && url.query.all fun query => query.length ≤ lengthLimit)
  let path := if base.scheme = [] then path else withoutDots path
  return { base with path, query := url.query }

/-- The path that an address leads to, decoded; that of a host alone is its root. -/
def decodedPath (url : Url) : String :=
  if url.path = [] then "/" else percentDecoded url.path

end Url

end TenantReports
