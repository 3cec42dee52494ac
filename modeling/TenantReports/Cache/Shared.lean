import TenantReports.Cache.Memory

/-!
A table cache on a key-value server that several workers share. The server drops an entry when its
lifetime, in whole seconds, is over. While the server cannot be reached, the cache is empty and
keeps nothing.
-/

namespace TenantReports

/-- A text on the server, with its lifetime in seconds if it has one. -/
structure ServerEntry where
  text : String
  lifetime : Option Int
deriving DecidableEq, Repr

structure SharedCache where
  entries : List (String × ServerEntry)
  isReachable : Bool
deriving DecidableEq, Repr

namespace SharedCache

def empty : SharedCache := ⟨[], true⟩

/-- Keys on the server tell the cache's entries from those of others. -/
def serverKey (key : String) : String := "sar:table:" ++ key

def answerText (answer : Bool) : String := if answer then "1" else "0"

def store (cache : SharedCache) (key : String) (entry : ServerEntry) : SharedCache :=
  { cache with entries := (key, entry) :: cache.entries.filter fun other => other.1 != key }

/-- What an answer that ends at `expiry` leaves on the server: nothing, if less than a second is
left of it. -/
def entryOf? (entry : TimedAnswer) (now : DateTime) : Option ServerEntry :=
  let lifetime := (entry.expiry.since now).wholeSeconds
  if 0 < lifetime then some ⟨answerText entry.answer, some lifetime⟩ else none

def put (cache : SharedCache) (key : String) (entry : TimedAnswer) (now : DateTime) :
    SharedCache :=
  match entryOf? entry now with
  | some stored => if cache.isReachable then cache.store (serverKey key) stored else cache
  | none => cache

/-- The answer under a key. Any text but that of a positive answer is a negative one. -/
def get (cache : SharedCache) (key : String) : Option Bool :=
  if cache.isReachable then
    (cache.entries.lookup (serverKey key)).map fun entry => entry.text == answerText true
  else none

/-- The entries in the order of their keys. -/
def sorted (cache : SharedCache) : List (String × ServerEntry) :=
  cache.entries.mergeSort fun a b => a.1 ≤ b.1

end SharedCache

end TenantReports
