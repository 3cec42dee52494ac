import TenantReports.Calendar.Span

/-!
A table cache in memory: what was found of the existence of tables, each answer with the time at
which it ends. An answer that has ended is forgotten when it is asked for.
-/

namespace TenantReports

/-- Whether something is so, until a point in time. -/
structure TimedAnswer where
  answer : Bool
  expiry : DateTime
deriving DecidableEq, Repr

namespace TimedAnswer

def isLiveAt (entry : TimedAnswer) (now : DateTime) : Bool := now.instant < entry.expiry.instant

/-- The end of an answer that stands for `ttl` seconds from now. -/
def expiryAfter (ttl : Int) (now : DateTime) : Result DateTime := now.moved (.ofParts 0 ttl 0)

end TimedAnswer

/-- The answers of a cache, each key at most once. -/
structure MemoryCache where
  entries : List (String × TimedAnswer)
deriving DecidableEq, Repr

namespace MemoryCache

def empty : MemoryCache := ⟨[]⟩

def find? (cache : MemoryCache) (key : String) : Option TimedAnswer := cache.entries.lookup key

def erase (cache : MemoryCache) (key : String) : MemoryCache :=
  ⟨cache.entries.filter fun entry => entry.1 != key⟩

def put (cache : MemoryCache) (key : String) (entry : TimedAnswer) : MemoryCache :=
  ⟨(key, entry) :: (cache.erase key).entries⟩

/-- The answer under a key, if there is one that has not ended; one that has is dropped. -/
def get (cache : MemoryCache) (key : String) (now : DateTime) : Option Bool × MemoryCache :=
  match cache.find? key with
  | some entry => if entry.isLiveAt now then (some entry.answer, cache) else (none, cache.erase key)
  | none => (none, cache)

/-- The answers in the order of their keys. -/
def sorted (cache : MemoryCache) : List (String × TimedAnswer) :=
  cache.entries.mergeSort fun a b => a.1 ≤ b.1

end MemoryCache

end TenantReports
