import TenantReports.Cache.Shared

/-!
The cache of the existence of tables: in memory, on a shared server, or none.
-/

namespace TenantReports

inductive TableCache
  | disabled
  | memory (cache : MemoryCache)
  | shared (cache : SharedCache)
deriving DecidableEq, Repr

namespace TableCache

def get (cache : TableCache) (key : String) (now : DateTime) : Option Bool × TableCache :=
  match cache with
  | disabled => (none, disabled)
  | memory cache =>
      let (answer, cache) := cache.get key now
      (answer, memory cache)
  | shared cache => (cache.get key, shared cache)

def put (cache : TableCache) (key : String) (entry : TimedAnswer) (now : DateTime) : TableCache :=
  match cache with
  | disabled => disabled
  | memory cache => memory (cache.put key entry)
  | shared cache => shared (cache.put key entry now)

def isEnabled : TableCache → Bool
  | disabled => false
  | memory _ | shared _ => true

/-- The same cache while its server can or cannot be reached. -/
def withServer (isReachable : Bool) : TableCache → TableCache
  | shared cache => shared { cache with isReachable }
  | other => other

end TableCache

/-- A step of work on a table cache whose clock is set by hand. -/
inductive CacheStep
  | put (key : String) (answer : Bool) (ttl micros : Int)
  | get (key : String)
  | ping
  | clear
  | advance (seconds micros : Int)
  | reach (isReachable : Bool)
  | place (key text : String)

namespace CacheStep

/-- What a step answers, and the cache and the clock after it. A server cannot be cleared, and
memory cannot be reached or not. -/
def perform (step : CacheStep) (cache : TableCache) (now : DateTime) :
    Result (Option Bool × TableCache × DateTime) :=
  match step, cache with
  | put key answer ttl micros, cache => do
      return (none, cache.put key ⟨answer, ← now.moved (.ofParts 0 ttl micros)⟩ now, now)
  | get key, cache =>
      let (answer, cache) := cache.get key now
      .ok (answer, cache, now)
  | advance seconds micros, cache => do
      return (none, cache, ← now.moved (.ofParts 0 seconds micros))
  | ping, .shared cache => .ok (some cache.isReachable, .shared cache, now)
  | clear, .memory _ => .ok (none, .memory .empty, now)
  | reach isReachable, cache => .ok (none, cache.withServer isReachable, now)
  | place key text, .shared cache =>
      .ok (none, .shared (cache.store (SharedCache.serverKey key) ⟨text, none⟩), now)
  | _, _ => .error .noOperation

/-- What each step answers, and the cache after it. -/
def performAll : List CacheStep → TableCache → DateTime →
    Result (List (Option Bool × TableCache))
  | [], _, _ => .ok []
  | step :: steps, cache, now => do
      let (answer, cache, now) ← step.perform cache now
      return (answer, cache) :: (← performAll steps cache now)

end CacheStep

end TenantReports
