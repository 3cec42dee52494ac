import Mathlib.Data.List.Basic
import TenantReports.Proofs.Api.History
import TenantReports.Proofs.Cache.Memory
import TenantReports.Proofs.Calendar.Span
import TenantReports.Proofs.Connection.Action
import TenantReports.Proofs.Result
import TenantReports.Proofs.Sql.Basic
import TenantReports.Tenant.Directory

/-!
Lookups of tables over time, while the catalog changes. A cached answer was the catalog's for the
same table at an earlier lookup, and it is given out for less than the lifetime of an answer.
-/

namespace TenantReports

namespace TenantTable

/-- The names of the schema and of the table are identifiers. -/
def isNamed (table : TenantTable) : Bool :=
  Sql.isIdentifier table.schemaName && Sql.isIdentifier table.table

/-- A key tells the schema from the table at its only dot. -/
theorem tableKey_inj {a b : TenantTable} (hnamed : a.isNamed = true)
    (h : Directory.tableKey a = Directory.tableKey b) : a = b := by
  have hdot : Sql.isNameChar '.' = false := by decide
  have hfree {name : String} (hname : Sql.isIdentifier name = true) : '.' ∉ name.toList := by
    intro hmem
    rw [Sql.isNameChar_of_mem hname hmem] at hdot
    cases hdot
  simp only [isNamed, Bool.and_eq_true] at hnamed
  have hkeys := congrArg String.toList h
  simp only [Directory.tableKey, String.toList_append, List.append_assoc] at hkeys
  obtain ⟨hschema, -, htable⟩ :=
    (List.append_cons_inj_of_notMem (hfree hnamed.1) (hfree hnamed.2)).mp hkeys
  cases a
  cases b
  exact congrArg₂ mk (String.toList_inj.mp hschema) (String.toList_inj.mp htable)

end TenantTable

namespace Directory

theorem run_cached? (key : String) (p : Platform) : (cached? key).run p =
    (.ok (p.cache.get key p.now).1, { p with cache := (p.cache.get key p.now).2 }) := rfl

theorem run_lookUp (table : TenantTable) (p : Platform) : (lookUp table).run p =
    (.ok (p.hasTable table), { p with lookups := p.lookups + 1 }) := rfl

theorem run_remember (key : String) (answer : Bool) (p : Platform) : (remember key answer).run p =
    match TimedAnswer.expiryAfter p.settings.cache.ttl p.now with
    | .ok expiry => (.ok (), { p with cache := p.cache.put key ⟨answer, expiry⟩ p.now })
    | .error fault => (.error fault, p) := by
  unfold remember
  rw [Action.run_bind]
  change Action.run (Action.ofResult _ >>= _) p = _
  rw [Action.run_bind, Action.run_ofResult]
  cases TimedAnswer.expiryAfter p.settings.cache.ttl p.now with
  | ok expiry => rfl
  | error fault => rfl

end Directory

/-- A lookup of a table through the cache, and the state that it met. -/
structure Lookup where
  table : TenantTable
  met : Platform

namespace Lookup

def run (call : Lookup) : Result Bool × Platform :=
  (Directory.tableExists (.text call.table.schemaName) (.text call.table.table) true).run call.met

def answer (call : Lookup) : Result Bool := call.run.1

def left (call : Lookup) : Platform := call.run.2

/-- What the catalog said. -/
def current (call : Lookup) : Bool := call.met.hasTable call.table

/-- When an answer of now ends, if that is in the calendar. -/
def expiry (call : Lookup) : Result DateTime :=
  TimedAnswer.expiryAfter call.met.settings.cache.ttl call.met.now

def key (call : Lookup) : String := Directory.tableKey call.table

variable {call : Lookup}

theorem run_eq (hnamed : call.table.isNamed = true) : call.run =
    if call.met.cache.isEnabled then
      match call.met.cache.get call.key call.met.now, call.expiry with
      | (some answer, cache), _ => (.ok answer, { call.met with cache })
      | (none, cache), .ok expiry =>
          (.ok call.current, { call.met with
            lookups := call.met.lookups + 1
            cache := cache.put call.key ⟨call.current, expiry⟩ call.met.now })
      | (none, cache), .error fault =>
          (.error fault, { call.met with lookups := call.met.lookups + 1, cache })
    else (.ok call.current, { call.met with lookups := call.met.lookups + 1 }) := by
  simp only [TenantTable.isNamed, Bool.and_eq_true] at hnamed
  unfold run Directory.tableExists
  rw [Sql.identifierOf_text hnamed.1, Sql.identifierOf_text hnamed.2]
  change Action.run (if call.met.cache.isEnabled then Directory.cached? call.key >>= _
    else Directory.lookUp call.table) call.met = _
  split
  · rw [Action.run_bind, Directory.run_cached?]
    rcases call.met.cache.get call.key call.met.now with ⟨answer, cache⟩
    cases answer with
    | some answer => rfl
    | none =>
        dsimp only
        rw [Action.run_bind, Directory.run_lookUp]
        dsimp only
        rw [Action.run_bind, Directory.run_remember]
        unfold expiry
        dsimp only
        cases TimedAnswer.expiryAfter call.met.settings.cache.ttl call.met.now with
        | ok expiry => rfl
        | error fault => rfl
  · rfl

theorem run_of_not_isNamed {table : TenantTable} (hnamed : table.isNamed = false) :
    ∃ name, Sql.isIdentifier name = false ∧
      ∀ p, (mk table p).run = (.error (.invalidIdentifier (.text name)), p) := by
  have herror {name : String} (h : Sql.isIdentifier name = false) :
      Sql.identifierOf (.text name) = .error (.invalidIdentifier (.text name)) := by
    obtain ⟨other, ⟨⟩, hvalid, -⟩ | ⟨-, herror⟩ := Sql.identifierOf_cases (.text name)
    · rw [h] at hvalid
      cases hvalid
    · exact herror
  unfold run Directory.tableExists
  cases hschema : Sql.isIdentifier table.schemaName with
  | false =>
      refine ⟨_, hschema, ?_⟩
      intro p
      rw [herror hschema]
      rfl
  | true =>
      have htable : Sql.isIdentifier table.table = false := by
        simpa [TenantTable.isNamed, hschema] using hnamed
      refine ⟨_, htable, ?_⟩
      intro p
      rw [Sql.identifierOf_text hschema, herror htable]
      rfl

/-- What a cache in memory says of the table, if that has not ended. -/
def known (call : Lookup) (cache : MemoryCache) : Option TimedAnswer :=
  (cache.find? call.key).filter (·.isLiveAt call.met.now)

/-- What a call answers, given what is known. -/
def told (call : Lookup) : Option TimedAnswer → Result Bool
  | some entry => .ok entry.answer
  | none => call.expiry.map fun _ => call.current

/-- What is known after a call. -/
def kept (call : Lookup) : Option TimedAnswer → Option TimedAnswer
  | some entry => some entry
  | none => call.expiry.toOption.map fun expiry => ⟨call.current, expiry⟩

/-- What a call answers with a cache in memory, and what the cache knows after it. -/
theorem spec (call : Lookup) (hnamed : call.table.isNamed = true) {cache : MemoryCache}
    (hcache : call.met.cache = .memory cache) :
    call.answer = call.told (call.known cache) ∧
      ∃ left lookups, call.left = { call.met with cache := .memory left, lookups } ∧
        ∀ key, left.find? key =
          if key = call.key then call.kept (call.known cache) else cache.find? key := by
  have hrun := run_eq hnamed
  rw [hcache, if_pos (show (TableCache.memory cache).isEnabled = true from rfl),
    TableCache.get] at hrun
  unfold known
  obtain ⟨entry, hentry, hget⟩ | ⟨hunknown, hget⟩ := cache.get_cases call.key call.met.now
  · rw [hget] at hrun
    rw [hentry]
    refine ⟨congrArg Prod.fst hrun, cache, call.met.lookups, congrArg Prod.snd hrun, ?_⟩
    intro key
    split
    · next hkey => exact hkey ▸ (Option.filter_eq_some_iff.mp hentry).1
    · rfl
  · have hforgot (other : String) := cache.find?_get call.key other call.met.now
    rcases hrest : cache.get call.key call.met.now with ⟨answer, rest⟩
    rw [hrest] at hget hrun hforgot
    change answer = none at hget
    subst hget
    rw [hunknown]
    cases hexpiry : call.expiry with
    | ok expiry =>
        rw [hexpiry] at hrun
        refine ⟨(congrArg Prod.fst hrun).trans (by rw [told, hexpiry]; rfl), _, _,
          congrArg Prod.snd hrun, ?_⟩
        intro key
        rw [MemoryCache.find?_put, hforgot]
        split
        · rw [kept, hexpiry]
          rfl
        · rfl
    | error fault =>
        rw [hexpiry] at hrun
        refine ⟨(congrArg Prod.fst hrun).trans (by rw [told, hexpiry]; rfl), _, _,
          congrArg Prod.snd hrun, ?_⟩
        intro key
        rw [hforgot]
        split
        · next hkey =>
            rw [kept, hexpiry, hkey]
            exact hunknown
        · rfl

theorem kept_eq_some {cache : MemoryCache} {entry : TimedAnswer}
    (h : call.kept (call.known cache) = some entry) : cache.find? call.key = some entry ∨
      entry.answer = call.current ∧ call.expiry = .ok entry.expiry := by
  cases hknown : call.known cache with
  | some found =>
      rw [hknown] at h
      cases h
      exact .inl (Option.filter_eq_some_iff.mp hknown).1
  | none =>
      rw [hknown, kept] at h
      obtain ⟨expiry, hexpiry, rfl⟩ := Option.map_eq_some_iff.mp h
      exact .inr ⟨rfl, eq_ok_of_toOption hexpiry⟩

theorem expiry_eq_error {fault : Fault} (h : call.expiry = .error fault) :
    ∃ reason, fault = .calendar reason := by
  unfold expiry TimedAnswer.expiryAfter DateTime.moved Duration.check at h
  split at h
  · cases h
    exact ⟨_, rfl⟩
  · change ofCalendar _ = _ at h
    unfold ofCalendar at h
    split at h
    · cases h
    · cases h
      exact ⟨_, rfl⟩

theorem instant_of_expiry {expiry : DateTime} (h : call.expiry = .ok expiry) :
    expiry.instant =
      call.met.now.instant + call.met.settings.cache.ttl * microsPerSecond := by
  rw [DateTime.instant_of_moved h]
  simp [Duration.ofParts]

end Lookup

/-- What happens around a cache: time passes, the catalog changes, a table is looked up. -/
inductive LookupEvent
  | wait (later : DateTime)
  | change (catalog : List TenantTable)
  | ask (table : TenantTable)

namespace LookupEvent

/-- The clock is never set back. -/
def next (p : Platform) : LookupEvent → Platform
  | wait later => if p.now.instant ≤ later.instant then { p with now := later } else p
  | change catalog => { p with catalog }
  | ask table => (Lookup.mk table p).left

def calls (p : Platform) : LookupEvent → List Lookup
  | ask table => [⟨table, p⟩]
  | _ => []

/-- Whether an event is none of another table's lookups. -/
def concerns (table : TenantTable) : LookupEvent → Bool
  | ask other => other == table
  | _ => true

end LookupEvent

/-- The lookups among events, each with the state that it met. -/
def lookups : Platform → List LookupEvent → List Lookup
  | _, [] => []
  | p, event :: events => event.calls p ++ lookups (event.next p) events

/-- A cache in memory whose answers were the catalog's at earlier calls for the same tables. -/
structure FoundedOn (ttl : Int) (earlier : List Lookup) (p : Platform) (cache : MemoryCache) :
    Prop where
  holds : p.cache = .memory cache
  lasts : p.settings.cache.ttl = ttl
  source : ∀ table, table.isNamed = true → ∀ entry,
    cache.find? (Directory.tableKey table) = some entry →
      ∃ source ∈ earlier, source.table = table ∧ entry.answer = source.current ∧
        entry.expiry.instant = source.met.now.instant + ttl * microsPerSecond

/-- A new answer would end beyond the calendar, so that none is given. -/
def Lookup.IsBeyondCalendar (call : Lookup) : Prop :=
  ∃ reason, call.expiry = .error (.calendar reason) ∧ call.answer = .error (.calendar reason)

/-- What a call may answer after earlier ones: what the catalog says, or said at an earlier call for
the same table, less than a lifetime ago. -/
def Lookup.IsRecent (ttl : Int) (earlier : List Lookup) (call : Lookup) : Prop :=
  (∃ source ∈ earlier ++ [call], source.table = call.table ∧ call.answer = .ok source.current ∧
      call.met.now.instant < source.met.now.instant + ttl * microsPerSecond) ∨
    call.IsBeyondCalendar

namespace FoundedOn

variable {ttl : Int} {earlier : List Lookup} {p : Platform} {cache : MemoryCache}

/-- A call adds its own answer, if it asked the catalog. -/
theorem ask (h : FoundedOn ttl earlier p cache) (table : TenantTable) :
    ∃ left, FoundedOn ttl (earlier ++ [⟨table, p⟩]) (Lookup.mk table p).left left := by
  let call := Lookup.mk table p
  cases hcall : table.isNamed with
  | false =>
      obtain ⟨name, -, hrun⟩ := Lookup.run_of_not_isNamed hcall
      rw [show call.left = p from congrArg Prod.snd (hrun p)]
      refine ⟨cache, h.holds, h.lasts, ?_⟩
      intro other hnamed entry hentry
      obtain ⟨source, hmem, hsource⟩ := h.source other hnamed entry hentry
      exact ⟨source, List.mem_append_left _ hmem, hsource⟩
  | true =>
      obtain ⟨-, left, lookups, hleft, hfind⟩ := call.spec hcall h.holds
      rw [show (Lookup.mk table p).left = _ from hleft]
      refine ⟨left, rfl, h.lasts, ?_⟩
      intro other hnamed entry hentry
      rw [hfind] at hentry
      have hnew : cache.find? (Directory.tableKey other) = some entry ∨ other = call.table ∧
          entry.answer = call.current ∧ call.expiry = .ok entry.expiry := by
        split at hentry
        · next hkey =>
            rw [hkey]
            exact (Lookup.kept_eq_some hentry).imp_right
              fun hnew => ⟨TenantTable.tableKey_inj hnamed hkey, hnew⟩
        · exact .inl hentry
      obtain hentry | ⟨rfl, hanswer, hexpiry⟩ := hnew
      · obtain ⟨source, hmem, hsource⟩ := h.source other hnamed entry hentry
        exact ⟨source, List.mem_append_left _ hmem, hsource⟩
      · have hinstant := Lookup.instant_of_expiry hexpiry
        rw [show call.met.settings.cache.ttl = ttl from h.lasts] at hinstant
        exact ⟨call, List.mem_append_right _ (List.mem_singleton_self _), rfl, hanswer, hinstant⟩

theorem next (h : FoundedOn ttl earlier p cache) (event : LookupEvent) :
    ∃ left, FoundedOn ttl (earlier ++ event.calls p) (event.next p) left := by
  cases event with
  | ask table => exact h.ask table
  | change catalog =>
      refine ⟨cache, ?_⟩
      simp only [LookupEvent.calls, List.append_nil]
      exact ⟨h.holds, h.lasts, h.source⟩
  | wait later =>
      refine ⟨cache, ?_⟩
      simp only [LookupEvent.calls, List.append_nil, LookupEvent.next]
      split
      · exact ⟨h.holds, h.lasts, h.source⟩
      · exact h

theorem isRecent (h : FoundedOn ttl earlier p cache) (hpos : 0 < ttl) {table : TenantTable}
    (hnamed : table.isNamed = true) : (Lookup.mk table p).IsRecent ttl earlier := by
  have hsecond : (0 : Int) < microsPerSecond := by decide
  let call := Lookup.mk table p
  have hanswer := (call.spec hnamed h.holds).1
  cases hknown : call.known cache with
  | some entry =>
      obtain ⟨hentry, hlive⟩ := Option.filter_eq_some_iff.mp hknown
      obtain ⟨source, hmem, htable, hcurrent, hexpiry⟩ := h.source table hnamed entry hentry
      rw [hknown, Lookup.told, hcurrent] at hanswer
      refine .inl ⟨source, List.mem_append_left _ hmem, htable, hanswer, ?_⟩
      rw [← hexpiry]
      exact TimedAnswer.isLiveAt_iff.mp hlive
  | none =>
      rw [hknown, Lookup.told] at hanswer
      cases hexpiry : call.expiry with
      | ok expiry =>
          rw [hexpiry] at hanswer
          refine .inl ⟨_, List.mem_append_right _ (List.mem_singleton_self _), rfl, hanswer, ?_⟩
          exact Int.lt_add_of_pos_right _ (Int.mul_pos hpos hsecond)
      | error fault =>
          rw [hexpiry] at hanswer
          obtain ⟨reason, rfl⟩ := Lookup.expiry_eq_error hexpiry
          exact .inr ⟨reason, hexpiry, hanswer⟩

/-- Every call of a run is answered from the calls before it. -/
theorem run (h : FoundedOn ttl earlier p cache) (hpos : 0 < ttl) (events : List LookupEvent) :
    ∀ before call after, lookups p events = before ++ call :: after →
      call.table.isNamed = true → call.IsRecent ttl (earlier ++ before) := by
  induction events generalizing p cache earlier with
  | nil =>
      intro before call after hcalls
      simp [lookups] at hcalls
  | cons event events ih =>
      intro before call after hcalls hnamed
      obtain ⟨left, hleft⟩ := h.next event
      have hrest := ih hleft
      rw [lookups] at hcalls
      cases event with
      | wait later =>
          simp only [LookupEvent.calls, List.append_nil] at hrest
          exact hrest before call after hcalls hnamed
      | change catalog =>
          simp only [LookupEvent.calls, List.append_nil] at hrest
          exact hrest before call after hcalls hnamed
      | ask table =>
          simp only [LookupEvent.calls, List.cons_append, List.nil_append] at hcalls hrest
          cases before with
          | nil =>
              obtain ⟨rfl, -⟩ := List.cons.inj hcalls
              simpa using h.isRecent hpos hnamed
          | cons first before =>
              obtain ⟨rfl, hafter⟩ := List.cons.inj hcalls
              simpa using hrest before call after hafter hnamed

end FoundedOn

/-! Lookups of different tables -/

/-- States that cannot be told apart by looking up one table. -/
structure AlikeFor (table : TenantTable) (p q : Platform) : Prop where
  now : p.now = q.now
  settings : p.settings = q.settings
  catalog : p.catalog = q.catalog
  caches : ∃ cache other, p.cache = .memory cache ∧ q.cache = .memory other ∧
    cache.find? (Directory.tableKey table) = other.find? (Directory.tableKey table)

namespace AlikeFor

variable {table : TenantTable} {p q : Platform}

/-- The same call is answered alike, and leaves the states alike. -/
theorem ask (h : AlikeFor table p q) :
    (Lookup.mk table p).answer = (Lookup.mk table q).answer ∧
      AlikeFor table (Lookup.mk table p).left (Lookup.mk table q).left := by
  cases hnamed : table.isNamed with
  | false =>
      obtain ⟨name, -, hrun⟩ := Lookup.run_of_not_isNamed hnamed
      unfold Lookup.answer Lookup.left
      rw [hrun, hrun]
      exact ⟨rfl, h⟩
  | true =>
      obtain ⟨cache, other, hp, hq, hfind⟩ := h.caches
      obtain ⟨hanswer, left, _, hleft, hnew⟩ :=
        Lookup.spec ⟨table, p⟩ hnamed hp
      obtain ⟨hanswer', left', _, hleft', hnew'⟩ :=
        Lookup.spec ⟨table, q⟩ hnamed hq
      have hexpiry : (Lookup.mk table p).expiry = (Lookup.mk table q).expiry := by
        simp only [Lookup.expiry, h.now, h.settings]
      have hcurrent : (Lookup.mk table p).current = (Lookup.mk table q).current := by
        simp only [Lookup.current, Platform.hasTable, h.catalog]
      have hknown : (Lookup.mk table p).known cache = (Lookup.mk table q).known other := by
        simp only [Lookup.known, Lookup.key, h.now, hfind]
      constructor
      · rw [hanswer, hanswer', hknown]
        cases (Lookup.mk table q).known other with
        | some entry => rfl
        | none => simp only [Lookup.told, hexpiry, hcurrent]
      · rw [hleft, hleft']
        refine ⟨h.now, h.settings, h.catalog, left, left', rfl, rfl, ?_⟩
        rw [hnew, hnew', hknown]
        unfold Lookup.key
        rw [if_pos rfl, if_pos rfl]
        cases (Lookup.mk table q).known other with
        | some entry => rfl
        | none => simp only [Lookup.kept, hexpiry, hcurrent]

/-- A call for another table leaves them alike. -/
theorem ask_other (h : AlikeFor table p q) {other : TenantTable} (hother : other ≠ table) :
    AlikeFor table (Lookup.mk other p).left q := by
  cases hnamed : other.isNamed with
  | false =>
      obtain ⟨name, -, hrun⟩ := Lookup.run_of_not_isNamed hnamed
      unfold Lookup.left
      rw [hrun]
      exact h
  | true =>
      obtain ⟨cache, cache', hp, hq, hfind⟩ := h.caches
      obtain ⟨-, left, _, hleft, hnew⟩ := Lookup.spec ⟨other, p⟩ hnamed hp
      rw [hleft]
      refine ⟨h.now, h.settings, h.catalog, left, cache', rfl, hq, ?_⟩
      rw [hnew, if_neg, hfind]
      intro hkey
      exact hother (TenantTable.tableKey_inj hnamed hkey.symm)

theorem next (h : AlikeFor table p q) {event : LookupEvent} (hask : ∀ other, event ≠ .ask other) :
    AlikeFor table (event.next p) (event.next q) := by
  cases event with
  | ask other => exact absurd rfl (hask other)
  | change catalog => exact ⟨h.now, h.settings, rfl, h.caches⟩
  | wait later =>
      simp only [LookupEvent.next, h.now]
      split
      · exact ⟨rfl, h.settings, h.catalog, h.caches⟩
      · exact h

/-- The calls for a table are answered as if there were no others. -/
theorem answers (h : AlikeFor table p q) (events : List LookupEvent) :
    ((lookups p events).filter (·.table == table)).map Lookup.answer =
      (lookups q (events.filter (LookupEvent.concerns table))).map Lookup.answer := by
  induction events generalizing p q with
  | nil => rfl
  | cons event events ih =>
      rw [lookups]
      cases event with
      | wait later =>
          rw [List.filter_cons_of_pos rfl]
          exact ih (h.next (by simp))
      | change catalog =>
          rw [List.filter_cons_of_pos rfl]
          exact ih (h.next (by simp))
      | ask other =>
          by_cases hother : other = table
          · subst hother
            obtain ⟨hanswer, hleft⟩ := h.ask
            rw [List.filter_cons_of_pos (by simp [LookupEvent.concerns]), lookups]
            simp only [LookupEvent.calls, List.cons_append, List.nil_append]
            rw [List.filter_cons_of_pos (by simp), List.map_cons, List.map_cons, hanswer]
            exact congrArg _ (ih hleft)
          · rw [List.filter_cons_of_neg (by simp [LookupEvent.concerns, hother])]
            simp only [LookupEvent.calls, List.cons_append, List.nil_append]
            rw [List.filter_cons_of_neg (by simp [hother])]
            exact ih (h.ask_other hother)

end AlikeFor

/-! Lookups without a cache -/

/-- States with a cache that cannot be reached, and with none. -/
structure Unreached (p q : Platform) : Prop where
  now : p.now = q.now
  settings : p.settings = q.settings
  catalog : p.catalog = q.catalog
  cut : ∃ server : SharedCache, p.cache = .shared server ∧ server.isReachable = false
  none : q.cache = .disabled

theorem Lookup.run_of_disabled (call : Lookup) (hnamed : call.table.isNamed = true)
    (hcache : call.met.cache = .disabled) :
    call.run = (.ok call.current, { call.met with lookups := call.met.lookups + 1 }) := by
  rw [run_eq hnamed, hcache, if_neg (by decide)]

/-- A server that cannot be reached knows nothing, and is told nothing. -/
theorem Lookup.run_of_unreached (call : Lookup) (hnamed : call.table.isNamed = true)
    {server : SharedCache} (hcache : call.met.cache = .shared server)
    (hcut : server.isReachable = false) :
    call.run = (call.expiry.map fun _ => call.current,
      { call.met with lookups := call.met.lookups + 1 }) := by
  have hget : server.get call.key = none := by
    simp [SharedCache.get, hcut]
  have hput (entry : TimedAnswer) : server.put call.key entry call.met.now = server := by
    unfold SharedCache.put
    split <;> simp [hcut]
  rw [run_eq hnamed, hcache, if_pos (show (TableCache.shared server).isEnabled = true from rfl),
    TableCache.get, hget]
  cases call.expiry with
  | ok expiry =>
      simp only [TableCache.put, hput, ← hcache]
      rfl
  | error fault =>
      simp only [← hcache]
      rfl

namespace Unreached

variable {p q : Platform}

theorem ask (h : Unreached p q) (table : TenantTable) :
    ((Lookup.mk table p).answer = (Lookup.mk table q).answer ∨
        (Lookup.mk table p).IsBeyondCalendar) ∧
      Unreached (Lookup.mk table p).left (Lookup.mk table q).left := by
  cases hnamed : table.isNamed with
  | false =>
      obtain ⟨name, -, hrun⟩ := Lookup.run_of_not_isNamed hnamed
      unfold Lookup.left Lookup.answer
      rw [hrun, hrun]
      exact ⟨.inl rfl, h⟩
  | true =>
      obtain ⟨server, hp, hcut⟩ := h.cut
      have hrun := Lookup.run_of_unreached ⟨table, p⟩ hnamed hp hcut
      have hrun' := Lookup.run_of_disabled ⟨table, q⟩ hnamed h.none
      have hcurrent : (Lookup.mk table p).current = (Lookup.mk table q).current := by
        simp only [Lookup.current, Platform.hasTable, h.catalog]
      constructor
      · unfold Lookup.IsBeyondCalendar Lookup.answer
        rw [hrun, hrun', hcurrent]
        cases hexpiry : (Lookup.mk table p).expiry with
        | ok expiry => exact .inl rfl
        | error fault =>
            obtain ⟨reason, rfl⟩ := Lookup.expiry_eq_error hexpiry
            exact .inr ⟨reason, rfl, rfl⟩
      · unfold Lookup.left
        rw [hrun, hrun']
        exact ⟨h.now, h.settings, h.catalog, ⟨server, hp, hcut⟩, h.none⟩

theorem next (h : Unreached p q) (event : LookupEvent) :
    Unreached (event.next p) (event.next q) := by
  cases event with
  | ask table => exact (h.ask table).2
  | change catalog => exact ⟨h.now, h.settings, rfl, h.cut, h.none⟩
  | wait later =>
      simp only [LookupEvent.next, h.now]
      split
      · exact ⟨rfl, h.settings, h.catalog, h.cut, h.none⟩
      · exact h

theorem answers (h : Unreached p q) (events : List LookupEvent) :
    List.Forall₂ (fun call other => call.answer = other.answer ∨ call.IsBeyondCalendar)
      (lookups p events) (lookups q events) := by
  induction events generalizing p q with
  | nil => exact .nil
  | cons event events ih =>
      have hrest := ih (h.next event)
      cases event with
      | ask table => exact .cons (h.ask table).1 hrest
      | change catalog => exact hrest
      | wait later => exact hrest

end Unreached

theorem Lookup.left_of_disabled (call : Lookup) (hcache : call.met.cache = .disabled) :
    call.left.cache = .disabled := by
  unfold left
  cases hnamed : call.table.isNamed with
  | false =>
      obtain ⟨name, -, hrun⟩ := run_of_not_isNamed hnamed
      rw [show call.run = _ from hrun call.met]
      exact hcache
  | true =>
      rw [call.run_of_disabled hnamed hcache]
      exact hcache

theorem LookupEvent.next_of_disabled {p : Platform} (hcache : p.cache = .disabled)
    (event : LookupEvent) : (event.next p).cache = .disabled := by
  cases event with
  | ask table => exact Lookup.left_of_disabled ⟨table, p⟩ hcache
  | change catalog => exact hcache
  | wait later =>
      simp only [next]
      split
      · exact hcache
      · exact hcache

/-- Without a cache, every answer is the catalog's. -/
theorem answer_of_disabled {p : Platform} (hcache : p.cache = .disabled)
    (events : List LookupEvent) :
    ∀ call ∈ lookups p events, call.table.isNamed = true → call.answer = .ok call.current := by
  induction events generalizing p with
  | nil => simp [lookups]
  | cons event events ih =>
      intro call hmem hnamed
      rw [lookups, List.mem_append] at hmem
      rcases hmem with hfirst | hlater
      · cases event with
        | ask table =>
            rw [List.mem_singleton.mp hfirst] at hnamed ⊢
            exact congrArg Prod.fst (Lookup.run_of_disabled ⟨table, p⟩ hnamed hcache)
        | change catalog => cases hfirst
        | wait later => cases hfirst
      · exact ih (event.next_of_disabled hcache) call hlater hnamed

/-- What lookups among events are answered: with a cache in memory, without a cache, and with a
server that cannot be reached. -/
structure LookedUp (start : Platform) (events : List LookupEvent) : Prop where
  recent : ∀ before call after, lookups start events = before ++ call :: after →
    call.table.isNamed = true → call.IsRecent start.settings.cache.ttl before
  apart : ∀ table, ((lookups start events).filter (·.table == table)).map Lookup.answer =
    (lookups start (events.filter (LookupEvent.concerns table))).map Lookup.answer
  keys : ∀ a b : TenantTable, a.isNamed = true → b.isNamed = true →
    Directory.tableKey a = Directory.tableKey b → a = b
  uncached : ∀ call ∈ lookups { start with cache := .disabled } events,
    call.table.isNamed = true → call.answer = .ok call.current
  unreached : ∀ server : SharedCache, server.isReachable = false →
    List.Forall₂ (fun call other => call.answer = other.answer ∨ call.IsBeyondCalendar)
      (lookups { start with cache := .shared server } events)
      (lookups { start with cache := .disabled } events)

theorem lookedUp (start : Platform) (events : List LookupEvent)
    (hcache : start.cache = .memory .empty) (hpos : 0 < start.settings.cache.ttl) :
    LookedUp start events where
  recent := by
    have hfounded : FoundedOn start.settings.cache.ttl [] start .empty :=
      ⟨hcache, rfl, fun _ _ _ hentry => by cases hentry⟩
    exact hfounded.run hpos events
  apart table :=
    AlikeFor.answers ⟨rfl, rfl, rfl, _, _, hcache, hcache, rfl⟩ events
  keys _ _ hnamed _ := TenantTable.tableKey_inj hnamed
  uncached := answer_of_disabled rfl events
  unreached server hcut := by
    have hunreached : Unreached { start with cache := .shared server }
        { start with cache := .disabled } := ⟨rfl, rfl, rfl, ⟨server, rfl, hcut⟩, rfl⟩
    exact hunreached.answers events

/-- A table that is created between two lookups is found by the second one, when the first answer
has ended. -/
theorem lookedUp_of_creation :
    let start := Platform.new (.ofMigrations "migrations") ⟨⟨2024, 5, 1⟩, ⟨9, 0, 0, 0⟩, .offset 0⟩
    let table : TenantTable := ⟨"tenant_a", "students"⟩
    let events := [.ask table, .change [table], .ask table,
      .wait ⟨⟨2024, 5, 1⟩, ⟨9, 5, 0, 0⟩, .offset 0⟩, .ask table]
    start.cache = .memory .empty ∧ 0 < start.settings.cache.ttl ∧
      (lookups start events).map (Except.toOption ·.answer) =
        [some false, some false, some true] ∧ LookedUp start events := by
  intro start table events
  exact ⟨rfl, by decide, by decide +kernel, lookedUp start events rfl (by decide)⟩

/-- Two minutes before the calendar ends, no answer can be kept for five, and none is given. -/
theorem lookup_beyond_calendar :
    let start :=
      { Platform.new (.ofMigrations "migrations") ⟨⟨9999, 12, 31⟩, ⟨23, 58, 0, 0⟩, .offset 0⟩ with
        catalog := [⟨"tenant_a", "students"⟩] }
    start.cache = .memory .empty ∧ 0 < start.settings.cache.ttl ∧
      (lookups start [.ask ⟨"tenant_a", "students"⟩]).map Lookup.answer =
        [.error (.calendar .outsideCalendar)] := by
  refine ⟨rfl, by decide, ?_⟩
  rfl

end TenantReports
