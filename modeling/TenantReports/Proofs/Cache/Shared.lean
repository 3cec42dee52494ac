import TenantReports.Cache.Shared
import TenantReports.Proofs.Cache.Memory
import TenantReports.Proofs.Calendar.Span

/-!
A table cache on a server next to one in memory. Both are given the same answers and share a clock,
and the server drops an entry when its lifetime is over. What the server still knows, memory knows
too, unless the last answer had so little time left that it was never sent.
-/

namespace TenantReports

namespace SharedCache

variable {key other name : String} {stored entry : ServerEntry}

theorem serverKey_inj (h : serverKey key = serverKey other) : key = other :=
  String.append_right_inj _ |>.mp h

theorem mem_store (cache : SharedCache) : (name, stored) ∈ (cache.store key entry).entries ↔
    name = key ∧ stored = entry ∨ name ≠ key ∧ (name, stored) ∈ cache.entries := by
  simp only [store, List.mem_cons, Prod.mk.injEq, List.mem_filter, bne_iff_ne]
  tauto

theorem answerText_beq (answer : Bool) : (answerText answer == answerText true) = answer := by
  cases answer <;> decide

end SharedCache

/-- An answer that was put into both caches, and when. -/
structure Put where
  key : String
  entry : TimedAnswer
  time : DateTime

namespace Put

/-- How long the answer stood when it was put. -/
def lifetime (put : Put) : Duration := put.entry.expiry.since put.time

/-- An answer is sent to the server if it has a second left. -/
def isSent (put : Put) : Bool := 0 < put.lifetime.wholeSeconds

/-- The server keeps an answer for as many whole seconds as it has left. -/
def isKeptAt (put : Put) (now : DateTime) : Bool :=
  now.instant < put.time.instant + put.lifetime.wholeSeconds * microsPerSecond

variable {put : Put}

theorem isKeptAt_of_le {now later : DateTime} (hlater : now.instant ≤ later.instant)
    (h : put.isKeptAt later = true) : put.isKeptAt now = true := by
  simp only [isKeptAt, decide_eq_true_eq] at *
  omega

theorem isKeptAt_of_isSent (h : put.isSent = true) : put.isKeptAt put.time = true := by
  have hsecond : (0 : Int) < microsPerSecond := by decide
  simp only [isSent, isKeptAt, decide_eq_true_eq] at *
  exact Int.lt_add_of_pos_right _ (Int.mul_pos h hsecond)

theorem entryOf?_eq_some (put : Put) {stored : ServerEntry} :
    SharedCache.entryOf? put.entry put.time = some stored ↔ put.isSent = true ∧
      stored = ⟨SharedCache.answerText put.entry.answer, some put.lifetime.wholeSeconds⟩ := by
  unfold SharedCache.entryOf? isSent lifetime
  dsimp only
  split
  · next hpos => simp [hpos, eq_comm]
  · next hpos => simp [hpos]

end Put

/-- A server that drops an entry when its lifetime is over, with the times at which keys were
set. -/
structure Server where
  cache : SharedCache
  setAt : String → Int

namespace Server

def empty : Server := ⟨.empty, fun _ => 0⟩

def put (server : Server) (key : String) (entry : TimedAnswer) (now : DateTime) : Server where
  cache := server.cache.put key entry now
  setAt name :=
    if (SharedCache.entryOf? entry now).isSome ∧ name = SharedCache.serverKey key then now.instant
    else server.setAt name

def isKeptAt (server : Server) (now : DateTime) (stored : String × ServerEntry) : Bool :=
  stored.2.lifetime.all fun lifetime =>
    now.instant < server.setAt stored.1 + lifetime * microsPerSecond

def dropEnded (server : Server) (now : DateTime) : Server :=
  { server with cache.entries := server.cache.entries.filter (server.isKeptAt now) }

end Server

/-- What happens to two caches that share a clock. -/
inductive CacheEvent
  | put (key : String) (entry : TimedAnswer)
  | get (key : String)
  | wait (later : DateTime)

/-- A cache in memory and one on a server, and what was put into both so far, the last first. -/
structure Caches where
  now : DateTime
  memory : MemoryCache
  server : Server
  puts : List Put

namespace Caches

def start (now : DateTime) : Caches := ⟨now, .empty, .empty, []⟩

/-- The clock is never set back. -/
def step (caches : Caches) : CacheEvent → Caches
  | .put key entry =>
      { caches with
        memory := caches.memory.put key entry
        server := caches.server.put key entry caches.now
        puts := ⟨key, entry, caches.now⟩ :: caches.puts }
  | .get key => { caches with memory := (caches.memory.get key caches.now).2 }
  | .wait later =>
      if caches.now.instant ≤ later.instant then
        { caches with now := later, server := caches.server.dropEnded later }
      else caches

def run (caches : Caches) (events : List CacheEvent) : Caches := events.foldl step caches

/-- What memory answers now. -/
def remembered (caches : Caches) (key : String) : Option Bool :=
  (caches.memory.get key caches.now).1

/-- What the server answers now. -/
def shared (caches : Caches) (key : String) : Option Bool := caches.server.cache.get key

def lastPut? (caches : Caches) (key : String) : Option Put :=
  caches.puts.find? fun put => put.key == key

def lastSent? (caches : Caches) (key : String) : Option Put :=
  caches.puts.find? fun put => put.key == key && put.isSent

/-- What the two caches hold is what the last puts left there. -/
structure Traced (caches : Caches) : Prop where
  /-- Memory holds the last answer, if that has not ended. -/
  memory : ∀ key, (caches.memory.find? key).filter (·.isLiveAt caches.now) =
    ((caches.lastPut? key).map (·.entry)).filter (·.isLiveAt caches.now)
  reachable : caches.server.cache.isReachable = true
  setAt : ∀ key put, caches.lastSent? key = some put →
    caches.server.setAt (SharedCache.serverKey key) = put.time.instant
  /-- The server holds the last answer that was sent, until its whole seconds are over. -/
  server : ∀ name stored, (name, stored) ∈ caches.server.cache.entries ↔
    ∃ key put, name = SharedCache.serverKey key ∧ caches.lastSent? key = some put ∧
      SharedCache.entryOf? put.entry put.time = some stored ∧ put.isKeptAt caches.now = true

variable {caches : Caches}

theorem isSent_of_lastSent? {key : String} {put : Put} (h : caches.lastSent? key = some put) :
    put.isSent = true := by
  have hfound := List.find?_some h
  simp only [Bool.and_eq_true] at hfound
  exact hfound.2

theorem lastPut?_put (key other : String) (entry : TimedAnswer) :
    (caches.step (.put key entry)).lastPut? other =
      if other = key then some ⟨key, entry, caches.now⟩ else caches.lastPut? other := by
  unfold step lastPut?
  dsimp only
  rw [List.find?_cons]
  by_cases hother : other = key
  · simp [hother]
  · rw [if_neg hother, beq_eq_false_iff_ne.mpr (Ne.symm hother)]

theorem lastSent?_put (key other : String) (entry : TimedAnswer) :
    (caches.step (.put key entry)).lastSent? other =
      if other = key ∧ (⟨key, entry, caches.now⟩ : Put).isSent = true then
        some ⟨key, entry, caches.now⟩
      else caches.lastSent? other := by
  unfold step lastSent?
  dsimp only
  rw [List.find?_cons]
  by_cases hother : other = key
  · cases hsent : (⟨key, entry, caches.now⟩ : Put).isSent <;> simp [hother]
  · rw [if_neg (fun h => hother h.1), beq_eq_false_iff_ne.mpr (Ne.symm hother), Bool.false_and]

theorem traced_start (now : DateTime) : (start now).Traced where
  memory _ := rfl
  reachable := rfl
  setAt _ _ h := by cases h
  server _ _ := by
    constructor
    · intro hmem
      cases hmem
    · rintro ⟨_, _, _, hsent, _⟩
      cases hsent

namespace Traced

theorem get (h : caches.Traced) (key : String) : (caches.step (.get key)).Traced where
  memory other :=
    (MemoryCache.filter_find?_get caches.memory key other caches.now).trans (h.memory other)
  reachable := h.reachable
  setAt := h.setAt
  server := h.server

theorem isKeptAt_eq (h : caches.Traced) {key : String} {put : Put} {stored : ServerEntry}
    (hsent : caches.lastSent? key = some put)
    (hstored : SharedCache.entryOf? put.entry put.time = some stored) (now : DateTime) :
    caches.server.isKeptAt now (SharedCache.serverKey key, stored) = put.isKeptAt now := by
  obtain ⟨-, hentry⟩ := (Put.entryOf?_eq_some _).mp hstored
  subst hentry
  simp [Server.isKeptAt, Put.isKeptAt, h.setAt key put hsent]

theorem wait (h : caches.Traced) (later : DateTime) : (caches.step (.wait later)).Traced := by
  by_cases hlater : caches.now.instant ≤ later.instant
  · simp only [step, if_pos hlater]
    refine ⟨?_, h.reachable, h.setAt, ?_⟩
    · intro key
      have hlive : ∀ entry : TimedAnswer, (entry.isLiveAt caches.now && entry.isLiveAt later) =
          entry.isLiveAt later := by
        intro entry
        rw [Bool.and_eq_right_iff_imp]
        exact TimedAnswer.isLiveAt_of_le hlater
      have hmemory := congrArg (Option.filter (·.isLiveAt later)) (h.memory key)
      simp only [Option.filter_filter, hlive] at hmemory
      exact hmemory
    · intro name stored
      simp only [Server.dropEnded, List.mem_filter, h.server]
      constructor
      · rintro ⟨⟨key, put, rfl, hsent, hstored, -⟩, hkept⟩
        rw [h.isKeptAt_eq hsent hstored] at hkept
        exact ⟨key, put, rfl, hsent, hstored, hkept⟩
      · rintro ⟨key, put, rfl, hsent, hstored, hkept⟩
        refine ⟨⟨key, put, rfl, hsent, hstored, put.isKeptAt_of_le hlater hkept⟩, ?_⟩
        rwa [h.isKeptAt_eq hsent hstored]
  · simpa only [step, if_neg hlater] using h

/-- An answer with less than a second left is only put into memory. -/
theorem put_of_not_isSent {key : String} {entry : TimedAnswer}
    (hsent : (⟨key, entry, caches.now⟩ : Put).isSent = false) :
    (caches.step (.put key entry)).server = caches.server ∧
      ∀ other, (caches.step (.put key entry)).lastSent? other = caches.lastSent? other := by
  have hentry : SharedCache.entryOf? entry caches.now = none := by
    rw [Option.eq_none_iff_forall_ne_some]
    intro stored hstored
    have := (Put.entryOf?_eq_some ⟨key, entry, caches.now⟩).mp hstored
    simp [hsent] at this
  constructor
  · simp [step, Server.put, SharedCache.put, hentry]
  · intro other
    simp [lastSent?_put, hsent]

theorem put_of_isSent (h : caches.Traced) {key : String} {entry : TimedAnswer}
    (hsent : (⟨key, entry, caches.now⟩ : Put).isSent = true) :
    ∃ stored, SharedCache.entryOf? entry caches.now = some stored ∧
      (caches.step (.put key entry)).server.cache =
        caches.server.cache.store (SharedCache.serverKey key) stored ∧
      ∀ name, (caches.step (.put key entry)).server.setAt name =
        if name = SharedCache.serverKey key then caches.now.instant
        else caches.server.setAt name := by
  obtain ⟨stored, hstored⟩ : ∃ stored, SharedCache.entryOf? entry caches.now = some stored :=
    ⟨_, (Put.entryOf?_eq_some ⟨key, entry, caches.now⟩).mpr ⟨hsent, rfl⟩⟩
  refine ⟨stored, hstored, ?_, ?_⟩
  · simp [step, Server.put, SharedCache.put, hstored, h.reachable]
  · intro name
    simp [step, Server.put, hstored]

theorem put (h : caches.Traced) (key : String) (entry : TimedAnswer) :
    (caches.step (.put key entry)).Traced := by
  have hmemory (other : String) :
      ((caches.step (.put key entry)).memory.find? other).filter (·.isLiveAt caches.now) =
        (((caches.step (.put key entry)).lastPut? other).map (·.entry)).filter
          (·.isLiveAt caches.now) := by
    rw [lastPut?_put]
    simp only [step, MemoryCache.find?_put]
    split
    · rfl
    · exact h.memory other
  cases hsent : (⟨key, entry, caches.now⟩ : Put).isSent with
  | false =>
      obtain ⟨hserver, hlast⟩ := put_of_not_isSent hsent
      refine ⟨hmemory, ?_, ?_, ?_⟩
      · rw [hserver]
        exact h.reachable
      · intro other put hput
        rw [hserver]
        exact h.setAt other put (hlast other ▸ hput)
      · intro name stored
        simp only [hserver, hlast]
        exact h.server name stored
  | true =>
      obtain ⟨stored, hstored, hcache, htimes⟩ := h.put_of_isSent hsent
      have hlast : ∀ other, (caches.step (.put key entry)).lastSent? other =
          if other = key then some ⟨key, entry, caches.now⟩ else caches.lastSent? other := by
        intro other
        simp [lastSent?_put, hsent]
      refine ⟨hmemory, ?_, ?_, ?_⟩
      · rw [hcache]
        exact h.reachable
      · intro other put hput
        rw [hlast] at hput
        rw [htimes]
        split at hput
        · next hother =>
            cases hput
            rw [if_pos (by rw [hother])]
        · next hother =>
            rw [if_neg (fun heq => hother (SharedCache.serverKey_inj heq))]
            exact h.setAt other put hput
      · intro name found
        rw [hcache, SharedCache.mem_store, h.server]
        constructor
        · rintro (⟨rfl, rfl⟩ | ⟨hname, other, put, rfl, hput, hfound, hkept⟩)
          · refine ⟨key, ⟨key, entry, caches.now⟩, rfl, ?_, hstored, Put.isKeptAt_of_isSent hsent⟩
            rw [hlast, if_pos rfl]
          · refine ⟨other, put, rfl, ?_, hfound, hkept⟩
            rw [hlast, if_neg (fun heq => hname (congrArg SharedCache.serverKey heq))]
            exact hput
        · rintro ⟨other, put, rfl, hput, hfound, hkept⟩
          rw [hlast] at hput
          split at hput
          · next hother =>
              cases hput
              exact .inl ⟨congrArg SharedCache.serverKey hother,
                Option.some.inj (hfound.symm.trans hstored)⟩
          · next hother =>
              exact .inr ⟨fun heq => hother (SharedCache.serverKey_inj heq),
                other, put, rfl, hput, hfound, hkept⟩

theorem step (h : caches.Traced) (event : CacheEvent) : (caches.step event).Traced := by
  cases event with
  | put key entry => exact h.put key entry
  | get key => exact h.get key
  | wait later => exact h.wait later

theorem run (h : caches.Traced) (events : List CacheEvent) : (caches.run events).Traced := by
  induction events generalizing caches with
  | nil => exact h
  | cons event events ih => exact ih (h.step event)

theorem remembered_eq (h : caches.Traced) (key : String) : caches.remembered key =
    ((caches.lastPut? key).filter (·.entry.isLiveAt caches.now)).map (·.entry.answer) := by
  unfold remembered
  rw [MemoryCache.answer_get, h.memory]
  cases caches.lastPut? key with
  | none => rfl
  | some put => cases hlive : put.entry.isLiveAt caches.now <;> simp [hlive, Option.filter]

theorem shared_eq (h : caches.Traced) (key : String) : caches.shared key =
    ((caches.lastSent? key).filter (·.isKeptAt caches.now)).map (·.entry.answer) := by
  unfold shared SharedCache.get
  rw [if_pos h.reachable]
  cases hlookup : caches.server.cache.entries.lookup (SharedCache.serverKey key) with
  | none =>
      rw [List.lookup_eq_none_iff] at hlookup
      cases hput : caches.lastSent? key with
      | none => rfl
      | some put =>
          have hended : ¬ put.isKeptAt caches.now = true := by
            intro hkept
            have hentry := (Put.entryOf?_eq_some _).mpr ⟨isSent_of_lastSent? hput, rfl⟩
            have hmem := (h.server _ _).mpr ⟨key, put, rfl, hput, hentry, hkept⟩
            simpa using hlookup _ hmem
          simp [Option.filter, hended]
  | some stored =>
      obtain ⟨before, after, hentries, -⟩ := List.lookup_eq_some_iff.mp hlookup
      have hmem : (SharedCache.serverKey key, stored) ∈ caches.server.cache.entries := by
        simp [hentries]
      obtain ⟨other, put, hname, hput, hstored, hkept⟩ := (h.server _ _).mp hmem
      obtain ⟨-, hentry⟩ := (Put.entryOf?_eq_some _).mp hstored
      rw [SharedCache.serverKey_inj hname, hput, hentry]
      simp [Option.filter, hkept, SharedCache.answerText_beq]

end Traced

theorem lastSent?_of_isSent {key : String} {put : Put} (hput : caches.lastPut? key = some put)
    (hsent : put.isSent = true) : caches.lastSent? key = some put := by
  unfold lastPut? lastSent? at *
  generalize caches.puts = puts at *
  induction puts with
  | nil => cases hput
  | cons first puts ih =>
      rw [List.find?_cons] at hput ⊢
      by_cases hkey : first.key = key
      · rw [beq_iff_eq.mpr hkey] at hput ⊢
        cases hput
        rw [hsent]
        rfl
      · rw [beq_eq_false_iff_ne.mpr hkey] at hput ⊢
        exact ih hput

theorem exists_lastPut? {key : String} {put : Put} (h : caches.lastSent? key = some put) :
    ∃ last, caches.lastPut? key = some last := by
  rw [← Option.isSome_iff_exists]
  have hfound := List.find?_some h
  rw [Bool.and_eq_true] at hfound
  exact List.find?_isSome.mpr ⟨put, List.mem_of_find?_eq_some h, hfound.1⟩

end Caches

namespace Put

variable {put : Put}

theorem isSent_eq_false (h : put.lifetime.micros < microsPerSecond) : put.isSent = false := by
  have hnonpos : put.lifetime.wholeSeconds ≤ 0 := by
    rcases Int.lt_or_le put.lifetime.micros 0 with hneg | hnonneg
    · exact Duration.wholeSeconds_nonpos hneg
    · obtain ⟨n, hn⟩ := Int.eq_ofNat_of_zero_le hnonneg
      have hsecond : n < microsPerSecond := by omega
      have hexact : n < Duration.exactBound := Nat.lt_trans hsecond (by decide)
      have hseconds := Duration.wholeSeconds_of_lt hexact
      rw [Nat.div_eq_of_lt hsecond, ← hn] at hseconds
      exact Int.le_of_eq hseconds
  simpa [isSent] using hnonpos

/-- How long the server keeps an answer that stands for a second or more. -/
theorem wholeSeconds_bounds (hsecond : microsPerSecond ≤ put.lifetime.micros)
    (h : put.lifetime.micros < Duration.fractionBound) :
    0 < put.lifetime.wholeSeconds ∧
      put.lifetime.wholeSeconds * microsPerSecond ≤ put.lifetime.micros + microsPerSecond ∧
      (put.lifetime.micros < Duration.exactBound →
        put.lifetime.wholeSeconds * microsPerSecond ≤ put.lifetime.micros) := by
  obtain ⟨n, hn⟩ := Int.eq_ofNat_of_zero_le (show 0 ≤ put.lifetime.micros by
    unfold microsPerSecond at hsecond
    omega)
  have hlifetime : put.lifetime = ⟨n⟩ := congrArg Duration.mk hn
  rw [hlifetime] at hsecond h ⊢
  obtain ⟨hlower, hupper⟩ := Duration.wholeSeconds_bounds (Int.ofNat_lt.mp h)
  have hexact (hlt : (n : Int) < Duration.exactBound) :=
    Duration.wholeSeconds_of_lt (Int.ofNat_lt.mp hlt)
  unfold microsPerSecond at *
  dsimp only at *
  refine ⟨by omega, by omega, ?_⟩
  intro hlt
  have := hexact hlt
  omega

end Put

namespace Caches

variable {caches : Caches}

/-- The last answer had less than a second left and was put into memory alone; the server still
knows the one before it. -/
def KnowsEarlier (caches : Caches) (key : String) (answer : Bool) : Prop :=
  ∃ last sent, caches.lastPut? key = some last ∧ caches.lastSent? key = some sent ∧
    last.lifetime.micros < microsPerSecond ∧ last.isSent = false ∧
    sent.entry.answer = answer ∧ sent.isKeptAt caches.now = true

/-- The last answer stood so long that its seconds were rounded up. -/
def KnowsLonger (caches : Caches) (key : String) (answer : Bool) : Prop :=
  ∃ last, caches.lastPut? key = some last ∧ Duration.exactBound ≤ last.lifetime.micros ∧
    (last.lifetime.micros < Duration.fractionBound → last.entry.answer = answer ∧
      last.entry.expiry.instant ≤ caches.now.instant ∧
      caches.now.instant < last.entry.expiry.instant + microsPerSecond)

theorem Traced.shared_cases (h : caches.Traced) {key : String} {answer : Bool}
    (hshared : caches.shared key = some answer) :
    caches.remembered key = some answer ∨ caches.KnowsEarlier key answer ∨
      caches.KnowsLonger key answer := by
  rw [h.shared_eq] at hshared
  obtain ⟨sent, hsent, hanswer⟩ := Option.map_eq_some_iff.mp hshared
  obtain ⟨hsent, hkept⟩ := Option.filter_eq_some_iff.mp hsent
  obtain ⟨last, hlast⟩ := exists_lastPut? hsent
  rcases Int.lt_or_le last.lifetime.micros microsPerSecond with hshort | hsecond
  · exact .inr (.inl ⟨last, sent, hlast, hsent, hshort, Put.isSent_eq_false hshort, hanswer, hkept⟩)
  rw [h.remembered_eq, hlast]
  have hspan : last.lifetime.micros = last.entry.expiry.instant - last.time.instant := rfl
  have hsame (hfraction : last.lifetime.micros < Duration.fractionBound) : last = sent := by
    have hpos := (Put.wholeSeconds_bounds hsecond hfraction).1
    have hlast := lastSent?_of_isSent hlast (decide_eq_true hpos)
    exact Option.some.inj (hlast.symm.trans hsent)
  unfold Put.isKeptAt at hkept
  rw [decide_eq_true_eq] at hkept
  rcases Int.lt_or_le last.lifetime.micros Duration.exactBound with hexact | hlong
  · have hfraction : last.lifetime.micros < Duration.fractionBound :=
      Int.lt_trans hexact (by decide)
    have hbound := (Put.wholeSeconds_bounds hsecond hfraction).2.2 hexact
    rw [← hsame hfraction] at hkept hanswer
    have hlive : last.entry.isLiveAt caches.now = true :=
      TimedAnswer.isLiveAt_iff.mpr (by omega)
    exact .inl (by simp [Option.filter, hlive, hanswer])
  rcases Int.lt_or_le last.lifetime.micros Duration.fractionBound with hfraction | hbeyond
  · have hbound := (Put.wholeSeconds_bounds hsecond hfraction).2.1
    rw [← hsame hfraction] at hkept hanswer
    cases hlive : last.entry.isLiveAt caches.now with
    | true => exact .inl (by simp [Option.filter, hlive, hanswer])
    | false =>
        rw [← Bool.not_eq_true, TimedAnswer.isLiveAt_iff, Int.not_lt] at hlive
        exact .inr (.inr ⟨last, hlast, hlong, fun _ => ⟨hanswer, hlive, by omega⟩⟩)
  · exact .inr (.inr ⟨last, hlast, hlong, fun h => absurd h (Int.not_lt.mpr hbeyond)⟩)

/-- What the server answers, memory answers too, unless the server still knows an answer that was
replaced in memory alone, or lifetimes of more than five hundred years are rounded. -/
theorem shared_remembered (now : DateTime) (events : List CacheEvent) (key : String)
    (answer : Bool) (hshared : ((start now).run events).shared key = some answer) :
    ((start now).run events).remembered key = some answer ∨
      ((start now).run events).KnowsEarlier key answer ∨
      ((start now).run events).KnowsLonger key answer :=
  ((traced_start now).run events).shared_cases hshared

/-- Nine o'clock, and some microseconds. -/
def nineAnd (micros : Nat) : DateTime :=
  ⟨⟨2024, 5, 1⟩, .ofMicros (9 * 3600 * microsPerSecond + micros), .offset 0⟩

/-- An answer is asked for after a while. -/
theorem shared_remembered_of_wait :
    let caches := (start (nineAnd 0)).run
      [.put "tenant_a.students" ⟨true, nineAnd 100000000⟩, .wait (nineAnd 90000000)]
    caches.shared "tenant_a.students" = some true ∧
      (caches.remembered "tenant_a.students" = some true ∨
        caches.KnowsEarlier "tenant_a.students" true ∨
        caches.KnowsLonger "tenant_a.students" true) := by
  intro caches
  have hshared : caches.shared "tenant_a.students" = some true := by decide +kernel
  exact ⟨hshared, shared_remembered _ _ _ _ hshared⟩

/-- An answer for half a second replaces the one before it in memory, but not on the server. -/
theorem not_shared_remembered : ¬ ∀ now events key answer,
    ((start now).run events).shared key = some answer →
      ((start now).run events).remembered key = some answer := by
  intro h
  have hremembered := h (nineAnd 0)
    [.put "tenant_a.students" ⟨true, nineAnd 100000000⟩,
      .put "tenant_a.students" ⟨false, nineAnd 500000⟩]
    "tenant_a.students" true (by decide +kernel)
  exact absurd hremembered (by decide +kernel)

end Caches

end TenantReports
