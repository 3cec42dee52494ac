import Mathlib.Data.List.Induction
import TenantReports.Proofs.Cache.Memory
import TenantReports.Proofs.Latest

/-!
What a table cache in memory answers after a history of uses: what was last put for the key since
the cache was last cleared, for as long as that is so. To ask for a key changes no answer.
-/

namespace TenantReports

/-- A use of a table cache in memory, or of the clock that it reads. -/
inductive MemoryUse
  | put (key : String) (entry : TimedAnswer)
  | get (key : String)
  | clear
  | wait (later : DateTime)

namespace MemoryUse

/-- Whether a use settles what the cache holds for a key. -/
def Settles (key : String) : MemoryUse → Prop
  | put other _ => other = key
  | clear => True
  | get _ | wait _ => False

/-- Whether a use has nothing to do with the answers for a key: something is asked for, or put for
another key. -/
def IsAside (key : String) : MemoryUse → Prop
  | put other _ => other ≠ key
  | get _ => True
  | clear | wait _ => False

theorem IsAside.not_settles {key : String} {use : MemoryUse} (h : use.IsAside key) :
    ¬use.Settles key := by
  cases use with
  | put other entry => exact h
  | get other => exact id
  | clear => exact h.elim
  | wait later => exact h.elim

/-- The clock after a use, which is never set back. -/
def clockAfter (now : DateTime) : MemoryUse → DateTime
  | wait later => if now.instant ≤ later.instant then later else now
  | put _ _ | get _ | clear => now

theorem IsAside.clockAfter {key : String} {use : MemoryUse} (h : use.IsAside key)
    (now : DateTime) : use.clockAfter now = now := by
  cases use with
  | wait later => exact h.elim
  | _ => rfl

end MemoryUse

open MemoryUse (Settles IsAside)

/-- A cache in memory and the clock that it reads. -/
structure TimedCache where
  cache : MemoryCache
  now : DateTime

namespace TimedCache

def step (timed : TimedCache) (use : MemoryUse) : TimedCache where
  now := use.clockAfter timed.now
  cache :=
    match use with
    | .put key entry => timed.cache.put key entry
    | .get key => (timed.cache.get key timed.now).2
    | .clear => .empty
    | .wait _ => timed.cache

/-- An empty cache after some uses. -/
def after (start : DateTime) (uses : List MemoryUse) : TimedCache :=
  uses.foldl step ⟨.empty, start⟩

/-- What the cache answers now. -/
def answer (timed : TimedCache) (key : String) : Option Bool := (timed.cache.get key timed.now).1

variable {timed : TimedCache} {key : String} {start : DateTime} {uses : List MemoryUse}

theorem after_concat (start : DateTime) (uses : List MemoryUse) (use : MemoryUse) :
    after start (uses ++ [use]) = (after start uses).step use := by
  unfold after
  rw [List.foldl_append]
  rfl

/-- The clock depends on how long was waited alone. -/
theorem now_foldl_step (uses : List MemoryUse) (timed : TimedCache) :
    (uses.foldl step timed).now = uses.foldl (fun now use => use.clockAfter now) timed.now := by
  induction uses generalizing timed with
  | nil => rfl
  | cons use uses ih =>
      rw [List.foldl_cons, List.foldl_cons, ih]
      rfl

theorem now_after_insert {before rest : List MemoryUse} {use : MemoryUse} (h : use.IsAside key) :
    (after start (before ++ use :: rest)).now = (after start (before ++ rest)).now := by
  unfold after
  rw [now_foldl_step, now_foldl_step, List.foldl_append, List.foldl_append, List.foldl_cons,
    h.clockAfter]

/-- What is still so is held exactly if it was put last. -/
def Recalls (timed : TimedCache) (uses : List MemoryUse) : Prop :=
  ∀ key entry, entry.isLiveAt timed.now = true →
    (timed.cache.find? key = some entry ↔ IsLatest (Settles key) (.put key entry) uses)

namespace Recalls

theorem put (h : timed.Recalls uses) (key : String) (entry : TimedAnswer) :
    (timed.step (.put key entry)).Recalls (uses ++ [.put key entry]) := by
  intro other found hlive
  change (timed.cache.put key entry).find? other = some found ↔ _
  rw [MemoryCache.find?_put, isLatest_concat]
  by_cases hother : other = key
  · subst hother
    simp [Settles, eq_comm]
  · rw [if_neg hother, h other found hlive]
    simp [Settles, Ne.symm hother]

theorem get (h : timed.Recalls uses) (key : String) :
    (timed.step (.get key)).Recalls (uses ++ [.get key]) := by
  intro other found (hlive : found.isLiveAt timed.now = true)
  change (timed.cache.get key timed.now).2.find? other = some found ↔ _
  have hfound : (timed.cache.get key timed.now).2.find? other = some found ↔
      timed.cache.find? other = some found := by
    rw [MemoryCache.find?_get]
    split
    · simpa [Option.filter_eq_some_iff] using fun _ => hlive
    · rfl
  rw [hfound, h other found hlive, isLatest_concat]
  simp [Settles]

theorem clear (timed : TimedCache) (uses : List MemoryUse) :
    (timed.step .clear).Recalls (uses ++ [.clear]) := by
  intro other found hlive
  rw [isLatest_concat]
  simp [TimedCache.step, Settles, MemoryCache.empty, MemoryCache.find?]

theorem wait (h : timed.Recalls uses) (later : DateTime) :
    (timed.step (.wait later)).Recalls (uses ++ [.wait later]) := by
  intro other found (hlive : found.isLiveAt ((MemoryUse.wait later).clockAfter timed.now) = true)
  have hbefore : found.isLiveAt timed.now = true := by
    unfold MemoryUse.clockAfter at hlive
    dsimp only at hlive
    split at hlive
    · next hlater => exact TimedAnswer.isLiveAt_of_le hlater hlive
    · exact hlive
  change timed.cache.find? other = some found ↔ _
  rw [h other found hbefore, isLatest_concat]
  simp [Settles]

theorem step (h : timed.Recalls uses) (use : MemoryUse) :
    (timed.step use).Recalls (uses ++ [use]) := by
  cases use with
  | put key entry => exact h.put key entry
  | get key => exact h.get key
  | clear => exact clear timed uses
  | wait later => exact h.wait later

theorem answer_eq_some_iff (h : timed.Recalls uses) (key : String) (answer : Bool) :
    timed.answer key = some answer ↔ ∃ entry, IsLatest (Settles key) (.put key entry) uses ∧
      timed.now.instant < entry.expiry.instant ∧ entry.answer = answer := by
  unfold TimedCache.answer
  rw [MemoryCache.answer_get, Option.map_eq_some_iff]
  refine exists_congr fun entry => ?_
  rw [Option.filter_eq_some_iff, and_assoc, ← TimedAnswer.isLiveAt_iff]
  constructor
  · rintro ⟨hfound, hlive, hanswer⟩
    exact ⟨(h key entry hlive).mp hfound, hlive, hanswer⟩
  · rintro ⟨hlatest, hlive, hanswer⟩
    exact ⟨(h key entry hlive).mpr hlatest, hlive, hanswer⟩

theorem answer_eq_none_iff (h : timed.Recalls uses) (key : String) :
    timed.answer key = none ↔ ∀ entry, IsLatest (Settles key) (.put key entry) uses →
      entry.expiry.instant ≤ timed.now.instant := by
  constructor
  · intro hnone entry hlatest
    by_contra hlive
    have hsome := (h.answer_eq_some_iff key entry.answer).mpr
      ⟨entry, hlatest, Int.not_le.mp hlive, rfl⟩
    exact Option.some_ne_none _ (hsome.symm.trans hnone)
  · intro hended
    refine Option.eq_none_iff_forall_ne_some.mpr fun answer hsome => ?_
    obtain ⟨entry, hlatest, hlive, -⟩ := (h.answer_eq_some_iff key answer).mp hsome
    exact absurd hlive (Int.not_lt.mpr (hended entry hlatest))

end Recalls

theorem recalls_after (start : DateTime) (uses : List MemoryUse) :
    (after start uses).Recalls uses := by
  induction uses using List.reverseRecOn with
  | nil =>
      intro key entry _
      simp [after, MemoryCache.empty, MemoryCache.find?]
  | append_singleton uses use ih =>
      rw [after_concat]
      exact ih.step use

/-- A cache answers what was last put for a key since it was last cleared, as long as the clock has
not reached the end of that, and nothing otherwise. No answer for the key depends on what was asked
for before, or put for other keys. -/
theorem answers_latest (start : DateTime) :
    (∀ (uses : List MemoryUse) (key : String) (answer : Bool),
      (after start uses).answer key = some answer ↔
        ∃ entry, IsLatest (Settles key) (.put key entry) uses ∧
          (after start uses).now.instant < entry.expiry.instant ∧ entry.answer = answer) ∧
    (∀ (uses : List MemoryUse) (key : String), (after start uses).answer key = none ↔
      ∀ entry, IsLatest (Settles key) (.put key entry) uses →
        entry.expiry.instant ≤ (after start uses).now.instant) ∧
    ∀ (before rest : List MemoryUse) (use : MemoryUse) (key : String), use.IsAside key →
      (after start (before ++ use :: rest)).answer key =
        (after start (before ++ rest)).answer key := by
  refine ⟨fun uses => (recalls_after start uses).answer_eq_some_iff,
    fun uses => (recalls_after start uses).answer_eq_none_iff,
    fun before rest use key haside => Option.ext fun answer => ?_⟩
  rw [(recalls_after start _).answer_eq_some_iff, (recalls_after start _).answer_eq_some_iff,
    now_after_insert haside]
  simp only [isLatest_insert haside.not_settles]

/-- Some seconds past nine. -/
def pastNine (seconds : Nat) : DateTime :=
  ⟨⟨2024, 5, 1⟩, .ofMicros ((9 * 3600 + seconds) * microsPerSecond), .offset 0⟩

/-- An answer for a minute stands until the minute is over. -/
theorem answers_latest_of_put :
    let put : MemoryUse := .put "tenant_a.students" ⟨true, pastNine 60⟩
    let aside : MemoryUse := .put "tenant_a.teachers" ⟨false, pastNine 90⟩
    (after (pastNine 0) [put, .wait (pastNine 59)]).answer "tenant_a.students" = some true ∧
      (after (pastNine 0) [put, .wait (pastNine 60)]).answer "tenant_a.students" = none ∧
      (pastNine 60).instant ≤ (after (pastNine 0) [put, .wait (pastNine 60)]).now.instant ∧
      (after (pastNine 0) [put, aside, .wait (pastNine 59)]).answer "tenant_a.students" =
        some true := by
  intro put aside
  obtain ⟨hanswer, hnone, haside⟩ := answers_latest (pastNine 0)
  have hlatest (later : DateTime) : IsLatest (Settles "tenant_a.students")
      (.put "tenant_a.students" ⟨true, pastNine 60⟩) [put, .wait later] :=
    ⟨rfl, [], [.wait later], rfl, by simp [Settles]⟩
  have hstands : (after (pastNine 0) [put, .wait (pastNine 59)]).answer "tenant_a.students" =
      some true :=
    (hanswer _ _ _).mpr ⟨_, hlatest _, by decide +kernel, rfl⟩
  have hended : (after (pastNine 0) [put, .wait (pastNine 60)]).answer "tenant_a.students" =
      none := by
    decide +kernel
  have hother : IsAside "tenant_a.students" aside := by simp [aside, IsAside]
  exact ⟨hstands, hended, (hnone _ _).mp hended ⟨true, pastNine 60⟩ (hlatest _),
    (haside [put] [.wait (pastNine 59)] aside _ hother).trans hstands⟩

end TimedCache

end TenantReports
