import Mathlib.Data.List.Sort
import TenantReports.Proofs.Schedule.Turn

/-!
Batches: which schedules are selected, and that each of them has one turn and moves on, whatever
becomes of the runs.
-/

namespace TenantReports

open Api (Sound)

namespace Schedule

variable {a b c : Schedule}

/-- Whether the next run of a schedule is not after that of another. -/
def Precedes (a b : Schedule) : Prop :=
  ∀ x y, a.nextRunAt = some x → b.nextRunAt = some y → x.instant ≤ y.instant

theorem precedes_of_isBefore (h : a.isBefore b = true) : a.Precedes b := by
  intro x y hx hy
  unfold isBefore at h
  rw [hx, hy] at h
  exact of_decide_eq_true h

theorem isBefore_total (a b : Schedule) : (a.isBefore b || b.isBefore a) = true := by
  unfold isBefore
  cases a.nextRunAt with
  | none => rfl
  | some x =>
      cases b.nextRunAt with
      | none => rfl
      | some y =>
          rcases Int.le_total x.instant y.instant with hle | hle
          · simp [hle]
          · simp [hle]

theorem isBefore_trans (hab : a.isBefore b = true) (hbc : b.isBefore c = true) :
    a.isBefore c = true := by
  unfold isBefore at *
  cases ha : a.nextRunAt with
  | none => rfl
  | some x =>
      cases hb : b.nextRunAt with
      | none =>
          rw [ha, hb] at hab
          cases hab
      | some y =>
          cases hc : c.nextRunAt with
          | none =>
              rw [hb, hc] at hbc
              cases hbc
          | some z =>
              rw [ha, hb] at hab
              rw [hb, hc] at hbc
              exact decide_eq_true (Int.le_trans (of_decide_eq_true hab) (of_decide_eq_true hbc))

end Schedule

namespace Batch

/-- The schedules that are due, in the order in which they became so, up to a limit; a negative
limit is none. -/
structure Selects (db : Database) (now : DateTime) (limit : Int) (selected : List Schedule) :
    Prop where
  first : ∃ rest, (selected ++ rest).Perm (db.schedules.filter (·.isDueAt now)) ∧
    (selected ++ rest).Pairwise Schedule.Precedes
  count : selected.length =
    if limit < 0 then (db.schedules.filter (·.isDueAt now)).length
    else min limit.toNat (db.schedules.filter (·.isDueAt now)).length

theorem run_due (limit : Int) (p : Platform) :
    ∃ selected, (Schedules.due limit p.now).run p = (.ok selected, p) ∧
      Selects p.database p.now limit selected := by
  let due := p.database.schedules.filter (·.isDueAt p.now)
  have hperm : (Schedules.inOrder due).Perm due := List.mergeSort_perm _ _
  have hbefore : (Schedules.inOrder due).Pairwise fun a b => a.isBefore b = true :=
    @List.pairwise_mergeSort _ Schedule.isBefore (fun _ _ _ => Schedule.isBefore_trans)
      Schedule.isBefore_total due
  have hsorted : (Schedules.inOrder due).Pairwise Schedule.Precedes :=
    hbefore.imp fun h => Schedule.precedes_of_isBefore h
  refine ⟨_, rfl, ?_, ?_⟩
  · by_cases hlimit : limit < 0
    · refine ⟨[], ?_⟩
      rw [if_pos hlimit, List.append_nil]
      exact ⟨hperm, hsorted⟩
    · refine ⟨(Schedules.inOrder due).drop limit.toNat, ?_⟩
      rw [if_neg hlimit, List.take_append_drop]
      exact ⟨hperm, hsorted⟩
  · by_cases hlimit : limit < 0
    · rw [if_pos hlimit, if_pos hlimit]
      exact hperm.length_eq
    · rw [if_neg hlimit, if_neg hlimit, List.length_take]
      exact congrArg (min _) hperm.length_eq

theorem run_processDue {limit : Option Int} {selected : List Schedule} {p : Platform}
    (hdue : (Schedules.due (limitOf p.settings limit) p.now).run p = (.ok selected, p)) :
    (processDue limit).run p = (selected.mapM fun schedule => processOne schedule.id).run p := by
  have hget : (MonadState.get : Work Platform).run p = (.ok p, p) := rfl
  have hclock : Work.now.run p = (.ok p.now, p) := rfl
  unfold processDue
  rw [Action.run_bind, hget]
  dsimp only
  rw [Action.run_bind, hclock]
  dsimp only
  rw [Action.run_bind, hdue]

namespace Selects

variable {db : Database} {now : DateTime} {limit : Int} {selected : List Schedule}
  {schedule : Schedule}

theorem mem (h : Selects db now limit selected) (hmem : schedule ∈ selected) :
    schedule ∈ db.schedules ∧ schedule.isDueAt now = true := by
  obtain ⟨rest, hperm, -⟩ := h.first
  exact List.mem_filter.mp (hperm.subset (List.mem_append_left _ hmem))

theorem nodup (h : Selects db now limit selected) (hnum : Table.schedules.Numbered db) :
    (selected.map (·.id)).Nodup := by
  obtain ⟨rest, hperm, -⟩ := h.first
  have hdue : ((db.schedules.filter (·.isDueAt now)).map (·.id)).Nodup :=
    hnum.nodup.sublist (List.filter_sublist.map _)
  have hall := (hperm.map (·.id)).nodup_iff.mpr hdue
  rw [List.map_append] at hall
  exact (List.nodup_append.mp hall).1

end Selects

/-- The turns of schedules, one after another, and how each ended. -/
inductive Turns : List Schedule → List RunOutcome → Platform → Platform → Prop
  | done {p : Platform} : Turns [] [] p p
  | turn {schedule : Schedule} {schedules : List Schedule} {next : DateTime} {outcome : RunOutcome}
      {outcomes : List RunOutcome} {p q r : Platform} (turn : Turn schedule next outcome p q)
      (rest : Turns schedules outcomes q r) : Turns (schedule :: schedules) (outcome :: outcomes) p r

/-- The table of schedules once some of them were run: these move on, all others stay. -/
structure Advanced (settings : Settings) (now : DateTime) (selected old new : List Schedule) :
    Prop where
  rows : ∃ next : Uuid → DateTime,
    (∀ schedule ∈ selected, Schedules.nextRunBy settings now schedule.type schedule.config =
      .ok (next schedule.id)) ∧
    new = old.map fun row =>
      if row.id ∈ selected.map (·.id) then row.ranAt now (next row.id) else row

namespace Advanced

variable {settings : Settings} {now next : DateTime} {schedule : Schedule}
  {schedules old mid new : List Schedule}

theorem none (settings : Settings) (now : DateTime) (old : List Schedule) :
    Advanced settings now [] old old := by
  refine ⟨fun _ => now, fun _ h => (nomatch h), ?_⟩
  exact (List.map_id _).symm.trans (List.map_congr_left fun row _ => (if_neg (nomatch ·)).symm)

/-- One more schedule moves on before the others. -/
theorem cons (hother : schedule.id ∉ schedules.map (·.id))
    (htimed : Schedules.nextRunBy settings now schedule.type schedule.config = .ok next)
    (hmid : mid = old.map fun row => if row.id = schedule.id then row.ranAt now next else row)
    (h : Advanced settings now schedules mid new) :
    Advanced settings now (schedule :: schedules) old new := by
  obtain ⟨rest, hrest, hnew⟩ := h.rows
  refine ⟨fun id => if id = schedule.id then next else rest id, ?_, ?_⟩
  · intro other hmem
    dsimp only
    rcases List.mem_cons.mp hmem with rfl | hmem
    · rw [if_pos rfl]
      exact htimed
    · have hne : other.id ≠ schedule.id := fun hid => hother (hid ▸ List.mem_map_of_mem hmem)
      rw [if_neg hne]
      exact hrest other hmem
  · rw [hnew, hmid, List.map_map]
    refine List.map_congr_left fun row _ => ?_
    rw [Function.comp_apply, List.map_cons]
    dsimp only
    by_cases hid : row.id = schedule.id
    · have hran : (row.ranAt now next).id ∉ schedules.map (·.id) := fun h => hother (hid ▸ h)
      rw [if_pos hid, if_neg hran, if_pos (hid ▸ List.mem_cons_self ..), if_pos hid]
    · rw [if_neg hid, if_neg hid]
      simp only [List.mem_cons, hid, false_or]

end Advanced

/-- How a batch ends: all schedules have their turns and move on, or those do that come before
the first one without a next run. -/
inductive Ends (schedules : List Schedule) (p : Platform) :
    Except Fault (List RunOutcome) → Platform → Prop
  | all {outcomes : List RunOutcome} {q : Platform} (turns : Turns schedules outcomes p q)
      (advanced : Advanced p.settings p.now schedules p.database.schedules q.database.schedules) :
      Ends schedules p (.ok outcomes) q
  | stopped {before after : List Schedule} {schedule : Schedule} {outcomes : List RunOutcome}
      {fault : Fault} {q r : Platform} (split : schedules = before ++ schedule :: after)
      (turns : Turns before outcomes p q)
      (advanced : Advanced p.settings p.now before p.database.schedules q.database.schedules)
      (missing : Schedules.nextRunBy p.settings p.now schedule.type schedule.config = .error fault)
      (stays : Stays schedule q r) : Ends schedules p (.error fault) r

namespace Turns

variable {selected : List Schedule} {outcomes : List RunOutcome} {p q : Platform}

theorem told (h : Turns selected outcomes p q) :
    outcomes.map (·.schedule) = selected.map (·.id) := by
  induction h with
  | done => rfl
  | turn turn _ ih => rw [List.map_cons, List.map_cons, turn.told, ih]

theorem counted (h : Turns selected outcomes p q) :
    (summary outcomes).processed = selected.length ∧
      (summary outcomes).processed = (summary outcomes).succeeded + (summary outcomes).failed := by
  have hlength := congrArg List.length h.told
  simp only [List.length_map] at hlength
  unfold summary BatchSummary.ofStatuses
  dsimp only
  rw [List.length_map]
  refine ⟨hlength, ?_⟩
  clear hlength
  induction h with
  | done => rfl
  | turn turn _ ih =>
      rcases turn.status with hstatus | hstatus
      · rw [List.map_cons, hstatus, List.count_cons_self, List.count_cons_of_ne (by decide),
          List.length_cons]
        omega
      · rw [List.map_cons, hstatus, List.count_cons_self, List.count_cons_of_ne (by decide),
          List.length_cons]
        omega

end Turns

/-- A batch that came to its end. -/
structure Completed (p : Platform) (selected : List Schedule) (outcomes : List RunOutcome)
    (q : Platform) : Prop where
  told : outcomes.map (·.schedule) = selected.map (·.id)
  turns : Turns selected outcomes p q
  /-- The selected schedules have their next runs after now; all others are as they were. -/
  advanced : ∃ next : Uuid → DateTime,
    (∀ schedule ∈ selected, p.now.instant < (next schedule.id).instant) ∧
    q.database.schedules = p.database.schedules.map fun row =>
      if row.id ∈ selected.map (·.id) then row.ranAt p.now (next row.id) else row
  settled : ∀ row ∈ q.database.schedules, row.id ∈ selected.map (·.id) →
    row.isDueAt p.now = false
  counted : (summary outcomes).processed = selected.length ∧
    (summary outcomes).processed = (summary outcomes).succeeded + (summary outcomes).failed

theorem Turns.completed {selected : List Schedule} {outcomes : List RunOutcome} {p q : Platform}
    (h : Turns selected outcomes p q) (hnow : p.now.IsUniversal)
    (hadvanced : Advanced p.settings p.now selected p.database.schedules q.database.schedules) :
    Completed p selected outcomes q := by
  obtain ⟨next, htimed, hrows⟩ := hadvanced.rows
  have hlater : ∀ schedule ∈ selected, p.now.instant < (next schedule.id).instant :=
    fun schedule hmem => Schedules.lt_nextRunBy hnow (htimed schedule hmem)
  refine ⟨h.told, h, ⟨next, hlater, hrows⟩, fun row hrow hselected => ?_, h.counted⟩
  rw [hrows] at hrow
  obtain ⟨old, -, rfl⟩ := List.mem_map.mp hrow
  by_cases hold : old.id ∈ selected.map (·.id)
  · rw [if_pos hold]
    obtain ⟨schedule, hmem, hid⟩ := List.mem_map.mp hold
    have hnext := hlater schedule hmem
    rw [hid] at hnext
    unfold Schedule.ranAt Schedule.isDueAt
    simp [hnext]
  · rw [if_neg hold] at hselected
    exact absurd hselected hold

end Batch

namespace History

variable {settings : Settings} {exchanges : List Exchange} {p : Platform}

end History

end TenantReports
