import TenantReports.Proofs.Api.History

/-!
The record of runs: every query that is sent has one execution, which is stored as running before
the query and is ended once, and which no later request changes, but for the reference to a custom
report that is deleted.
-/

namespace TenantReports

open Relation (ReflTransGen)
open Table (IsLater)
open Runs (Sending)

namespace Api

/-- Runs, one after another. Nothing else sends a query. -/
inductive Course (start : Platform) : List Sending → Platform → Prop
  | start : Course start [] start
  | quiet {sendings : List Sending} {p q : Platform} (course : Course start sendings p)
      (h : q.connection.queries = p.connection.queries) : Course start sendings q
  | run {sendings : List Sending} {sending : Sending}
      (course : Course start sendings sending.before) :
      Course start (sendings ++ [sending]) sending.left

theorem Course.queries {start q : Platform} {sendings : List Sending}
    (h : Course start sendings q) :
    q.connection.queries = start.connection.queries ++ sendings.map (·.sql) := by
  induction h with
  | start => simp
  | quiet course hquiet ih => exact hquiet.trans ih
  | @run sendings sending course ih =>
      have hsent := sending.sent.queries
      have hbegun : sending.begun.connection.queries = sending.before.connection.queries := rfl
      change sending.after.connection.queries = _
      rw [hsent, hbegun, ih, List.map_append, List.append_assoc]
      rfl

/-- A row after other requests: as it was, but that a custom report that was deleted meanwhile is
forgotten. -/
def Kept (db db' : Database) (row row' : Execution) : Prop :=
  row' = row ∨ ∃ report ∈ db.customReports, row.source = .custom (some report.id) ∧
    (∀ other ∈ db'.customReports, other.id ≠ report.id) ∧
    row' = { row with source := .custom none }

theorem Kept.id_eq {db db' : Database} {row row' : Execution} (h : Kept db db' row row') :
    row'.id = row.id := by
  rcases h with rfl | ⟨report, -, -, -, rfl⟩
  · rfl
  · rfl

/-- The row of a run that is over; its export may be recorded. -/
def Ended (sending : Sending) (row : Execution) : Prop :=
  row = { sending.ended with exportUrl := row.exportUrl }

/-- The rows of executions after runs. -/
structure Ledger (start q : Platform) (sendings : List Sending) : Prop where
  course : Course start sendings q
  sources : ∀ sending ∈ sendings, ∃ tenant, sending.order.tenant = some tenant ∧
    Sources tenant start.database sending.order.source sending.sql
  rows : ∃ olds news, q.database.executions = olds ++ news ∧
    List.Forall₂ (Kept start.database q.database) start.database.executions olds ∧
    List.Forall₂ Ended sendings news

namespace Ledger

variable {request : ApiRequest} {start p q : Platform} {sendings : List Sending}

theorem refl (start : Platform) : Ledger start start [] where
  course := .start
  sources := fun _ h => nomatch h
  rows := ⟨start.database.executions, [], by simp, List.forall₂_same.mpr fun _ _ => .inl rfl,
    .nil⟩

/-- Identifiers of custom reports are not given out again. -/
theorem kept_step {owner : Option Uuid} (hstart : Sound start.database)
    (hfollows : Follows start p) (hstep : Step request start.database owner p q)
    {row row' : Execution} (h : Kept start.database p.database row row') :
    Kept start.database q.database row row' := by
  rcases h with rfl | ⟨report, hreport, hsource, hgone, rfl⟩
  · exact .inl rfl
  · refine .inr ⟨report, hreport, hsource, fun other hother hid => ?_, rfl⟩
    rcases (hstep.customReports hfollows.sound).origin hother with ⟨old, hold, hsame, -⟩ | ⟨hnew, -⟩
    · exact hgone old hold (hsame.symm.trans hid)
    · have hlater := Table.isLater_nextId (hfollows.attempts .customReports)
      exact hstart.customReports.id_ne_of_isLater hlater hreport (hid.symm.trans hnew)

theorem step (h : Ledger start p sendings) (hstart : Sound start.database)
    (hfollows : Follows start p) (hstep : AnyStep request start.database p q) :
    ∃ sendings', Ledger start q sendings' := by
  obtain ⟨owner, hstep⟩ := hstep
  obtain ⟨olds, news, hrows, holds, hnews⟩ := h.rows
  have hkept : List.Forall₂ (Kept start.database q.database) start.database.executions olds :=
    holds.imp fun _ _ => kept_step hstart hfollows hstep
  have hquiet : q.database.executions = p.database.executions →
      q.connection.queries = p.connection.queries → ∃ sendings', Ledger start q sendings' :=
    fun hsame hqueries => ⟨sendings, h.course.quiet hqueries, h.sources, olds, news,
      hsame.trans hrows, hkept, hnews⟩
  cases hstep with
  | aside haside => exact hquiet (congrArg Database.executions haside.database) haside.queries
  | @run tenant sending kept own source cause =>
      refine ⟨sendings ++ [sending], h.course.run, ?_, olds, news ++ [sending.ended], ?_, hkept, ?_⟩
      · intro other hother
        rcases List.mem_append.mp hother with hold | hnew
        · exact h.sources other hold
        · rw [List.mem_singleton.mp hnew]
          exact ⟨tenant, own, source⟩
      · rw [sending.executions_left hfollows.sound.executions, hrows, List.append_assoc]
      · exact List.rel_append hnews (.cons rfl .nil)
  | keep own id => exact hquiet (Database.executions_putSnapshot _ _) rfl
  | @«export» _ tenant execution asked stored own later url =>
      have hold : ∀ row ∈ olds, row.id ≠ execution.id := by
        intro row hrow
        obtain ⟨old, hmem, hrow⟩ := exists_of_mem_right holds hrow
        rw [hrow.id_eq]
        exact hstart.executions.id_ne_of_isLater later hmem
      have hsame : olds.map (fun row =>
          if row.id = execution.id then { row with exportUrl := some url } else row) = olds := by
        refine (List.map_congr_left fun row hrow => if_neg (hold row hrow)).trans ?_
        exact List.map_id _
      have hexported : List.Forall₂ Ended sendings (news.map fun row =>
          if row.id = execution.id then { row with exportUrl := some url } else row) := by
        refine List.forall₂_map_right_iff.mpr (hnews.imp fun sending row hended => ?_)
        split
        · unfold Ended at hended ⊢
          rw [hended]
        · exact hended
      refine ⟨sendings, h.course.quiet rfl, h.sources, olds, _, ?_, hkept, hexported⟩
      change p.database.executions.map _ = _
      rw [hrows, List.map_append, hsame]
  | @remove _ tenant report asked first stored own =>
      have hnone : news = [] := by
        have hlength := congrArg List.length hrows
        rw [first, List.length_append, ← holds.length_eq] at hlength
        exact List.length_eq_zero_iff.mp (by omega)
      rw [hnone] at hnews
      cases hnews
      refine ⟨[], h.course.quiet rfl, h.sources, _, [], (List.append_nil _).symm, ?_, .nil⟩
      rw [← first]
      refine List.forall₂_map_right_iff.mpr (List.forall₂_same.mpr fun row hrow => ?_)
      by_cases hsource : row.source = .custom (some report.id)
      · refine .inr ⟨report, List.mem_of_find?_eq_some stored, hsource, fun other hother => ?_, ?_⟩
        · simpa using (List.mem_filter.mp hother).2
        · rw [hsource]
          simp [ReportSource.forget]
      · rw [ReportSource.forget_of_ne hsource]
        exact .inl rfl
  | _ => exact hquiet rfl rfl

theorem of_steps (h : Steps request start.database start q) (hstart : Sound start.database) :
    ∃ sendings, Ledger start q sendings := by
  induction h with
  | refl => exact ⟨[], refl start⟩
  | tail hsteps hstep ih =>
      obtain ⟨sendings, hledger⟩ := ih
      exact hledger.step hstart (Steps.follows hsteps hstart) hstep

end Ledger

theorem Kept.trans {request : ApiRequest} {db : Database} {p q : Platform}
    {row row' row'' : Execution} (hsound : Sound db) (hrow : row ∈ db.executions)
    (hp : Sound p.database) (hsteps : Steps request p.database p q)
    (hlater : ∀ table, db.attempts.count table ≤ p.database.attempts.count table)
    (h : Kept db p.database row row') (h' : Kept p.database q.database row' row'') :
    Kept db q.database row row'' := by
  rcases h with rfl | ⟨report, hreport, hsource, hgone, rfl⟩
  · rcases h' with rfl | ⟨report, -, hsource, hgone, rfl⟩
    · exact .inl rfl
    · obtain ⟨parent, hparent, hid, -⟩ := hsound.owned row' hrow _ hsource
      rw [← hid] at hsource hgone
      exact .inr ⟨parent, hparent, hsource, hgone, rfl⟩
  · have hstill : ∀ other ∈ q.database.customReports, other.id ≠ report.id := by
      intro other hother hid
      rcases Steps.customReports hsteps hp other hother with ⟨old, hold, hsame, -⟩ | ⟨hnew, -⟩
      · exact hgone old hold (hsame.symm.trans hid)
      · obtain ⟨n, hn, hrow⟩ := hnew
        exact hsound.customReports.id_ne_of_isLater
          ⟨n, Nat.lt_of_le_of_lt (hlater _) hn, hrow⟩ hreport hid.symm
    rcases h' with rfl | ⟨other, -, hother, -⟩
    · exact .inr ⟨report, hreport, hsource, hstill, rfl⟩
    · cases hother

/-- How the row of a run tells the run, once its query has ended. -/
structure Told (sending : Sending) (row : Execution) : Prop where
  /-- The row was stored as running when the query was sent. -/
  begun : sending.row ∈ sending.begun.database.executions ∧ sending.row.state = .running
  same : row = { sending.row with state := row.state, exportUrl := row.exportUrl }
  completed : ∀ keys rows, sending.outcome = .ok (keys, rows) →
    row.state.name = "completed" ∧ row.state.rowCount? = some rows.length ∧
      row.state.message? = none
  failed : ∀ fault, sending.outcome = .error fault →
    row.state.name = "failed" ∧ row.state.rowCount? = none ∧
      ∃ message, row.state.message? = some message ∧
        (fault = .cancelled → message = "cancelled") ∧
        (fault ≠ .cancelled → message = fault.message)
  ended : row.state.endedAt? = some sending.after.now ∧ row.elapsed.isSome = true

theorem Ended.told {sending : Sending} {row : Execution} (h : Ended sending row) :
    Told sending row := by
  have hstate : row.state = Runs.endState sending.after.now sending.outcome :=
    (congrArg Execution.state h).trans rfl
  have hrunning : sending.row ∈ sending.begun.database.executions :=
    List.mem_append_right _ (List.mem_singleton_self _)
  refine ⟨⟨hrunning, rfl⟩, ?_, fun keys rows hok => ?_, fun fault hfault => ?_, ?_⟩
  · rw [h]
    rfl
  · rw [hstate, hok]
    exact ⟨rfl, rfl, rfl⟩
  · rw [hstate, hfault]
    refine ⟨rfl, rfl, _, rfl, ?_, fun hother => ?_⟩
    · rintro rfl
      rfl
    · cases fault with
      | cancelled => exact absurd rfl hother
      | _ => rfl
  · unfold Execution.elapsed
    rw [hstate]
    cases sending.outcome with
    | ok result => exact ⟨rfl, rfl⟩
    | error fault => exact ⟨rfl, rfl⟩

end Api

open Api (Course Kept Told Ledger)

namespace History

variable {settings : Settings} {exchanges before after : List Exchange} {db : Database}
  {e : Exchange}

end History

end TenantReports
