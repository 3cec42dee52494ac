import TenantReports.Proofs.Api.Acting
import TenantReports.Proofs.Report.Told
import TenantReports.Proofs.Value.Settled

/-!
What a run returns is in plain form already: whoever sums it up once more, then or later, finds
what the snapshot of the run holds.
-/

namespace TenantReports

open Action (run_bind_eq_ok)
open Entries (AlikeBut)

namespace Snapshots

variable {rows plain : List Entries} {metrics : Entries} {p q : Platform}

/-- The plain form of rows has, at any time, the summary of the rows themselves. -/
theorem summaryOf_plain {now : DateTime} (h : summaryOf rows now = .ok (plain, metrics))
    (later : DateTime) : ∃ current, summaryOf plain later = .ok (plain, current) ∧
      AlikeBut (.text "timestamp") current metrics := by
  obtain ⟨hplain, hmetrics⟩ := summaryOf_eq_ok.mp h
  have halike := Metrics.summarize_alike plain later now
  rw [hmetrics] at halike
  cases hcurrent : Metrics.summarize plain later with
  | error fault =>
      rw [hcurrent] at halike
      exact halike.elim
  | ok current =>
      rw [hcurrent] at halike
      exact ⟨current, summaryOf_eq_ok.mpr ⟨(rowsToPlain_settled hplain).2, hcurrent⟩, halike⟩

/-- The current metrics of a comparison are the summary of the rows that are compared. -/
theorem summaryOf_compare {tenant definition : Uuid} {days : Int} {date : Option Date}
    {comparison : Comparison}
    (h : (compare tenant definition rows days date).run p = (.ok comparison, q)) :
    ∃ plain, summaryOf rows p.now = .ok (plain, comparison.current) := by
  unfold compare at h
  rw [Action.run_bind_of_ok (run_date p date)] at h
  obtain ⟨⟨plain, current⟩, _, hsummary, h⟩ := run_bind_eq_ok.mp h
  rw [run_summarize] at hsummary
  obtain ⟨earlier, _, -, h⟩ := run_bind_eq_ok.mp h
  refine ⟨plain, (congrArg Prod.fst hsummary).trans ?_⟩
  dsimp only at h
  split at h
  · cases h
    rfl
  · obtain ⟨change, _, -, heq⟩ := run_bind_eq_ok.mp h
    cases heq
    rfl

/-- A call that succeeds leaves a snapshot of its day with a summary of its rows. -/
theorem Keeping.exists_left {call : Keeping} (h : call.run.1 = .ok metrics) :
    ∃ s, call.left.find? (·.key = call.key) = some s ∧ s.execution = call.execution ∧
      summaryOf call.rows call.met.now = .ok (s.rows, s.metrics) := by
  cases hsummary : summaryOf call.rows call.met.now with
  | error fault =>
      rw [call.run_of_error hsummary] at h
      cases h
  | ok summary =>
      obtain ⟨plain, metrics⟩ := summary
      have hrun := call.run_of_ok hsummary
      split at hrun
      · let new := call.toSnapshot plain metrics
        have hleft : call.left = new.put call.met.database.snapshots := by
          unfold left
          rw [hrun]
          exact Snapshot.snapshots_putSnapshot _ new
        have hfound := new.find?_put call.met.database.snapshots call.key
        rw [← hleft, if_pos (show new.key = call.key from rfl)] at hfound
        obtain ⟨s, hs, hcontent⟩ := Option.map_eq_some_iff.mp hfound
        refine ⟨s, hs, congrArg Prod.fst hcontent, ?_⟩
        exact congrArg (fun content => Except.ok content.2) hcontent.symm
      · rw [hrun] at h
        cases h

end Snapshots

/-- A snapshot of what a run returned: at any time, the rows that were returned have the metrics
that the snapshot holds, whether they are summed up or compared with earlier ones. -/
structure Snapshot.Matches (s : Snapshot) (result : ReportResult) : Prop where
  execution : s.execution = some result.execution
  rows : s.rows = result.rows
  summarized : ∀ p : Platform, ∃ current,
    (Snapshots.summarize result.rows).run p = (.ok (result.rows, current), p) ∧
      AlikeBut (.text "timestamp") current s.metrics
  compared : ∀ (tenant definition : Uuid) (days : Int) (date : Option Date) (p q : Platform)
    (comparison : Snapshots.Comparison),
    (Snapshots.compare tenant definition result.rows days date).run p = (.ok comparison, q) →
      AlikeBut (.text "timestamp") comparison.current s.metrics

/-- A snapshot that holds a summary of rows matches the result that holds their plain form. -/
theorem Snapshot.matches_of_summaryOf {s : Snapshot} {result : ReportResult} {rows : List Entries}
    {now : DateTime} (hexecution : s.execution = some result.execution)
    (hsummary : Snapshots.summaryOf rows now = .ok (result.rows, s.metrics))
    (hrows : s.rows = result.rows) : s.Matches result where
  execution := hexecution
  rows := hrows
  summarized := by
    intro p
    obtain ⟨current, hcurrent, halike⟩ := Snapshots.summaryOf_plain hsummary p.now
    exact ⟨current, by rw [Snapshots.run_summarize, hcurrent], halike⟩
  compared := by
    intro tenant definition days date p q comparison hcompare
    obtain ⟨current, hcurrent, halike⟩ := Snapshots.summaryOf_plain hsummary p.now
    obtain ⟨plain, hplain⟩ := Snapshots.summaryOf_compare hcompare
    rw [hcurrent] at hplain
    cases hplain
    exact halike

namespace Runs

variable {definition : Definition} {output : Output} {own : Uuid} {p q : Platform}

/-- Where a result is kept and told, the snapshot of its day matches it. -/
theorem matches_of_tell (hkeeps : definition.keepsSnapshots = true)
    (hown : definition.tenant = some own) {result : ReportResult}
    (h : (tell definition output).run p = (.ok result, q)) :
    ∃ s, q.database.snapshots.find? (·.key = (own, definition.id, p.today)) = some s ∧
      s.Matches result := by
  obtain ⟨_, _, hkeep, hresult⟩ := run_bind_eq_ok.mp h
  rw [run_keepSnapshot hkeeps hown] at hkeep
  obtain ⟨hkept, rfl⟩ := Prod.mk.inj hkeep
  obtain ⟨htold, rfl⟩ := Prod.mk.inj ((Action.run_ofResult _ _).symm.trans hresult)
  cases hanswer : (keeping definition output own p).run.1 with
  | error fault =>
      rw [hanswer] at hkept
      cases hkept
  | ok metrics =>
      obtain ⟨s, hs, hexecution, hsummary⟩ := Snapshots.Keeping.exists_left hanswer
      rw [toResult_eq_ok (Snapshots.summaryOf_eq_ok.mp hsummary).1] at htold
      cases htold
      exact ⟨s, hs, Snapshot.matches_of_summaryOf hexecution hsummary rfl⟩

theorem runDefinition_matches {schemaName : String} {parameters : Entries}
    {tenant user : Option Uuid} {result : ReportResult} (hkeeps : definition.keepsSnapshots = true)
    (hown : definition.tenant = some own)
    (h : (runDefinition schemaName definition parameters tenant user).run p = (.ok result, q)) :
    ∃ s, q.database.snapshots.find? (·.key = (own, definition.id, p.today)) = some s ∧
      s.Matches result := by
  let order : Order := ⟨.definition definition.id, tenant.or definition.tenant, user, parameters⟩
  have heq : runDefinition schemaName definition parameters tenant user =
      Action.ofResult
        (Template.render (.trusted definition.queryTemplate) parameters (.text schemaName)) >>=
          fun sql => record order sql >>= tell definition := rfl
  rw [heq] at h
  obtain ⟨sql, _, hsql, h⟩ := run_bind_eq_ok.mp h
  rw [Action.run_ofResult] at hsql
  obtain ⟨-, rfl⟩ := Prod.mk.inj hsql
  obtain ⟨output, r, hrecord, htell⟩ := run_bind_eq_ok.mp h
  have htoday : r.today = p.today := by
    rcases run_record order sql p with ⟨fault, hrun⟩ | ⟨fault, hrun⟩ | ⟨stored, hrun⟩
    · rw [hrecord] at hrun
      cases hrun
    · rw [hrecord] at hrun
      cases hrun
    · rw [hrecord] at hrun
      obtain ⟨-, rfl⟩ := Prod.mk.inj hrun
      exact congrArg DateTime.date (Sending.sent ⟨order, stored, sql, p⟩).now
  exact htoday ▸ matches_of_tell hkeeps hown htell

/-- A plain form is made of plain parts and is its own plain form. So the snapshot of a run has
the metrics that the rows it returned have, whenever they are summed up or compared. -/
theorem plain_and_matched :
    (∀ given plain : Value, given.toPlain = .ok plain →
      plain.isPlain = true ∧ plain.toPlain = .ok plain) ∧
    ∀ (schemaName : String) (definition : Definition) (parameters : Entries)
      (tenant user : Option Uuid) (own : Uuid) (p q : Platform) (result : ReportResult),
      definition.keepsSnapshots = true → definition.tenant = some own →
      (runDefinition schemaName definition parameters tenant user).run p = (.ok result, q) →
      ∃ s, q.database.snapshots.find? (·.key = (own, definition.id, p.today)) = some s ∧
        s.Matches result := by
  constructor
  · intro given plain h
    have hsettled := Value.isSettled_of_toPlain h
    exact ⟨Value.isPlain_of_isSettled hsettled, Value.toPlain_eq_self hsettled⟩
  · intro schemaName definition parameters tenant user own p q result
    exact runDefinition_matches

/-- Two keys whose texts are one, a day and its text, become one key with the later value, and the
snapshot of a run of fees matches the run. -/
theorem plain_and_matched_of_fees :
    let given : Value := .mapping
      [(.date ⟨2024, 5, 1⟩, .tuple [.bool true, .bytes [0xFF]]),
       (.text "2024-05-01", .tuple [.null, .mapping [(.int 1, .date ⟨2024, 5, 2⟩)]])]
    let plain : Value := .mapping
      [(.text "2024-05-01", .list [.null, .mapping [(.text "1", .text "2024-05-02")]])]
    let p := atNine 100
    let definition := atNine.fees p.now
    let run := (runDefinition "tenant_north" definition [] none none).run p
    given.toPlain = .ok plain ∧ plain.toPlain = .ok plain ∧
      definition.keepsSnapshots = true ∧ definition.tenant = some (TableName.rowId .tenants 1) ∧
      ∃ result s, run.1 = .ok result ∧
        run.2.database.snapshots.find?
          (·.key = (TableName.rowId .tenants 1, definition.id, p.today)) = some s ∧
        s.Matches result := by
  intro given plain p definition run
  have hplain : given.toPlain = .ok plain := by rfl
  have hkeeps : definition.keepsSnapshots = true := by decide
  have hown : definition.tenant = some (TableName.rowId .tenants 1) := by rfl
  have hreturns : run.1.toOption.isSome = true := by decide +kernel
  obtain ⟨result, hresult⟩ := isSome_toOption_iff.mp hreturns
  obtain ⟨s, hs, hmatches⟩ := plain_and_matched.2 "tenant_north" definition [] none none _ p run.2
    result hkeeps hown (Prod.ext hresult rfl)
  exact ⟨hplain, (plain_and_matched.1 given plain hplain).2, hkeeps, hown, result, s, hresult, hs,
    hmatches⟩

end Runs

end TenantReports
