import TenantReports.Proofs.Api.Step
import TenantReports.Proofs.Schedule.Timed

/-!
What a step of a request does to each of the shared tables.
-/

namespace TenantReports

open Relation (ReflTransGen)
open Table (IsLater)

namespace Runs.Sending

variable (sending : Sending)

theorem sent : sending.begun.Sent sending.sql sending.after := Work.query_sent _ _

theorem database_left :
    sending.left.database =
      ((sending.before.database.attempt .executions).addExecution sending.row).updateExecution
        sending.row.id fun execution => { execution with state := sending.state } := by
  unfold left Platform.onDatabase
  dsimp only
  rw [sending.sent.database]
  rfl

theorem executions_left
    (hnum : Table.executions.Numbered sending.before.database) :
    sending.left.database.executions = sending.before.database.executions ++ [sending.ended] := by
  have hfresh : ∀ row ∈ sending.before.database.executions, row.id ≠ sending.row.id :=
    fun row hrow => hnum.id_ne_of_isLater (Table.isLater_nextId (Nat.le_refl _)) hrow
  have hold : sending.before.database.executions.map (fun execution =>
      if execution.id = sending.row.id then { execution with state := sending.state }
      else execution) = sending.before.database.executions := by
    refine (List.map_congr_left fun row hrow => if_neg (hfresh row hrow)).trans ?_
    exact List.map_id _
  rw [database_left]
  unfold Database.updateExecution Database.addExecution
  dsimp only [Database.attempt]
  rw [List.map_append, hold, List.map_cons, if_pos rfl]
  rfl

end Runs.Sending

theorem ReportSource.forget_of_ne {source : ReportSource} {id : Uuid}
    (h : source ≠ .custom (some id)) : source.forget id = source := by
  cases source with
  | definition definition => rfl
  | custom report =>
      cases report with
      | none => rfl
      | some report =>
          have hne : report ≠ id := fun heq => h (by rw [heq])
          exact congrArg ReportSource.custom (if_neg hne)

theorem ReportSource.forget_cases (source : ReportSource) (id : Uuid) :
    source.forget id = source ∨
      source = .custom (some id) ∧ source.forget id = .custom none := by
  by_cases hsource : source = .custom (some id)
  · rw [hsource]
    exact .inr ⟨rfl, congrArg ReportSource.custom (if_pos rfl)⟩
  · exact .inl (forget_of_ne hsource)

theorem ReportSource.forget_ne (source : ReportSource) (id : Uuid) :
    source.forget id ≠ .custom (some id) := by
  cases source with
  | definition definition => exact fun h => nomatch h
  | custom report =>
      cases report with
      | none => exact fun h => nomatch h
      | some report =>
          intro h
          simp [forget] at h

theorem Snapshot.tenant_eq_of_sameDay {a b : Snapshot} (h : a.sameDay b = true) :
    a.tenant = b.tenant := by
  unfold sameDay at h
  simp only [Bool.and_eq_true, beq_iff_eq] at h
  exact h.1.1

theorem CustomReport.change?_keeps {report changed : CustomReport} {changes : Entries}
    (h : report.change? changes = some changed) :
    changed.id = report.id ∧ changed.tenant = report.tenant ∧
      changed.spec.joins = report.spec.joins ∧ changed.createdBy = report.createdBy := by
  unfold change? at h
  simp only [Option.bind_eq_bind, Option.bind_eq_some_iff] at h
  obtain ⟨name, -, visualization, -, isShared, -, heq⟩ := h
  cases heq
  exact ⟨rfl, rfl, rfl, rfl⟩

theorem Schedule.change?_keeps {schedule changed : Schedule} {changes : Entries}
    (h : schedule.change? changes = some changed) :
    changed.id = schedule.id ∧ changed.tenant = schedule.tenant ∧
      changed.definition = schedule.definition ∧
      changed.config = Change.documentColumn changes "schedule_config" schedule.config := by
  unfold change? at h
  simp only [Option.bind_eq_bind, Option.bind_eq_some_iff] at h
  obtain ⟨name, -, exportFormat, -, isActive, -, heq⟩ := h
  cases heq
  exact ⟨rfl, rfl, rfl, rfl⟩

/-- The documents of a schedule, under the names of their fields. -/
def Schedule.documents (schedule : Schedule) : List (String × Value) :=
  [("schedule_config", schedule.config), ("parameters", schedule.parameters),
    ("recipients", schedule.recipients)]

theorem Database.putSnapshot_cases (db : Database) (snapshot : Snapshot) :
    (db.putSnapshot snapshot).snapshots = db.snapshots.map (fun old =>
      if old.sameDay snapshot then old.replacedBy snapshot else old) ∨
    (db.putSnapshot snapshot).snapshots = db.snapshots ++ [snapshot] := by
  unfold putSnapshot
  split
  · exact .inl rfl
  · exact .inr rfl

theorem Database.count_attempt_lt (db : Database) (table : TableName) :
    db.attempts.count table < (db.attempt table).attempts.count table :=
  Nat.lt_of_lt_of_eq (Nat.lt_succ_self _) List.count_cons_self.symm

namespace Api

/-- What is kept of the shared tables, whatever is requested. -/
structure Sound (db : Database) : Prop where
  definitions : Table.definitions.Numbered db
  executions : Table.executions.Numbered db
  snapshots : Table.snapshots.Numbered db
  customReports : Table.customReports.Numbered db
  schedules : Table.schedules.Numbered db
  ended : ∀ row ∈ db.executions, row.state ≠ .running
  owned : ∀ row ∈ db.executions, ∀ id, row.source = .custom (some id) →
    ∃ report ∈ db.customReports, report.id = id ∧ row.tenant = some report.tenant

namespace Step

variable {request : ApiRequest} {past : Database} {owner : Option Uuid} {p q : Platform}

theorem attempts_le (h : Step request past owner p q) (table : TableName) :
    p.database.attempts.count table ≤ q.database.attempts.count table := by
  have hcons : ∀ (name : TableName) (attempts : List TableName),
      attempts.count table ≤ (name :: attempts).count table :=
    fun _ _ => List.count_le_count_cons
  cases h with
  | aside h => exact Nat.le_of_eq (by rw [h.database])
  | run kept own source cause =>
      rw [Runs.Sending.database_left _]
      exact hcons _ _
  | keep own id =>
      unfold Platform.onDatabase
      dsimp only
      rw [Database.attempts_putSnapshot]
      exact hcons _ _
  | refused table' => exact hcons _ _
  | enter asked written => exact hcons _ _
  | define manager written => exact hcons _ _
  | create asked authored written => exact hcons _ _
  | schedule asked written timed => exact hcons _ _
  | _ => exact Nat.le_refl _

theorem settings (h : Step request past owner p q) : q.settings = p.settings := by
  cases h with
  | aside h => exact h.settings
  | run kept own source cause => exact (Runs.Sending.sent _).settings
  | _ => rfl

theorem now (h : Step request past owner p q) : q.now = p.now := by
  cases h with
  | aside h => exact h.now
  | run kept own source cause => exact (Runs.Sending.sent _).now
  | _ => rfl

/-! Tenants -/

/-- A tenant whose provisioning is requested, in a schema of that name or of one made from its
own. -/
def Provisioned (request : ApiRequest) (row : Tenant) : Prop :=
  request.Asks .provisionTenant ∧ ∃ draft, request.readBody TenantDraft.read = .valid draft ∧
    row.schemaName = Directory.schemaNameFor draft.name draft.schemaName

theorem tenants (h : Step request past owner p q) :
    Table.tenants.Change
      (fun row => Provisioned request row ∧ Sql.isIdentifier row.schemaName = true ∧
        p.database.acceptsTenant row = true)
      (fun row row' => row'.schemaName = row.schemaName) (fun _ => True)
      p.database q.database := by
  cases h with
  | aside h => exact .none (congrArg Database.tenants h.database)
  | enter asked written named valid id accepted =>
      exact .add _ id ⟨⟨asked, _, written, named⟩, valid, accepted⟩ (Database.count_attempt_lt _ _)
        rfl
  | settle id status error =>
      refine .update (fun t => if t.id = id then { t with status, preparationError := error } else t)
        (fun row => ?_) (fun _ _ => rfl) (fun row _ => .inr ⟨trivial, ?_⟩) rfl
      · split
        · rfl
        · rfl
      · split
        · rfl
        · rfl
  | run kept own source cause =>
      exact .none ((congrArg Database.tenants (Runs.Sending.database_left _)).trans rfl)
  | keep own id => exact .none (Database.continues_putSnapshot _ _).tenants
  | _ => exact .none rfl

/-! Definitions -/

/-- A definition that the request defines, for which a manager of reports makes it. -/
def Defined (request : ApiRequest) (settings : Settings) (row : Definition) : Prop :=
  settings.reports.isManager request.role = true ∧
    ∃ draft, request.readBody DefinitionDraft.read = .valid draft ∧
      row.queryTemplate = draft.queryTemplate

theorem definitions (h : Step request past owner p q)
    (hnum : Table.definitions.Numbered p.database) :
    Table.definitions.Change
      (fun row => owner = none ∧ Defined request p.settings row)
      (fun row row' => row'.queryTemplate = row.queryTemplate)
      (fun row => ∃ tenant, owner = some tenant ∧ ∀ other, row.tenant = some other → other = tenant)
      p.database q.database := by
  cases h with
  | aside h => exact .none (congrArg Database.definitions h.database)
  | define manager written =>
      exact .add _ rfl ⟨rfl, manager, _, written, rfl⟩ (Database.count_attempt_lt _ _) rfl
  | @deactivate _ tenant definition stored offered =>
      refine .update_stored hnum (List.mem_of_find?_eq_some stored)
        (fun d => { d with isActive := false }) (fun _ h => h) rfl
        ⟨tenant, rfl, fun other hother => ?_⟩ rfl rfl
      have hvisible := (Bool.and_eq_true_iff.mp offered).2
      rw [Definition.isVisibleTo, hother] at hvisible
      simpa using hvisible
  | run kept own source cause =>
      exact .none ((congrArg Database.definitions (Runs.Sending.database_left _)).trans rfl)
  | keep own id => exact .none (Database.continues_putSnapshot _ _).definitions
  | _ => exact .none rfl

/-! Executions -/

theorem executions (h : Step request past owner p q) (hsound : Sound p.database) :
    Table.executions.Change
      (fun row => ∃ tenant, owner = some tenant ∧ row.tenant = some tenant ∧
        row.state ≠ .running ∧ Cause request past p.database.schedules row.source ∧
        ∀ id, row.source = .custom (some id) →
          ∃ report ∈ p.database.customReports, report.id = id ∧ report.tenant = tenant)
      (fun row row' => row'.state = row.state ∧
        (row'.source = row.source ∨
          ∃ report, row.source = .custom (some report) ∧ row'.source = .custom none))
      (fun row => ∃ tenant, owner = some tenant ∧ row.tenant = some tenant)
      p.database q.database := by
  cases h with
  | aside h => exact .none (congrArg Database.executions h.database)
  | @run tenant sending kept own source cause =>
      refine .add sending.ended rfl ⟨tenant, rfl, own, ?_, cause, ?_⟩ ?_
        (Runs.Sending.executions_left _ hsound.executions)
      · change sending.state ≠ .running
        unfold Runs.Sending.state Runs.endState
        split
        · exact fun h => nomatch h
        · exact fun h => nomatch h
      · intro id hid
        change sending.order.source = _ at hid
        rw [hid] at source
        cases source with
        | spec stored owned ready read compiled =>
            refine ⟨_, ?_, rfl, owned⟩
            rw [kept.customReports]
            exact List.mem_of_find?_eq_some stored
      · rw [Runs.Sending.database_left _]
        exact Database.count_attempt_lt _ _
  | @«export» _ tenant execution asked stored own later url =>
      exact .update_stored hsound.executions stored
        (fun row => { row with exportUrl := some url }) (fun _ h => h) rfl ⟨tenant, rfl, own⟩
        ⟨rfl, .inl rfl⟩ rfl
  | @remove _ tenant report asked first stored own =>
      refine .update (fun row => { row with source := row.source.forget report.id })
        (fun _ => rfl) (fun _ _ => rfl) (fun row hrow => ?_) rfl
      by_cases hsource : row.source = .custom (some report.id)
      · obtain ⟨report', hreport', hid, htenant⟩ := hsound.owned row hrow _ hsource
        have hsame := hsound.customReports.eq_of_id_eq hreport' (List.mem_of_find?_eq_some stored) hid
        rw [hsame, own] at htenant
        exact .inr ⟨⟨tenant, rfl, htenant⟩, rfl,
          (ReportSource.forget_cases _ _).imp_right fun h => ⟨_, h⟩⟩
      · rw [ReportSource.forget_of_ne hsource]
        exact .inl rfl
  | keep own id => exact .none (Database.executions_putSnapshot _ _)
  | _ => exact .none rfl

/-! Snapshots -/

theorem snapshots (h : Step request past owner p q) :
    Table.snapshots.Change
      (fun row => owner = some row.tenant) (fun _ _ => True) (fun row => owner = some row.tenant)
      p.database q.database := by
  cases h with
  | aside h => exact .none (congrArg Database.snapshots h.database)
  | run kept own source cause =>
      exact .none ((congrArg Database.snapshots (Runs.Sending.database_left _)).trans rfl)
  | @keep _ tenant snapshot own id =>
      have hcount : p.database.attempts.count .snapshots <
          ((p.database.attempt .snapshots).putSnapshot snapshot).attempts.count .snapshots := by
        rw [Database.attempts_putSnapshot]
        exact Database.count_attempt_lt _ _
      rcases Database.putSnapshot_cases (p.database.attempt .snapshots) snapshot with heq | heq
      · refine .update (fun old => if old.sameDay snapshot then old.replacedBy snapshot else old)
          (fun row => ?_) (fun row _ => ?_) (fun row _ => ?_) heq
        · split
          · rfl
          · rfl
        · split
          · rfl
          · rfl
        · by_cases hday : row.sameDay snapshot = true
          · refine .inr ⟨?_, trivial⟩
            rw [Snapshot.tenant_eq_of_sameDay hday, own]
          · exact .inl (if_neg hday)
      · exact .add snapshot id (congrArg some own.symm) hcount heq
  | _ => exact .none rfl

/-! Custom reports -/

/-- A custom report that the request creates. With joins, a manager of reports makes it. -/
def Created (request : ApiRequest) (settings : Settings) (row : CustomReport) : Prop :=
  ∃ draft, request.readBody CustomReportDraft.read = .valid draft ∧
    row.spec.joins = (SpecDocument.ofSpec draft.spec).joins ∧
    (draft.spec.joins = [] ∨ settings.reports.isManager request.role = true)

theorem customReports (h : Step request past owner p q) (hsound : Sound p.database) :
    Table.customReports.Change
      (fun row => owner = some row.tenant ∧ request.Asks .createCustomReport ∧
        Created request p.settings row)
      (fun row row' => request.Asks .updateCustomReport ∧ row'.spec.joins = row.spec.joins ∧
        row'.createdBy = row.createdBy)
      (fun row => owner = some row.tenant)
      p.database q.database := by
  cases h with
  | aside h => exact .none (congrArg Database.customReports h.database)
  | run kept own source cause =>
      exact .none ((congrArg Database.customReports (Runs.Sending.database_left _)).trans rfl)
  | keep own id => exact .none (Database.continues_putSnapshot _ _).customReports
  | create asked authored written =>
      exact .add _ rfl ⟨rfl, asked, _, written, rfl, authored⟩ (Database.count_attempt_lt _ _) rfl
  | @change _ tenant report changed changes asked stored own made =>
      obtain ⟨hid, htenant, hkept⟩ := CustomReport.change?_keeps made
      exact .update_stored hsound.customReports (List.mem_of_find?_eq_some stored) (fun _ => changed)
        (fun _ _ => hid) (congrArg some htenant) (congrArg some own.symm) ⟨asked, hkept⟩ rfl
  | @remove _ tenant report asked first stored own =>
      refine .remove (·.id != report.id) (fun row hrow hgone => ?_) rfl
      have hid : row.id = report.id := by simpa using hgone
      have hsame := hsound.customReports.eq_of_id_eq hrow (List.mem_of_find?_eq_some stored) hid
      rw [hsame, own]
  | _ => exact .none rfl

/-! Schedules -/

/-- A schedule as a request wrote it. -/
def Scheduled (request : ApiRequest) (row : Schedule) : Prop :=
  ∃ draft tenant user next time, request.readBody ScheduleDraft.read = .valid draft ∧
    row = .ofDraft draft tenant user next time row.id

/-- A schedule whose documents are as a request changed them. -/
def Patched (request : ApiRequest) (row row' : Schedule) : Prop :=
  ∃ patch changed, request.Patches row.id patch ∧
    row.change? (Schedules.changesOf patch (request.body.getD .null)) = some changed ∧
    row'.documents = changed.documents

theorem schedules (h : Step request past owner p q) (hsound : Sound p.database) :
    Table.schedules.Change
      (fun row => owner = some row.tenant ∧ request.Asks .createSchedule ∧
        row.IsInStep p.settings p.now ∧ Scheduled request row)
      (fun row row' => (request.Asks .updateSchedule ∨ request.Asks .processSchedules) ∧
        row'.definition = row.definition ∧ (row.IsTimed p.settings → row'.IsTimed p.settings) ∧
        (row'.documents = row.documents ∨ Patched request row row'))
      (fun row => owner = some row.tenant) p.database q.database := by
  cases h with
  | aside h => exact .none (congrArg Database.schedules h.database)
  | run kept own source cause =>
      exact .none ((congrArg Database.schedules (Runs.Sending.database_left _)).trans rfl)
  | keep own id => exact .none (Database.schedules_putSnapshot _ _)
  | schedule asked written timed =>
      rw [Schedules.run_nextRunFromNow] at timed
      exact .add _ rfl
        ⟨rfl, asked, ⟨_, congrArg Prod.fst timed, rfl⟩, _, _, _, _, _, written, rfl⟩
        (Database.count_attempt_lt _ _) rfl
  | @reschedule _ tenant schedule changed _ _ nextRunAt patched given stored own timed made =>
      subst given
      obtain ⟨hid, htenant, hdefinition, hconfig⟩ := Schedule.change?_keeps made
      exact .update_stored hsound.schedules (List.mem_of_find?_eq_some stored)
        (fun _ => { changed with type := Schedules.typeAfter schedule _, nextRunAt })
        (fun _ _ => hid) (congrArg some htenant) (congrArg some own.symm)
        ⟨.inl patched.asks, hdefinition, fun h => h.rescheduled timed hconfig,
          .inr ⟨_, changed, patched, made, rfl⟩⟩ rfl
  | @unschedule _ tenant schedule asked stored own =>
      refine .remove (·.id != schedule.id) (fun row hrow hgone => ?_) rfl
      have hid : row.id = schedule.id := by simpa using hgone
      have hsame := hsound.schedules.eq_of_id_eq hrow (List.mem_of_find?_eq_some stored) hid
      rw [hsame, own]
  | @advance _ tenant schedule last next asked stored own timed ended =>
      exact .update_stored hsound.schedules (List.mem_of_find?_eq_some stored)
        (fun _ => { schedule with lastRunAt := some last, nextRunAt := some next })
        (fun _ _ => rfl) rfl (congrArg some own.symm)
        ⟨.inr asked, rfl, fun h => ⟨h.region, h.recurrence⟩, .inl rfl⟩ rfl
  | _ => exact .none rfl

/-! All tables -/

/-- A custom report stays under its identifier and its tenant, unless it is removed. -/
theorem customReport_stays (h : Step request past owner p q)
    (hnum : Table.customReports.Numbered p.database) {report : CustomReport}
    (hreport : report ∈ p.database.customReports) :
    (∃ report' ∈ q.database.customReports, report'.id = report.id ∧
      report'.tenant = report.tenant) ∨
    ∀ row ∈ q.database.executions, row.source ≠ .custom (some report.id) := by
  have hkept : q.database.customReports = p.database.customReports →
      ∃ report' ∈ q.database.customReports, report'.id = report.id ∧
        report'.tenant = report.tenant :=
    fun heq => ⟨report, heq ▸ hreport, rfl, rfl⟩
  cases h with
  | aside h => exact .inl (hkept (congrArg Database.customReports h.database))
  | @run _ sending kept own source cause =>
      have heq := sending.database_left
      exact .inl (hkept ((congrArg Database.customReports heq).trans rfl))
  | keep own id => exact .inl (hkept (Database.continues_putSnapshot _ _).customReports)
  | create asked authored written => exact .inl ⟨report, List.mem_append_left _ hreport, rfl, rfl⟩
  | @change _ tenant report' changed changes asked stored own made =>
      obtain ⟨hid, htenant, -⟩ := CustomReport.change?_keeps made
      refine .inl ⟨_, List.mem_map_of_mem hreport, ?_⟩
      by_cases hsame : report.id = report'.id
      · have heq := hnum.eq_of_id_eq hreport (List.mem_of_find?_eq_some stored) hsame
        rw [if_pos hsame, hid, htenant, heq]
        exact ⟨rfl, rfl⟩
      · rw [if_neg hsame]
        exact ⟨rfl, rfl⟩
  | @remove _ tenant removed asked first stored own =>
      by_cases hsame : report.id = removed.id
      · refine .inr fun row hrow => ?_
        obtain ⟨old, -, rfl⟩ := List.mem_map.mp hrow
        rw [hsame]
        exact ReportSource.forget_ne old.source removed.id
      · exact .inl ⟨report, List.mem_filter.mpr ⟨hreport, by simpa using hsame⟩, rfl, rfl⟩
  | _ => exact .inl (hkept rfl)

theorem sound (h : Step request past owner p q) (hsound : Sound p.database) :
    Sound q.database where
  definitions := (h.definitions hsound.definitions).numbered (h.attempts_le _) hsound.definitions
  executions := (h.executions hsound).numbered (h.attempts_le _) hsound.executions
  snapshots := h.snapshots.numbered (h.attempts_le _) hsound.snapshots
  customReports := (h.customReports hsound).numbered (h.attempts_le _) hsound.customReports
  schedules := (h.schedules hsound).numbered (h.attempts_le _) hsound.schedules
  ended := by
    intro row hrow
    rcases (h.executions hsound).origin hrow with ⟨old, hold, -, -, hkept⟩ | ⟨-, hnew⟩
    · rcases hkept with rfl | ⟨-, hstate, -⟩
      · exact hsound.ended row hold
      · rw [hstate]
        exact hsound.ended old hold
    · obtain ⟨tenant, -, -, hended, -⟩ := hnew
      exact hended
  owned := by
    intro row hrow id hid
    have hparent : ∃ report ∈ p.database.customReports, report.id = id ∧
        row.tenant = some report.tenant := by
      rcases (h.executions hsound).origin hrow with ⟨old, hold, -, htenant, hkept⟩ | ⟨-, hnew⟩
      · have hsource : old.source = .custom (some id) := by
          rcases hkept with rfl | ⟨-, -, hsame | ⟨_, -, hforgot⟩⟩
          · exact hid
          · exact hsame.symm.trans hid
          · cases hforgot.symm.trans hid
        have htenant : row.tenant = old.tenant := htenant
        rw [htenant]
        exact hsound.owned old hold id hsource
      · obtain ⟨tenant, -, htenant, -, -, hsource⟩ := hnew
        obtain ⟨report, hreport, hid', howner⟩ := hsource id hid
        exact ⟨report, hreport, hid', howner ▸ htenant⟩
    obtain ⟨report, hreport, rfl, htenant⟩ := hparent
    rcases h.customReport_stays hsound.customReports hreport with ⟨report', hreport', hid', htenant'⟩ |
      hgone
    · exact ⟨report', hreport', hid', htenant' ▸ htenant⟩
    · exact absurd hid (hgone row hrow)

end Step
end Api
end TenantReports
