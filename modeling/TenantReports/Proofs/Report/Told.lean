import TenantReports.Proofs.Api.History
import TenantReports.Proofs.Metrics.Snapshots
import TenantReports.Proofs.Platform.Aside
import TenantReports.Proofs.Value.Settled

/-!
What the caller of a definition's run is told, next to what the run's row says. The row is ended
before the snapshot is kept and the rows are put into plain form, so that a run can be completed
and yet end with a fault: exactly when its rows hold a number that these steps cannot convert.
-/

namespace TenantReports

/-- The rows of the reply to the next query. -/
def Platform.replyRows (p : Platform) : List Entries :=
  match p.reply with
  | .result _ rows => rows
  | _ => []

/-- Whether the results of a definition are kept as snapshots. -/
def Definition.leavesSnapshots (definition : Definition) : Bool :=
  definition.keepsSnapshots && definition.tenant.isSome

namespace Runs

/-- Whether a number in the plain rows is too large to be summed up. -/
def summaryExceeds (rows : List Entries) : Bool := (rowsToPlain rows).toOption.any Metrics.exceeds

/-- Whether the rows of a definition's completed run can be told. -/
def canTell (definition : Definition) (rows : List Entries) : Bool :=
  !rows.any Value.entriesSignaling && !(definition.leavesSnapshots && summaryExceeds rows)

theorem exists_rowsToPlain {rows : List Entries} (h : rows.any Value.entriesSignaling = false) :
    ∃ plain, rowsToPlain rows = .ok plain := by
  have hfails := rowsToPlain_fails rows
  rw [h] at hfails
  cases hplain : rowsToPlain rows with
  | ok plain => exact ⟨plain, rfl⟩
  | error fault => cases hfails.eq_true hplain

/-- Rows in plain form have a summary, unless one of their numbers is too large. -/
theorem summarize_plain_fails {rows plain : List Entries} (h : rowsToPlain rows = .ok plain)
    (now : DateTime) : FailsIf (.number .tooLargeForFloat) (Metrics.exceeds plain)
      (Metrics.summarize plain now) := by
  refine Metrics.summarize_fails (fun row hrow entry hentry n => ?_) (fun column hcolumn => ?_) now
  · exact rowsToPlain_ne_numeric h row hrow entry hentry
  · exact (Entries.isRow_headD (isRow_of_rowsToPlain h)).get?_of_mem hcolumn

theorem exists_summaryOf {rows plain : List Entries} (hplain : rowsToPlain rows = .ok plain)
    (h : summaryExceeds rows = false) (now : DateTime) :
    ∃ metrics, Snapshots.summaryOf rows now = .ok (plain, metrics) := by
  unfold summaryExceeds at h
  rw [hplain] at h
  have hfails := summarize_plain_fails hplain now
  rw [show Metrics.exceeds plain = false from h] at hfails
  cases hmetrics : Metrics.summarize plain now with
  | ok metrics => exact ⟨metrics, Snapshots.summaryOf_eq_ok.mpr ⟨hplain, hmetrics⟩⟩
  | error fault => cases hfails.eq_true hmetrics

/-- Rows with a summary can be told. -/
theorem not_exceeds_of_summaryOf {rows plain : List Entries} {metrics : Entries} {now : DateTime}
    (h : Snapshots.summaryOf rows now = .ok (plain, metrics)) :
    rows.any Value.entriesSignaling = false ∧ summaryExceeds rows = false := by
  obtain ⟨hplain, hmetrics⟩ := Snapshots.summaryOf_eq_ok.mp h
  have hfails := summarize_plain_fails hplain now
  refine ⟨(rowsToPlain_fails rows).eq_false hplain, ?_⟩
  unfold summaryExceeds
  rw [hplain]
  exact hfails.eq_false hmetrics

theorem exists_error_of_signaling {rows : List Entries}
    (h : rows.any Value.entriesSignaling = true) : ∃ fault, rowsToPlain rows = .error fault := by
  have hfails := rowsToPlain_fails rows
  rw [h] at hfails
  cases hplain : rowsToPlain rows with
  | error fault => exact ⟨fault, rfl⟩
  | ok plain => cases hfails.eq_false hplain

/-- What follows the recorded query of a definition. -/
def tell (definition : Definition) (output : Output) : Work ReportResult := do
  keepSnapshot definition output
  Action.ofResult (output.toResult (columnsFor definition output))

section Tell

variable {definition : Definition} {output : Output} {p : Platform}

/-- The call that keeps the rows of a run for a tenant. -/
def keeping (definition : Definition) (output : Output) (own : Uuid) (p : Platform) :
    Snapshots.Keeping :=
  ⟨own, definition.id, some output.execution, output.rows, none, p⟩

theorem run_keepSnapshot_of_not (h : definition.leavesSnapshots = false) :
    (keepSnapshot definition output).run p = (.ok (), p) := by
  unfold keepSnapshot
  unfold Definition.leavesSnapshots at h
  split
  · next own hkeeps hown => simp [hkeeps, hown] at h
  · rfl

theorem run_keepSnapshot {own : Uuid} (hkeeps : definition.keepsSnapshots = true)
    (hown : definition.tenant = some own) : (keepSnapshot definition output).run p =
      ((keeping definition output own p).run.1.map fun _ => (),
        (keeping definition output own p).run.2) := by
  have hkeep : (Snapshots.keep own definition.id (some output.execution) output.rows none).run p =
      (keeping definition output own p).run := rfl
  unfold keepSnapshot
  rw [hkeeps, hown]
  dsimp only
  rw [Action.run_bind, hkeep]
  rcases (keeping definition output own p).run with ⟨outcome, q⟩
  cases outcome <;> rfl

theorem toResult_eq_ok {plain : List Entries} (hplain : rowsToPlain output.rows = .ok plain)
    (columns : List ReportColumn) : output.toResult columns =
      .ok ⟨output.execution, plain, output.rows.length, 0, columns, none⟩ := by
  unfold Output.toResult
  rw [hplain]
  rfl

theorem toResult_eq_error {fault : Fault} (hplain : rowsToPlain output.rows = .error fault)
    (columns : List ReportColumn) : output.toResult columns = .error fault := by
  unfold Output.toResult
  rw [hplain]
  rfl

theorem executions_keeping (call : Snapshots.Keeping) :
    call.run.2.database.executions = call.met.database.executions := by
  cases hsummary : Snapshots.summaryOf call.rows call.met.now with
  | error fault => rw [call.run_of_error hsummary]
  | ok summary =>
      rw [call.run_of_ok hsummary]
      split
      · exact Database.executions_putSnapshot _ _
      · rfl

/-- The day's snapshot of a definition is that of a run. -/
def IsKept (db : Database) (definition : Definition) (own : Uuid) (day : Date)
    (result : ReportResult) : Prop :=
  ∃ metrics, (db.snapshots.find? (·.key = (own, definition.id, day))).map (·.content) =
    some (some result.execution, result.rows, metrics)

theorem run_tell_of_canTell (h : canTell definition output.rows = true)
    (hrefers : ∀ own, definition.tenant = some own → (keeping definition output own p).Refers) :
    ∃ result q, (tell definition output).run p = (.ok result, q) ∧
      result.execution = output.execution ∧ rowsToPlain output.rows = .ok result.rows ∧
      result.rowCount = output.rows.length ∧ q.database.executions = p.database.executions ∧
      (definition.keepsSnapshots = true → ∀ own, definition.tenant = some own →
        IsKept q.database definition own p.today result) := by
  simp only [canTell, Bool.and_eq_true, Bool.not_eq_true'] at h
  obtain ⟨plain, hplain⟩ := exists_rowsToPlain h.1
  unfold tell
  rw [Action.run_bind]
  cases hleaves : definition.leavesSnapshots with
  | false =>
      rw [run_keepSnapshot_of_not hleaves]
      refine ⟨_, p, (Action.run_ofResult _ p).trans (by rw [toResult_eq_ok hplain]), rfl, hplain,
        rfl, rfl, ?_⟩
      intro hkeeps own hown
      simp [Definition.leavesSnapshots, hkeeps, hown] at hleaves
  | true =>
      obtain ⟨hkeeps, hsome⟩ := Bool.and_eq_true_iff.mp hleaves
      obtain ⟨own, hown⟩ := Option.isSome_iff_exists.mp hsome
      rw [hleaves, Bool.true_and] at h
      let call := keeping definition output own p
      obtain ⟨metrics, hsummary⟩ := exists_summaryOf hplain h.2 p.now
      have hrun := call.run_of_ok hsummary
      rw [if_pos (call.accepts_of_refers (hrefers own hown) plain metrics)] at hrun
      rw [run_keepSnapshot hkeeps hown, show (keeping definition output own p).run = _ from hrun]
      refine ⟨_, _, (Action.run_ofResult _ _).trans (by rw [toResult_eq_ok hplain]), rfl, hplain,
        rfl, Database.executions_putSnapshot _ _, ?_⟩
      rintro - other hother
      cases hown.symm.trans hother
      refine ⟨metrics, ?_⟩
      unfold Platform.onDatabase
      dsimp only
      rw [Snapshot.snapshots_putSnapshot, Snapshot.find?_put]
      exact if_pos rfl

theorem run_tell_of_not_canTell (p : Platform) (h : canTell definition output.rows = false) :
    ∃ fault q, (tell definition output).run p = (.error fault, q) ∧
      q.database.executions = p.database.executions := by
  unfold tell
  rw [Action.run_bind]
  cases hleaves : definition.leavesSnapshots with
  | false =>
      have hsignals : output.rows.any Value.entriesSignaling = true := by
        simpa [canTell, hleaves] using h
      obtain ⟨fault, hfault⟩ := exists_error_of_signaling hsignals
      rw [run_keepSnapshot_of_not hleaves]
      exact ⟨fault, p, (Action.run_ofResult _ p).trans (by rw [toResult_eq_error hfault]), rfl⟩
  | true =>
      obtain ⟨hkeeps, hsome⟩ := Bool.and_eq_true_iff.mp hleaves
      obtain ⟨own, hown⟩ := Option.isSome_iff_exists.mp hsome
      have hkeep := executions_keeping (keeping definition output own p)
      rw [run_keepSnapshot hkeeps hown]
      cases hsummary : Snapshots.summaryOf output.rows p.now with
      | error fault =>
          have hrun := (keeping definition output own p).run_of_error hsummary
          rw [hrun]
          exact ⟨fault, p, rfl, rfl⟩
      | ok summary =>
          obtain ⟨hsignals, hexceeds⟩ := not_exceeds_of_summaryOf hsummary
          simp [canTell, hsignals, hexceeds] at h

end Tell

/-! The whole run -/

theorem Sending.outcome_eq_ok {sending : Sending} {keys : List String} {rows : List Entries}
    (h : sending.outcome = .ok (keys, rows)) : rows = sending.before.replyRows := by
  unfold Sending.outcome at h
  rw [Work.run_query] at h
  unfold Platform.replyRows
  split at h
  · cases h
  · change sending.before.reply.outcome = _ at h
    cases hreply : sending.before.reply with
    | result keys' rows' =>
        rw [hreply] at h
        cases h
        rfl
    | _ =>
        rw [hreply] at h
        cases h

/-- A run that is recorded refers to a report that is stored. -/
theorem run_start_or (order : Order) (p : Platform) :
    (∃ fault q, (start order).run p = (.error fault, q) ∧
      q.database.executions = p.database.executions) ∨
    p.database.hasSource order.source = true := by
  unfold start
  rw [Action.run_bind, Action.run_ofResult]
  cases Value.entriesToPlain order.parameters with
  | error fault => exact .inl ⟨fault, p, rfl, rfl⟩
  | ok parameters =>
      have hinsert := Work.run_insert .executions Database.acceptsExecution Database.addExecution
        (fun id =>
          { id, source := order.source, tenant := order.tenant, executedBy := order.user
            parameters := Entries.ofPairs parameters, state := .running, exportUrl := none
            startedAt := p.now }) p
      split at hinsert
      · next haccepts => exact .inr (Bool.and_eq_true_iff.mp haccepts).1
      · exact .inl ⟨_, _, hinsert, rfl⟩

/-- How the executions after a run say that it went. -/
inductive Entered (p q : Platform) : Option ExecutionState → Prop
  | none (hsame : q.database.executions = p.database.executions) : Entered p q none
  | row (row : Execution) (hadded : q.database.executions = p.database.executions ++ [row])
      {state : ExecutionState} (hstate : row.state = state) : Entered p q (some state)

theorem Entered.unique {p q : Platform} {state state' : Option ExecutionState}
    (h : Entered p q state) (h' : Entered p q state') : state = state' := by
  cases h with
  | none hsame =>
      cases h' with
      | none _ => rfl
      | row row hadded _ =>
          rw [hsame] at hadded
          simp at hadded
  | row row hadded hstate =>
      cases h' with
      | none hsame =>
          rw [hsame] at hadded
          simp at hadded
      | row row' hadded' hstate' =>
          rw [hadded] at hadded'
          rw [← hstate, ← hstate', List.singleton_inj.mp (List.append_cancel_left hadded')]

/-- How a run of a definition ends. -/
inductive Ends (definition : Definition) (p : Platform) :
    Except Fault ReportResult × Platform → Prop
  | unrecorded (fault : Fault) (q : Platform) (hentered : Entered p q none) :
      Ends definition p (.error fault, q)
  | failed (fault : Fault) (q : Platform) (message : String) (time : DateTime)
      (hentered : Entered p q (some (.failed message time))) : Ends definition p (.error fault, q)
  | untold (fault : Fault) (q : Platform) (time : DateTime)
      (hentered : Entered p q (some (.completed p.replyRows.length time)))
      (huntold : canTell definition p.replyRows = false) : Ends definition p (.error fault, q)
  | told (result : ReportResult) (q : Platform) (row : Execution) (time : DateTime)
      (hadded : q.database.executions = p.database.executions ++ [row])
      (hid : row.id = result.execution)
      (hstate : row.state = .completed p.replyRows.length time)
      (htold : canTell definition p.replyRows = true)
      (hrows : rowsToPlain p.replyRows = .ok result.rows)
      (hkept : definition.keepsSnapshots = true → ∀ own, definition.tenant = some own →
        IsKept q.database definition own p.today result) : Ends definition p (.ok result, q)

variable {definition : Definition} {p : Platform}

theorem Sending.ends_of_ok {sending : Sending} {keys : List String} {rows : List Entries}
    (houtcome : sending.outcome = .ok (keys, rows))
    (hnum : Table.executions.Numbered sending.before.database)
    (hstored : sending.before.database.hasDefinition definition.id = true)
    (hown : ∀ own, definition.tenant = some own →
      sending.before.database.hasTenant own = true) :
    Ends definition sending.before
      ((tell definition ⟨sending.row.id, keys, rows⟩).run sending.left) := by
  have hrows := outcome_eq_ok houtcome
  have hadded := sending.executions_left hnum
  have hstate : sending.ended.state = .completed rows.length sending.after.now := by
    unfold ended state
    rw [houtcome]
    rfl
  subst hrows
  cases htell : canTell definition sending.before.replyRows with
  | false =>
      obtain ⟨fault, q, hrun, hsame⟩ := run_tell_of_not_canTell sending.left
        (show canTell definition (Output.mk sending.row.id keys sending.before.replyRows).rows =
          false from htell)
      rw [hrun]
      exact .untold fault q sending.after.now
        (.row sending.ended (hsame.trans hadded) hstate) htell
  | true =>
      have hrefers (own : Uuid) (htenant : definition.tenant = some own) :
          (keeping definition ⟨sending.row.id, keys, sending.before.replyRows⟩ own
            sending.left).Refers := by
        have hmem := sending.ended_mem
        have hdatabase := sending.database_left
        refine ⟨?_, ?_, List.find?_isSome.mpr ⟨sending.ended, hmem, beq_self_eq_true _⟩⟩
        · change sending.left.database.hasTenant own = true
          rw [hdatabase]
          exact hown own htenant
        · change sending.left.database.hasDefinition definition.id = true
          rw [hdatabase]
          exact hstored
      obtain ⟨result, q, hrun, hid, hplain, -, hsame, hkept⟩ := run_tell_of_canTell htell hrefers
      rw [hrun]
      refine .told result q sending.ended sending.after.now (hsame.trans hadded) hid.symm hstate
        htell hplain ?_
      have htoday : sending.left.today = sending.before.today :=
        congrArg DateTime.date sending.sent.now
      exact htoday ▸ hkept

/-- Every run of a definition that is stored with its tenant ends in one of these ways. -/
theorem ends_runDefinition (schemaName : String) (parameters : Entries)
    (tenant user : Option Uuid) (hnum : Table.executions.Numbered p.database)
    (hown : ∀ own, definition.tenant = some own → p.database.hasTenant own = true) :
    Ends definition p ((runDefinition schemaName definition parameters tenant user).run p) := by
  let order : Order := ⟨.definition definition.id, tenant.or definition.tenant, user, parameters⟩
  have heq : runDefinition schemaName definition parameters tenant user =
      Action.ofResult
        (Template.render (.trusted definition.queryTemplate) parameters (.text schemaName)) >>=
          fun sql => record order sql >>= tell definition := rfl
  rw [heq, Action.run_bind, Action.run_ofResult]
  cases Template.render (.trusted definition.queryTemplate) parameters (.text schemaName) with
  | error fault => exact .unrecorded fault p (.none rfl)
  | ok sql =>
      dsimp only
      rw [Action.run_bind]
      rcases run_start_or order p with ⟨fault, q, hstart, hsame⟩ | hsource
      · have hrecord : (record order sql).run p = (.error fault, q) := by
          unfold record
          rw [Action.run_bind, hstart]
        rw [hrecord]
        exact .unrecorded fault q (.none hsame)
      rcases run_record order sql p with ⟨fault, hrun⟩ | ⟨fault, hrun⟩ | ⟨stored, hrun⟩
      · rw [hrun]
        exact .unrecorded fault p (.none rfl)
      · rw [hrun]
        exact .unrecorded fault _ (.none rfl)
      · let sending : Sending := ⟨order, stored, sql, p⟩
        have hadded := sending.executions_left hnum
        rw [hrun]
        cases houtcome : sending.outcome with
        | error fault =>
            have htold : sending.told = .error (toldAs sending.row.id fault) := by
              rw [Sending.told, houtcome]
            have hstate : sending.ended.state = .failed (failureText fault) sending.after.now := by
              rw [Sending.ended, Sending.state, houtcome]
              rfl
            rw [htold]
            exact .failed _ _ _ _ (.row sending.ended hadded hstate)
        | ok output =>
            have htold : sending.told = .ok ⟨sending.row.id, output.1, output.2⟩ := by
              rw [Sending.told, houtcome]
            rw [htold]
            exact sending.ends_of_ok houtcome hnum hsource hown

/-- A run adds a row that is completed. -/
def Completes (p q : Platform) : Prop :=
  ∃ rowCount time, Entered p q (some (.completed rowCount time))

/-- A run adds a row that failed, or none. -/
def Fails (p q : Platform) : Prop :=
  Entered p q none ∨ ∃ message time, Entered p q (some (.failed message time))

theorem Completes.not_fails {p q : Platform} (h : Completes p q) : ¬ Fails p q := by
  obtain ⟨rowCount, time, hcompleted⟩ := h
  rintro (hnone | ⟨message, time', hfailed⟩)
  · cases hcompleted.unique hnone
  · cases hcompleted.unique hfailed

/-- What the caller is told, and what the run's row says. -/
structure Told (definition : Definition) (p : Platform)
    (run : Except Fault ReportResult × Platform) : Prop where
  /-- The run fails or is completed, and is not left running. -/
  ended : Fails p run.2 ∨ Completes p run.2
  returns : (∃ result, run.1 = .ok result) ↔
    Completes p run.2 ∧ canTell definition p.replyRows = true
  raises : (∃ fault, run.1 = .error fault) ↔
    Fails p run.2 ∨ Completes p run.2 ∧ canTell definition p.replyRows = false
  result : ∀ result, run.1 = .ok result →
    (∃ row, run.2.database.executions = p.database.executions ++ [row] ∧
      row.id = result.execution) ∧
    rowsToPlain p.replyRows = .ok result.rows ∧
    (definition.keepsSnapshots = true → ∀ own, definition.tenant = some own →
      IsKept run.2.database definition own p.today result)

theorem Ends.toTold {run : Except Fault ReportResult × Platform} (h : Ends definition p run) :
    Told definition p run := by
  cases h with
  | unrecorded fault q hentered =>
      have hfails : Fails p q := .inl hentered
      have hnot : ¬ Completes p q := fun hcompletes => hcompletes.not_fails hfails
      exact ⟨.inl hfails, by simp [hnot], by simp [hfails], by simp⟩
  | failed fault q message time hentered =>
      have hfails : Fails p q := .inr ⟨message, time, hentered⟩
      have hnot : ¬ Completes p q := fun hcompletes => hcompletes.not_fails hfails
      exact ⟨.inl hfails, by simp [hnot], by simp [hfails], by simp⟩
  | untold fault q time hentered huntold =>
      have hcompletes : Completes p q := ⟨_, time, hentered⟩
      exact ⟨.inr hcompletes, by simp [huntold], by simp [hcompletes, huntold], by simp⟩
  | told result q row time hadded hid hstate htold hrows hkept =>
      have hcompletes : Completes p q := ⟨_, time, .row row hadded hstate⟩
      refine ⟨.inr hcompletes, by simp [hcompletes, htold],
        by simp [hcompletes.not_fails, htold], ?_⟩
      rintro _ ⟨⟩
      exact ⟨⟨row, hadded, hid⟩, hrows, hkept⟩

/-- A run of a definition gives a result exactly when it is completed and its rows can be told. -/
theorem runDefinition_told (schemaName : String) (definition : Definition) (parameters : Entries)
    (tenant user : Option Uuid) (p : Platform) (hnum : Table.executions.Numbered p.database)
    (hown : ∀ own, definition.tenant = some own → p.database.hasTenant own = true) :
    Told definition p ((runDefinition schemaName definition parameters tenant user).run p) :=
  (ends_runDefinition schemaName parameters tenant user hnum hown).toTold

/-- A tenant at nine o'clock, its definition, and the reply to the next query. -/
def atNine (total : Int) : Platform :=
  let now : DateTime := ⟨⟨2024, 5, 1⟩, ⟨9, 0, 0, 0⟩, .offset 0⟩
  let tenant : Tenant :=
    { id := TableName.rowId .tenants 1, name := "North", domain := none
      schemaName := "tenant_north", status := .ready, preparationError := none, createdAt := now }
  { Platform.new (.ofMigrations "migrations") now with
    database := (Database.empty.addTenant tenant).addDefinition (fees now)
    replies := [.result ["total"] [[(.text "total", .int total)]]] }
where
  fees (now : DateTime) : Definition :=
    { id := TableName.rowId .definitions 1, tenant := some (TableName.rowId .tenants 1)
      name := "Fees", description := none, reportType := "fees", dataSource := "invoices"
      queryTemplate := "SELECT 1", parameters := [], columns := [], filters := []
      rolePermissions := [], isActive := true, createdBy := none, createdAt := now }

theorem runDefinition_told_of_fees :
    let p := atNine 100
    let definition := atNine.fees p.now
    Table.executions.Numbered p.database ∧
      (∀ own, definition.tenant = some own → p.database.hasTenant own = true) ∧
      canTell definition p.replyRows = true ∧
      Told definition p ((runDefinition "tenant_north" definition [] none none).run p) := by
  intro p definition
  have hnum : Table.executions.Numbered p.database :=
    ⟨List.nodup_nil, fun _ hrow => nomatch hrow⟩
  have hown : ∀ own, definition.tenant = some own → p.database.hasTenant own = true := by
    rintro _ ⟨⟩
    decide
  exact ⟨hnum, hown, by decide +kernel,
    runDefinition_told "tenant_north" definition [] none none p hnum hown⟩

/-- A total beyond the floating-point numbers: the run is completed, and the caller is told of a
fault. -/
theorem completed_untold :
    let p := atNine (10 ^ 400)
    let run := (runDefinition "tenant_north" (atNine.fees p.now) [] none none).run p
    run.1.toOption.isNone = true ∧
      run.2.database.executions.map (·.state.name) = ["completed"] := by
  decide +kernel

end Runs

end TenantReports
