import TenantReports.Proofs.Api.Tables
import TenantReports.Proofs.Result
import TenantReports.Proofs.Storage.Files

/-!
Recorded runs and exports, as chains of steps.
-/

namespace TenantReports

open Action (Meets IsAside)
open Relation (ReflTransGen)
open Table (IsLater)
open Api (Cause Step Sources)

variable {request : ApiRequest} {past : Database} {tenant : Uuid} {p : Platform}

namespace Work

theorem require_meets {α : Type} {S : Platform → Platform → Prop} (fault : Fault)
    (found : Option α) : Meets S (require fault found) p fun a q => q = p ∧ found = some a := by
  cases found with
  | none => exact .fail
  | some a => exact .answer ⟨rfl, rfl⟩

theorem reads_require {α : Type} (fault : Fault) (found : Option α) :
    Action.Reads (require fault found) := by
  cases found with
  | none => exact .fail fault
  | some a => exact .answer a

theorem run_insert {α : Type} (table : TableName) (accepts : Database → α → Bool)
    (add : Database → α → Database) (make : Uuid → α) (p : Platform) :
    (insert table accepts add make).run p =
      if accepts (p.database.attempt table) (make (p.database.nextId table)) then
        (.ok (make (p.database.nextId table)),
          p.onDatabase fun db => add (db.attempt table) (make (db.nextId table)))
      else (.error .integrity, p.onDatabase (·.attempt table)) := by
  have hread : ∀ q : Platform, database.run q = (.ok q.database, q) := fun _ => rfl
  have hupdate : ∀ f (q : Platform), (updateDatabase f).run q = (.ok (), q.onDatabase f) :=
    fun _ _ => rfl
  unfold insert
  rw [Action.run_bind, hread]
  dsimp only
  rw [Action.run_bind, hupdate]
  dsimp only
  rw [Action.run_bind, hread]
  dsimp only [Platform.onDatabase]
  split
  · rfl
  · rfl

/-- An insert is the step that `hstep` says it is if the tables accept the row, and refused if
not. -/
theorem insert_meets_of_accepts {α : Type} {S : Platform → Platform → Prop} {table : TableName}
    {accepts : Database → α → Bool} {add : Database → α → Database} {make : Uuid → α}
    (hrefused : S p (p.onDatabase (·.attempt table)))
    (hstep : accepts (p.database.attempt table) (make (p.database.nextId table)) = true →
      S p (p.onDatabase fun db => add (db.attempt table) (make (db.nextId table)))) :
    Meets S (insert table accepts add make) p fun row q =>
      row = make (p.database.nextId table) ∧
        q = p.onDatabase fun db => add (db.attempt table) (make (db.nextId table)) := by
  have hrun := run_insert table accepts add make p
  split at hrun
  · next haccepts =>
      refine .of_run_eq hrun (.single (hstep haccepts)) ?_
      rintro _ ⟨⟩
      exact ⟨rfl, rfl⟩
  · exact .of_run_eq hrun (.single hrefused) fun _ h => nomatch h

/-- An insert is the step that `hstep` says it is, or is refused. -/
theorem insert_meets {α : Type} {S : Platform → Platform → Prop} {table : TableName}
    {accepts : Database → α → Bool} {add : Database → α → Database} {make : Uuid → α}
    (hrefused : S p (p.onDatabase (·.attempt table)))
    (hstep : S p (p.onDatabase fun db => add (db.attempt table) (make (db.nextId table)))) :
    Meets S (insert table accepts add make) p fun row q =>
      row = make (p.database.nextId table) ∧
        q = p.onDatabase fun db => add (db.attempt table) (make (db.nextId table)) :=
  insert_meets_of_accepts hrefused fun _ => hstep

end Work

namespace Api

/-- A step of work that leaves the schedules alone, and the tables that reports are made from. -/
structure ReportStep (request : ApiRequest) (past : Database) (tenant : Uuid) (p q : Platform) :
    Prop where
  step : Step request past (some tenant) p q
  continues : p.database.Continues q.database
  schedules : q.database.schedules = p.database.schedules

/-- A step of a run, which records no export. -/
structure RunStep (request : ApiRequest) (past : Database) (tenant : Uuid) (p q : Platform) : Prop
    extends ReportStep request past tenant p q where
  unexported : Table.executions.Numbered p.database →
    ∀ row ∈ q.database.executions, row ∈ p.database.executions ∨ row.exportUrl = none

theorem ReportStep.aside (p q : Platform) (h : p.SameTables q) :
    ReportStep request past tenant p q :=
  ⟨.aside h, .of_eq h.database, congrArg Database.schedules h.database⟩

theorem RunStep.refused (p : Platform) (table : TableName) :
    RunStep request past tenant p (p.onDatabase (·.attempt table)) :=
  ⟨⟨.refused table, Database.continues_attempt _ _, rfl⟩, fun _ _ hrow => .inl hrow⟩

end Api

open Api (ReportStep RunStep)

/-- The row of a run for a tenant that was recorded after `past` and is completed. -/
def Database.HasRun (past db : Database) (tenant : Uuid) (source : ReportSource)
    (execution : Uuid) : Prop :=
  IsLater past .executions execution ∧ ∃ row ∈ db.executions, row.id = execution ∧
    row.tenant = some tenant ∧ row.source = source ∧
    ∃ rowCount time, row.state = .completed rowCount time

namespace Runs

theorem Sending.left_runStep (sending : Sending)
    (kept : past.Continues sending.before.database) (own : sending.order.tenant = some tenant)
    (source : Sources tenant past sending.order.source sending.sql)
    (cause : Cause request past sending.before.database.schedules sending.order.source) :
    RunStep request past tenant sending.before sending.left := by
  refine ⟨⟨.run kept own source cause, ?_, ?_⟩, fun hnum row hrow => ?_⟩
  · rw [Sending.database_left]
    exact ⟨rfl, rfl, rfl, (Database.continues_attempt _ _).attempts⟩
  · rw [Sending.database_left]
    rfl
  · rw [Sending.executions_left _ hnum] at hrow
    rcases List.mem_append.mp hrow with hold | hnew
    · exact .inl hold
    · rw [List.mem_singleton.mp hnew]
      exact .inr rfl

theorem Sending.ended_mem (sending : Sending) :
    sending.ended ∈ sending.left.database.executions := by
  rw [Sending.database_left]
  refine List.mem_map.mpr ⟨sending.row, List.mem_append_right _ (List.mem_singleton_self _), ?_⟩
  exact if_pos rfl

/-- What is told of a run. -/
def Sending.told (sending : Sending) : Except Fault Output :=
  match sending.outcome with
  | .ok (keys, rows) => .ok ⟨sending.row.id, keys, rows⟩
  | .error fault => .error (toldAs sending.row.id fault)

theorem run_start (order : Order) (p : Platform) :
    (∃ fault, (start order).run p = (.error fault, p)) ∨
    (∃ fault, (start order).run p = (.error fault, p.onDatabase (·.attempt .executions))) ∨
    ∃ parameters, ∀ sql, (start order).run p =
      (.ok (Sending.row ⟨order, parameters, sql, p⟩),
        Sending.begun ⟨order, parameters, sql, p⟩) := by
  unfold start
  rw [Action.run_bind, Action.run_ofResult]
  cases Value.entriesToPlain order.parameters with
  | error fault => exact .inl ⟨fault, rfl⟩
  | ok parameters =>
      have hinsert := Work.run_insert .executions Database.acceptsExecution Database.addExecution
        (fun id =>
          { id, source := order.source, tenant := order.tenant, executedBy := order.user
            parameters := Entries.ofPairs parameters, state := .running, exportUrl := none
            startedAt := p.now }) p
      split at hinsert
      · exact .inr (.inr ⟨Entries.ofPairs parameters, fun _ => hinsert⟩)
      · exact .inr (.inl ⟨_, hinsert⟩)

theorem run_record_of_start {order : Order} {parameters : Entries} (sql : String)
    (hstart : (start order).run p = (.ok (Sending.row ⟨order, parameters, sql, p⟩),
      Sending.begun ⟨order, parameters, sql, p⟩)) :
    (record order sql).run p =
      (Sending.told ⟨order, parameters, sql, p⟩, Sending.left ⟨order, parameters, sql, p⟩) := by
  unfold record
  rw [Action.run_bind, hstart]
  dsimp only
  rw [Action.run_bind, Action.run_attempt]
  dsimp only
  unfold Sending.told Sending.left Sending.state Sending.outcome Sending.after
  rcases (Work.query sql).run (Sending.begun ⟨order, parameters, sql, p⟩) with ⟨outcome, q⟩
  rcases outcome with fault | ⟨keys, rows⟩
  · rfl
  · rfl

/-- A run is recorded, unless its parameters cannot be stored or the tables refuse it. -/
theorem run_record (order : Order) (sql : String) (p : Platform) :
    (∃ fault, (record order sql).run p = (.error fault, p)) ∨
    (∃ fault, (record order sql).run p = (.error fault, p.onDatabase (·.attempt .executions))) ∨
    ∃ parameters, (record order sql).run p =
      (Sending.told ⟨order, parameters, sql, p⟩, Sending.left ⟨order, parameters, sql, p⟩) := by
  rcases run_start order p with ⟨fault, hstart⟩ | ⟨fault, hstart⟩ | ⟨parameters, hstart⟩
  · unfold record
    rw [Action.run_bind, hstart]
    exact .inl ⟨fault, rfl⟩
  · unfold record
    rw [Action.run_bind, hstart]
    exact .inr (.inl ⟨fault, rfl⟩)
  · exact .inr (.inr ⟨parameters, run_record_of_start sql (hstart sql)⟩)

theorem record_meets {order : Order} {sql : String} (kept : past.Continues p.database)
    (own : order.tenant = some tenant) (source : Sources tenant past order.source sql)
    (cause : Cause request past p.database.schedules order.source) :
    Meets (RunStep request past tenant) (record order sql) p fun output q =>
      past.HasRun q.database tenant order.source output.execution := by
  rcases run_record order sql p with ⟨fault, hrun⟩ | ⟨fault, hrun⟩ | ⟨parameters, hrun⟩
  · exact .of_run_eq hrun .refl fun _ h => nomatch h
  · exact .of_run_eq hrun (.single (.refused p _)) fun _ h => nomatch h
  · have hstep : RunStep request past tenant p (Sending.left ⟨order, parameters, sql, p⟩) :=
      Sending.left_runStep ⟨order, parameters, sql, p⟩ kept own source cause
    refine .of_run_eq hrun (.single hstep) fun output htold => ?_
    have hmem := Sending.ended_mem ⟨order, parameters, sql, p⟩
    unfold Sending.told at htold
    split at htold
    · next keys rows houtcome =>
        cases htold
        refine ⟨Table.isLater_nextId (kept.attempts _), _, hmem, rfl, own, rfl, ?_⟩
        unfold Sending.ended Sending.state
        rw [houtcome]
        exact ⟨_, _, rfl⟩
    · cases htold

end Runs

namespace Snapshots

theorem reads_today : Action.Reads today := fun _ => rfl

theorem reads_summarize (rows : List Entries) : Action.Reads (summarize rows) :=
  (Action.Reads.ofResult _).bind fun rows =>
    Action.Reads.bind (fun _ => rfl) fun _ => (Action.Reads.ofResult _).bind fun metrics =>
      .answer (rows, metrics)

theorem reads_date (date : Option Date) : Action.Reads (date.getDM today) := by
  cases date with
  | none => exact reads_today
  | some date => exact .answer date

theorem keep_runStep (p : Platform) (snapshot : Snapshot) (own : snapshot.tenant = tenant)
    (id : snapshot.id = p.database.nextId .snapshots) :
    RunStep request past tenant p
      (p.onDatabase fun db => (db.attempt .snapshots).putSnapshot snapshot) := by
  refine ⟨⟨.keep own id, ?_, ?_⟩, fun _ row hrow => .inl ?_⟩
  · exact (Database.continues_attempt _ _).trans (Database.continues_putSnapshot _ _)
  · exact Database.schedules_putSnapshot _ _
  · unfold Platform.onDatabase at hrow
    dsimp only at hrow
    rw [Database.executions_putSnapshot] at hrow
    exact hrow

/-- Keeping a snapshot is the step that `hkeep` says it is, or is refused. -/
theorem keep_meets {S : Platform → Platform → Prop}
    (hrefused : ∀ p table, S p (p.onDatabase (·.attempt table)))
    (hkeep : ∀ (p : Platform) (snapshot : Snapshot), snapshot.tenant = tenant →
      snapshot.id = p.database.nextId .snapshots →
      S p (p.onDatabase fun db => (db.attempt .snapshots).putSnapshot snapshot))
    (definition : Uuid) (execution : Option Uuid) (rows : List Entries) (date : Option Date) :
    Meets S (keep tenant definition execution rows date) p
      fun _ q => q.database.executions = p.database.executions := by
  unfold keep
  refine ((reads_date date).meets p).bind ?_
  rintro date _ - ⟨rfl, -⟩
  refine ((reads_summarize rows).meets _).bind ?_
  rintro ⟨rows, metrics⟩ q - ⟨rfl, -⟩
  refine .read (a := q.now) rfl ?_
  refine (Work.insert_meets (hrefused q _) (hkeep q _ ?_ ?_)).bind ?_
  · rfl
  · rfl
  rintro snapshot _ - ⟨-, rfl⟩
  refine .answer ?_
  unfold Platform.onDatabase
  dsimp only
  obtain ⟨snapshots, heq⟩ := (q.database.attempt .snapshots).putSnapshot_frame
    { id := q.database.nextId .snapshots, tenant, definition, execution, date, rows, metrics,
      createdAt := q.now }
  rw [heq]
  rfl

end Snapshots

namespace Runs

/-- A definition that is offered to a tenant leaves snapshots for that tenant alone. -/
theorem keepSnapshot_meets {definition : Definition}
    (offered : Definitions.isOffered (some tenant) definition = true) (output : Output) :
    Meets (RunStep request past tenant) (keepSnapshot definition output) p
      fun _ q => q.database.executions = p.database.executions := by
  unfold keepSnapshot
  split
  · next other _ hother =>
      have hvisible := (Bool.and_eq_true_iff.mp offered).2
      rw [Definition.isVisibleTo, hother] at hvisible
      have hsame : other = tenant := by simpa using hvisible
      rw [hsame]
      have hkeep := Snapshots.keep_meets (S := RunStep request past tenant) (p := p)
        RunStep.refused Snapshots.keep_runStep
      exact (hkeep _ _ _ _).bind fun _ q _ hq => .answer hq
  · exact .answer rfl

theorem execution_toResult {output : Output} {columns : List ReportColumn} {result : ReportResult}
    (h : output.toResult columns = .ok result) : result.execution = output.execution := by
  obtain ⟨rows, -, heq⟩ := bind_eq_ok.mp h
  cases heq
  rfl

theorem runDefinition_meets {schemaName : String} {definition : Definition} {user : Option Uuid}
    (kept : past.Continues p.database)
    (stored : past.definition? definition.id = some definition)
    (offered : Definitions.isOffered (some tenant) definition = true)
    (ready : past.HasReady tenant schemaName)
    (cause : Cause request past p.database.schedules (.definition definition.id))
    (parameters : Entries) :
    Meets (RunStep request past tenant)
      (runDefinition schemaName definition parameters (some tenant) user) p fun result q =>
        past.HasRun q.database tenant (.definition definition.id) result.execution := by
  unfold runDefinition
  refine .pass fun sql hsql => ?_
  refine (record_meets kept rfl (.template stored offered ready hsql) cause).bind ?_
  intro output q _ hrun
  refine (keepSnapshot_meets offered output).bind fun _ r _ hr => .ofResult fun result hresult => ?_
  unfold Database.HasRun at hrun ⊢
  rw [hr, execution_toResult hresult]
  exact hrun

end Runs

namespace CustomReports

/-- A report that is found is stored for the tenant. -/
theorem get_meets {S : Platform → Platform → Prop} (id tenant : Uuid) (user : Option Uuid) :
    Meets S (get id tenant user) p fun report q =>
      q = p ∧ report.id = id ∧ p.database.customReport? id = some report ∧
        report.tenant = tenant := by
  refine .read (a := (p.database.customReport? id).filter fun report =>
    report.tenant == tenant && report.isVisibleTo user) rfl ?_
  refine (Work.require_meets _ _).weaken fun report q _ h => ?_
  obtain ⟨hstored, hmatches⟩ := Option.filter_eq_some_iff.mp h.2
  have hid := List.find?_some hstored
  have htenant := (Bool.and_eq_true_iff.mp hmatches).1
  exact ⟨h.1, eq_of_beq hid, hstored, eq_of_beq htenant⟩

end CustomReports

namespace Runs

theorem runCustom_meets {schemaName : String} {id : Uuid} {user : Option Uuid}
    (kept : past.Continues p.database) (ready : past.HasReady tenant schemaName) :
    Meets (RunStep request past tenant) (runCustom schemaName tenant id user) p
      fun result q => past.HasRun q.database tenant (.custom (some id)) result.execution := by
  unfold runCustom
  refine (CustomReports.get_meets id tenant user).bind ?_
  rintro report q - ⟨rfl, rfl, hstored, howned⟩
  refine .pass fun spec hspec => .pass fun sql hsql => ?_
  have hpast : past.customReport? report.id = some report := by
    unfold Database.customReport?
    rw [← kept.customReports]
    exact hstored
  refine (record_meets kept rfl (.spec hpast howned ready hspec hsql)
    (.own (.custom _))).bind ?_
  intro output r _ hrun
  refine .ofResult fun result hresult => ?_
  unfold Database.HasRun at hrun ⊢
  rw [execution_toResult hresult]
  exact hrun

/-! Exports -/

/-- The platform once a file was put, or could not be put, into its store. -/
def filed (p : Platform) (store : LocalStore) (key content : String) : Platform :=
  { p with store := some (store.put key content).2 }

theorem run_storeFile (key content : String) (p : Platform) :
    (storeFile key content).run p =
      match p.store with
      | none => (.error .noStore, p)
      | some store => ((store.put key content).1, filed p store key content) := by
  rcases p with ⟨settings, now, database, catalog, cache, store, connection, replies, lookups⟩
  cases store with
  | none => rfl
  | some store =>
      dsimp only
      rcases hput : store.put key content with ⟨outcome, store'⟩
      have hfile : (storeFile key content).run
          ⟨settings, now, database, catalog, cache, some store, connection, replies, lookups⟩ =
          (Action.ofResult (store.put key content).1 : Work String).run
            ⟨settings, now, database, catalog, cache, some (store.put key content).2, connection,
              replies, lookups⟩ := rfl
      rw [hfile, Action.run_ofResult, hput]
      unfold filed
      rw [hput]

/-- The export of a result: the file cannot be rendered or there is no store, the store fails, or
the URL is recorded. -/
theorem run_exportResult (result : ReportResult) (format : String) (tenant : Uuid) (p : Platform) :
    (∃ fault, (exportResult result format tenant).run p = (.error fault, p)) ∨
    ∃ store extension content, p.store = some store ∧
      ((∃ fault, (exportResult result format tenant).run p =
        (.error fault, filed p store (exportKey tenant result.execution extension) content)) ∨
      ∃ url, (store.put (exportKey tenant result.execution extension) content).1 = .ok url ∧
        (exportResult result format tenant).run p =
          (.ok url, (filed p store (exportKey tenant result.execution extension)
            content).onDatabase (·.updateExecution result.execution fun execution =>
              { execution with exportUrl := some url }))) := by
  unfold exportResult
  rw [Action.run_bind, Action.run_ofResult]
  cases ExportFile.render result.rows (result.columns.map ReportColumn.toEntries) format with
  | error fault => exact .inl ⟨fault, rfl⟩
  | ok file =>
      dsimp only
      rw [Action.run_bind, run_storeFile]
      cases hstore : p.store with
      | none => exact .inl ⟨_, rfl⟩
      | some store =>
          refine .inr ⟨store, file.extension, file.content, rfl, ?_⟩
          dsimp only
          cases (store.put (exportKey tenant result.execution file.extension) file.content).1 with
          | error fault => exact .inl ⟨fault, rfl⟩
          | ok url => exact .inr ⟨url, rfl, rfl⟩

end Runs

namespace Runs

/-- The run of an execution is for a tenant and was recorded after `past`, its file is stored, and
its row has the URL of the file. -/
def Exported (past : Database) (tenant : Uuid) (source : ReportSource) (execution : Uuid)
    (q : Platform) : Prop :=
  IsLater past .executions execution ∧ ∃ row ∈ q.database.executions, row.id = execution ∧
    row.tenant = some tenant ∧ row.source = source ∧
    (∃ rowCount time, row.state = .completed rowCount time) ∧
    ∃ store extension content, q.store = some store ∧
      store.find? (FilePath.ofKey (exportKey tenant execution extension)) = some content ∧
      row.exportUrl = some (store.urlOf (exportKey tenant execution extension))

theorem exportResult_meets {source : ReportSource} {result : ReportResult}
    (asked : request.MayExport)
    (hrun : past.HasRun p.database tenant source result.execution) (format : String) :
    Meets (ReportStep request past tenant) (exportResult result format tenant) p
      fun _ q => Exported past tenant source result.execution q := by
  obtain ⟨hlater, row, hrow, hid, htenant, hsource, hstate⟩ := hrun
  have hfile : ∀ store extension content, ReportStep request past tenant p
      (filed p store (exportKey tenant result.execution extension) content) :=
    fun store extension content => ⟨.file asked hlater extension content, .refl _, rfl⟩
  have hexport : ∀ filed : Platform, filed.database = p.database → ∀ url,
      ReportStep request past tenant filed (filed.onDatabase
        (·.updateExecution result.execution fun execution =>
          { execution with exportUrl := some url })) := by
    intro filed hfiled url
    have hstored : row ∈ filed.database.executions := hfiled ▸ hrow
    rw [← hid] at hlater ⊢
    exact ⟨.export asked hstored htenant hlater url, ⟨rfl, rfl, rfl, fun _ => Nat.le_refl _⟩, rfl⟩
  rcases run_exportResult result format tenant p with ⟨fault, hrun⟩ |
    ⟨store, extension, content, hstore, ⟨fault, hrun⟩ | ⟨url, hurl, hrun⟩⟩
  · exact .of_run_eq hrun .refl fun _ h => nomatch h
  · exact .of_run_eq hrun (.single (hfile store extension content)) fun _ h => nomatch h
  · have hexported :=
      hexport (filed p store (exportKey tenant result.execution extension) content) rfl url
    refine .of_run_eq hrun (.head (hfile store extension content) (.single hexported))
      fun _ _ => ?_
    obtain ⟨hfound, heq⟩ := LocalStore.put_eq_ok hurl
    refine ⟨hlater, { row with exportUrl := some url }, ?_, hid, htenant, hsource, hstate, _,
      extension, content, rfl, hfound, congrArg some heq⟩
    exact List.mem_map.mpr ⟨row, hrow, if_pos hid⟩

end Runs

end TenantReports
