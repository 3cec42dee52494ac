import TenantReports.Proofs.Api.Acting
import TenantReports.Proofs.Storage.Files

/-!
Exports of results: an export stores the one file of its run and records where it is served, or it
fails and changes neither a row nor a file. All other work exports nothing: it leaves the files
alone, and among the runs there are the same with the same URLs, and some new ones without.
-/

namespace TenantReports

open Action (Meets)
open Relation (ReflTransGen)
open Table (IsLater)

/-! One export -/

namespace Platform

/-- The content of a file in the store. -/
def file? (p : Platform) (path : FilePath) : Option String := p.store.bind (·.find? path)

/-- The URL at which the store serves the file under a key. -/
def urlOf? (p : Platform) (key : String) : Option String := p.store.map (·.urlOf key)

end Platform

theorem ExportFormat.slash_not_mem_extension (format : ExportFormat) :
    '/' ∉ format.extension.toList := by
  cases format <;> decide

theorem ExportFile.slash_not_mem_extension {rows columns : List Entries} {formatName : String}
    {file : ExportFile} (h : render rows columns formatName = .ok file) :
    '/' ∉ file.extension.toList := by
  unfold render at h
  split at h
  · cases h
  · next format _ =>
      obtain ⟨content, -, heq⟩ := bind_eq_ok.mp h
      cases heq
      exact format.slash_not_mem_extension

namespace Runs

/-- The export of a result, and the platform that it starts from. -/
structure Exporting where
  result : ReportResult
  format : String
  tenant : Uuid
  before : Platform

namespace Exporting

variable {x : Exporting} {file : ExportFile} {fault : Fault} {store : LocalStore}

/-- How the export ends. -/
def outcome (x : Exporting) : Except Fault String :=
  ((exportResult x.result x.format x.tenant).run x.before).1

/-- The platform once the export has ended. -/
def left (x : Exporting) : Platform := ((exportResult x.result x.format x.tenant).run x.before).2

/-- The rows and columns of the result, rendered in the format. -/
def file? (x : Exporting) : Result ExportFile :=
  ExportFile.render x.result.rows (x.result.columns.map ReportColumn.toEntries) x.format

def key (x : Exporting) (file : ExportFile) : String :=
  exportKey x.tenant x.result.execution file.extension

def path (x : Exporting) (file : ExportFile) : FilePath :=
  exportPath x.tenant x.result.execution file.extension

/-- How the file is stored: the URL of its key, or what keeps the store from it. -/
def storing (x : Exporting) (file : ExportFile) : Except Fault String :=
  ((storeFile (x.key file) file.content).run x.before).1

/-- What an export can fail with: the result cannot be rendered, or the file cannot be stored. -/
inductive Fails (x : Exporting) (fault : Fault) : Prop
  | rendering (h : x.file? = .error fault)
  | storing {file : ExportFile} (rendered : x.file? = .ok file) (h : x.storing file = .error fault)

/-- How an export ends: its file is stored, under a key that passes the check, and the row of its
run tells the URL; or rendering or storing fails, and every row and every file is as it was. -/
inductive Ends (x : Exporting) : Prop
  | stored {file : ExportFile} {url : String} (rendered : x.file? = .ok file)
      (put : x.storing file = .ok url) (told : x.outcome = .ok url)
      (checked : FilePath.ofKey? (x.key file) = .ok (x.path file))
      (served : x.before.urlOf? (x.key file) = some url)
      (entered : x.left.database = x.before.database.updateExecution x.result.execution
        fun row => { row with exportUrl := some url })
      (written : x.left.file? (x.path file) = some file.content)
      (elsewhere : ∀ other, other ≠ x.path file → x.left.file? other = x.before.file? other)
  | failed {fault : Fault} (cause : x.Fails fault) (told : x.outcome = .error fault)
      (rows : x.left.database = x.before.database)
      (files : ∀ path, x.left.file? path = x.before.file? path)

theorem checked_key (h : x.file? = .ok file) :
    FilePath.ofKey? (x.key file) = .ok (x.path file) :=
  ofKey?_exportKey _ _ (ExportFile.slash_not_mem_extension h)

/-- The platform with other directories in its store. -/
def remade (p : Platform) (make : LocalStore → List FilePath) : Platform :=
  { p with store := p.store.map fun store => { store with directories := make store } }

theorem remade_self (p : Platform) : remade p (·.directories) = p := by
  unfold remade
  rcases p with ⟨settings, now, database, catalog, cache, store, connection, replies, lookups⟩
  cases store with
  | none => rfl
  | some store => rfl

/-- A file that is rendered is put into the store, and its URL is recorded. -/
theorem run_of_rendered (h : x.file? = .ok file) :
    (exportResult x.result x.format x.tenant).run x.before =
      (do
        let url ← storeFile (x.key file) file.content
        Work.updateDatabase (·.updateExecution x.result.execution fun row =>
          { row with exportUrl := some url })
        return url : Work String).run x.before := by
  unfold exportResult
  refine Action.run_bind_of_ok ?_
  rw [Action.run_ofResult]
  exact congrArg (·, x.before) h

/-- An export leaves at most directories, or the file of its run and its URL. -/
theorem run_cases (x : Exporting) :
    (∃ fault make, x.Fails fault ∧ (exportResult x.result x.format x.tenant).run x.before =
      (.error fault, remade x.before make)) ∨
    ∃ file store directories, x.file? = .ok file ∧ x.before.store = some store ∧
      x.storing file = .ok (store.urlOf (x.key file)) ∧
      (exportResult x.result x.format x.tenant).run x.before =
        (.ok (store.urlOf (x.key file)),
          ({ x.before with
            store := some (({ store with directories } : LocalStore).writeAt (x.path file)
              file.content) } : Platform).onDatabase (·.updateExecution x.result.execution fun row =>
                { row with exportUrl := some (store.urlOf (x.key file)) })) := by
  cases hfile : x.file? with
  | error fault =>
      refine .inl ⟨fault, (·.directories), .rendering hfile, ?_⟩
      rw [remade_self]
      unfold exportResult
      refine Action.run_bind_of_error ?_
      rw [Action.run_ofResult]
      exact congrArg (·, x.before) hfile
  | ok file =>
      have hstoring := run_storeFile (x.key file) file.content x.before
      rw [run_of_rendered hfile]
      cases hstore : x.before.store with
      | none =>
          rw [hstore] at hstoring
          refine .inl ⟨.noStore, (·.directories), .storing hfile (congrArg Prod.fst hstoring), ?_⟩
          rw [remade_self, Action.run_bind_of_error hstoring]
      | some store =>
          rw [hstore] at hstoring
          dsimp only at hstoring
          unfold filed at hstoring
          rcases store.put_cases (x.key file) file.content with ⟨fault, directories, hput⟩ |
            ⟨path, directories, hpath, hput⟩
          · rw [hput] at hstoring
            refine .inl ⟨fault, fun _ => directories, .storing hfile (congrArg Prod.fst hstoring), ?_⟩
            rw [Action.run_bind_of_error hstoring]
            unfold remade
            rw [hstore]
            rfl
          · rw [hput] at hstoring
            cases hpath.symm.trans (checked_key hfile)
            refine .inr ⟨file, store, directories, rfl, rfl, congrArg Prod.fst hstoring, ?_⟩
            rw [Action.run_bind_of_ok hstoring]
            rfl

theorem ends (x : Exporting) : x.Ends := by
  rcases x.run_cases with ⟨fault, make, hfails, hrun⟩ |
    ⟨file, store, directories, hfile, hstore, hput, hrun⟩
  · refine .failed hfails (congrArg Prod.fst hrun) ?_ fun path => ?_
    · unfold left
      rw [hrun]
      rfl
    · unfold left Platform.file?
      rw [hrun]
      dsimp only [remade]
      cases x.before.store with
      | none => rfl
      | some store => rfl
  · refine .stored hfile hput (congrArg Prod.fst hrun) (checked_key hfile) ?_ ?_ ?_ ?_
    · unfold Platform.urlOf?
      rw [hstore]
      rfl
    · unfold left
      rw [hrun]
      rfl
    · unfold left
      rw [hrun]
      exact LocalStore.find?_writeAt _ _ _
    · intro other hother
      unfold left Platform.file?
      rw [hrun, hstore]
      exact LocalStore.find?_writeAt_of_ne _ hother _

/-- An export leaves the store served where it was. -/
theorem urlOf?_left (x : Exporting) (key : String) : x.left.urlOf? key = x.before.urlOf? key := by
  unfold left Platform.urlOf?
  rcases x.run_cases with ⟨fault, make, -, hrun⟩ | ⟨file, store, directories, -, hstore, -, hrun⟩
  · rw [hrun]
    dsimp only [remade]
    cases x.before.store with
    | none => rfl
    | some store => rfl
  · rw [hrun, hstore]
    rfl

/-- The files of other runs are as they were. -/
theorem file?_left_of_ne (x : Exporting) (tenant : Uuid) {execution : Uuid} (extension : String)
    (h : execution ≠ x.result.execution) :
    x.left.file? (FilePath.ofKey (exportKey tenant execution extension)) =
      x.before.file? (FilePath.ofKey (exportKey tenant execution extension)) := by
  cases x.ends with
  | failed cause told rows files => exact files _
  | stored rendered put told checked served entered written elsewhere =>
      refine elsewhere _ fun heq => h ?_
      rw [← FilePath.ofKey_eq_of_ok checked] at heq
      exact (exportKey_inj (FilePath.ofKey_injective heq)).2.1

end Exporting

end Runs

/-! Work that exports nothing -/

/-- The row of the same run, with the same export. -/
structure Execution.SameExport (row old : Execution) : Prop where
  id : row.id = old.id
  tenant : row.tenant = old.tenant
  exportUrl : row.exportUrl = old.exportUrl

namespace Execution.SameExport

variable {row old older : Execution}

theorem refl (row : Execution) : row.SameExport row := ⟨rfl, rfl, rfl⟩

theorem trans (h : row.SameExport old) (h' : old.SameExport older) : row.SameExport older :=
  ⟨h.id.trans h'.id, h.tenant.trans h'.tenant, h.exportUrl.trans h'.exportUrl⟩

end Execution.SameExport

namespace Platform

/-- From `p` to `q` nothing was exported. -/
structure KeepsExports (p q : Platform) : Prop where
  store : q.store = p.store
  numbered : Table.executions.Numbered p.database → Table.executions.Numbered q.database
  kept : ∀ old ∈ p.database.executions, ∃ row ∈ q.database.executions, row.SameExport old
  origin : ∀ row ∈ q.database.executions,
    row.exportUrl = none ∨ ∃ old ∈ p.database.executions, row.SameExport old

namespace KeepsExports

variable {p q r : Platform}

theorem refl (p : Platform) : p.KeepsExports p :=
  ⟨rfl, id, fun old hold => ⟨old, hold, .refl old⟩, fun row hrow => .inr ⟨row, hrow, .refl row⟩⟩

theorem trans (h : p.KeepsExports q) (h' : q.KeepsExports r) : p.KeepsExports r := by
  refine ⟨h'.store.trans h.store, fun hnum => h'.numbered (h.numbered hnum), ?_, ?_⟩
  · intro old hold
    obtain ⟨mid, hmid, hsame⟩ := h.kept old hold
    obtain ⟨row, hrow, hsame'⟩ := h'.kept mid hmid
    exact ⟨row, hrow, hsame'.trans hsame⟩
  · intro row hrow
    rcases h'.origin row hrow with hnone | ⟨mid, hmid, hsame'⟩
    · exact .inl hnone
    · rcases h.origin mid hmid with hnone | ⟨old, hold, hsame⟩
      · exact .inl (hsame'.exportUrl.trans hnone)
      · exact .inr ⟨old, hold, hsame'.trans hsame⟩

theorem of_steps (h : ReflTransGen KeepsExports p q) : p.KeepsExports q := by
  induction h with
  | refl => exact .refl p
  | tail _ hstep ih => exact ih.trans hstep

/-- Each run is changed into one with the same export. -/
theorem of_map (f : Execution → Execution) (store : q.store = p.store)
    (attempts : p.database.attempts.count .executions ≤ q.database.attempts.count .executions)
    (rows : q.database.executions = p.database.executions.map f)
    (hf : ∀ row, (f row).SameExport row) : p.KeepsExports q := by
  have hchange : Table.executions.Change (fun _ => False) (fun _ _ => True) (fun _ => True)
      p.database q.database :=
    .update f (fun row => (hf row).id) (fun row _ => (hf row).tenant) (fun _ _ => .inr ⟨⟨⟩, ⟨⟩⟩)
      rows
  refine ⟨store, hchange.numbered attempts, fun old hold => ?_, fun row hrow => ?_⟩
  · exact ⟨f old, rows ▸ List.mem_map_of_mem hold, hf old⟩
  · rw [rows] at hrow
    obtain ⟨old, hold, rfl⟩ := List.mem_map.mp hrow
    exact .inr ⟨old, hold, hf old⟩

theorem of_rows (store : q.store = p.store)
    (attempts : p.database.attempts.count .executions ≤ q.database.attempts.count .executions)
    (rows : q.database.executions = p.database.executions) : p.KeepsExports q :=
  of_map id store attempts (rows.trans (List.map_id _).symm) .refl

/-- A run is added that has no export. -/
theorem of_add (row : Execution) (store : q.store = p.store)
    (attempts : p.database.attempts.count .executions < q.database.attempts.count .executions)
    (id : row.id = p.database.nextId .executions) (unexported : row.exportUrl = none)
    (rows : q.database.executions = p.database.executions ++ [row]) : p.KeepsExports q := by
  have hchange : Table.executions.Change (fun _ => True) (fun _ _ => True) (fun _ => True)
      p.database q.database := .add row id trivial attempts rows
  refine ⟨store, hchange.numbered attempts.le, fun old hold => ?_, fun added hadded => ?_⟩
  · exact ⟨old, rows ▸ List.mem_append_left _ hold, .refl old⟩
  · rw [rows] at hadded
    rcases List.mem_append.mp hadded with hold | hnew
    · exact .inr ⟨added, hold, .refl added⟩
    · rw [List.mem_singleton.mp hnew]
      exact .inl unexported

theorem of_sameTables (h : p.SameTables q) : p.KeepsExports q :=
  of_rows h.store (h.database ▸ le_refl _) (congrArg Database.executions h.database)

theorem refused (p : Platform) (table : TableName) :
    p.KeepsExports (p.onDatabase (·.attempt table)) := of_rows rfl List.count_le_count_cons rfl

theorem keep (p : Platform) (snapshot : Snapshot) :
    p.KeepsExports (p.onDatabase fun db => (db.attempt .snapshots).putSnapshot snapshot) := by
  refine of_rows rfl ?_ (Database.executions_putSnapshot _ _)
  unfold Platform.onDatabase
  dsimp only
  rw [Database.attempts_putSnapshot]
  exact List.count_le_count_cons

end KeepsExports

end Platform

open Platform (KeepsExports)

namespace Runs

theorem Sending.keepsExports_left (sending : Sending) :
    sending.before.KeepsExports sending.left := by
  have hbegun : sending.before.KeepsExports sending.begun :=
    .of_add sending.row rfl (Database.count_attempt_lt _ _) rfl rfl rfl
  let ended (row : Execution) : Execution :=
    if row.id = sending.row.id then { row with state := sending.state } else row
  refine hbegun.trans (.of_map ended sending.sent.store ?_ ?_ fun row => ?_)
  · rw [sending.database_left]
    exact le_refl _
  · rw [sending.database_left]
    rfl
  · by_cases hid : row.id = sending.row.id
    · rw [show ended row = _ from if_pos hid]
      exact ⟨rfl, rfl, rfl⟩
    · rw [show ended row = _ from if_neg hid]
      exact .refl row

end Runs

namespace Api

variable {request : ApiRequest} {past : Database} {owner : Option Uuid} {p q : Platform}

/-- A request to another endpoint takes no step that exports. -/
theorem Step.keepsExports (h : Step request past owner p q) (hother : ¬ request.MayExport) :
    p.KeepsExports q := by
  have hattempts := h.attempts_le .executions
  cases h with
  | aside h => exact .of_sameTables h
  | run kept own source cause => exact Runs.Sending.keepsExports_left _
  | keep own id => exact .keep _ _
  | file asked later extension content => exact absurd asked hother
  | «export» asked stored own later url => exact absurd asked hother
  | remove asked first stored own =>
      exact .of_map (fun row => { row with source := row.source.forget _ }) rfl hattempts rfl
        fun row => ⟨rfl, rfl, rfl⟩
  | _ => exact .of_rows rfl hattempts rfl

theorem keepsExports_serve (hother : ¬ request.MayExport) (p : Platform) :
    p.KeepsExports ((serve request).run p).2 := by
  refine .of_steps (ReflTransGen.mono ?_ _ _ (serve_steps request p))
  rintro q r ⟨owner, hstep⟩
  exact hstep.keepsExports hother

end Api

namespace Runs

/-- The run of an execution was recorded from `p` to `q`, for a tenant, and nothing was
exported. -/
structure Recorded (p : Platform) (tenant execution : Uuid) (q : Platform) : Prop where
  kept : p.KeepsExports q
  later : IsLater p.database .executions execution
  row : ∃ row ∈ q.database.executions,
    row.id = execution ∧ row.tenant = some tenant ∧ row.exportUrl = none

namespace Recorded

variable {tenant execution : Uuid} {p q r : Platform}

theorem keeping (h : Recorded p tenant execution q) (h' : q.KeepsExports r) :
    Recorded p tenant execution r := by
  obtain ⟨row, hrow, hid, htenant, hurl⟩ := h.row
  obtain ⟨row', hrow', hsame⟩ := h'.kept row hrow
  exact ⟨h.kept.trans h', h.later, row', hrow', hsame.id.trans hid, hsame.tenant.trans htenant,
    hsame.exportUrl.trans hurl⟩

theorem of_sameTables (h : p.SameTables q) (h' : Recorded q tenant execution r) :
    Recorded p tenant execution r :=
  ⟨(KeepsExports.of_sameTables h).trans h'.kept, h.database ▸ h'.later, h'.row⟩

end Recorded

theorem record_records {order : Order} {tenant : Uuid} (own : order.tenant = some tenant)
    (sql : String) (p : Platform) :
    Meets KeepsExports (record order sql) p fun output q =>
      Recorded p tenant output.execution q := by
  rcases run_record order sql p with ⟨fault, hrun⟩ | ⟨fault, hrun⟩ | ⟨parameters, hrun⟩
  · exact .of_run_eq hrun .refl fun _ h => nomatch h
  · exact .of_run_eq hrun (.single (.refused p _)) fun _ h => nomatch h
  · have hkept := Sending.keepsExports_left ⟨order, parameters, sql, p⟩
    have hmem := Sending.ended_mem ⟨order, parameters, sql, p⟩
    refine .of_run_eq hrun (.single hkept) fun output htold => ?_
    unfold Sending.told at htold
    split at htold
    · cases htold
      exact ⟨hkept, Table.isLater_nextId (le_refl _), _, hmem, rfl, own, rfl⟩
    · cases htold

theorem keepSnapshot_keepsExports (definition : Definition) (output : Output) (p : Platform) :
    Meets KeepsExports (keepSnapshot definition output) p fun _ _ => True := by
  unfold keepSnapshot
  split
  · next tenant _ _ =>
      have hkeep : Meets KeepsExports (Snapshots.keep tenant definition.id (some output.execution)
          output.rows none) p fun _ q => q.database.executions = p.database.executions :=
        Snapshots.keep_meets KeepsExports.refused (fun p snapshot _ _ => .keep p snapshot) _ _ _ _
      exact hkeep.bind fun _ _ _ _ => .answer trivial
  · exact .answer trivial

/-- A definition's run is recorded and exports nothing. -/
theorem runDefinition_records (schemaName : String) (definition : Definition)
    (parameters : Entries) (tenant : Uuid) (user : Option Uuid) (p : Platform) :
    Meets KeepsExports (runDefinition schemaName definition parameters (some tenant) user) p
      fun result q => Recorded p tenant result.execution q := by
  unfold runDefinition
  refine .pass fun sql _ => ?_
  refine (record_records rfl sql p).bind fun output q _ hrecorded => ?_
  refine (keepSnapshot_keepsExports definition output q).bind fun _ r hsteps _ => ?_
  refine .ofResult fun result hresult => ?_
  rw [execution_toResult hresult]
  exact hrecorded.keeping (.of_steps hsteps)

end Runs

theorem Api.runFor_records (context : TenantContext) (id : Uuid) (parameters : Entries)
    (user : Option Uuid) (role : Option String) (p : Platform) :
    Meets KeepsExports (runFor context id parameters user role) p fun result q =>
      Runs.Recorded p context.tenant result.execution q := by
  unfold runFor
  refine (Guard.refusing_meets (Definitions.get_meets id (some context.tenant))).bind ?_
  rintro definition q - ⟨rfl, -⟩
  exact Guard.refusing_meets (.pass fun _ _ => Runs.runDefinition_records _ _ _ _ _ _)

end TenantReports
