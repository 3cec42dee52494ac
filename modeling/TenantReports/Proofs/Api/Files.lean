import TenantReports.Proofs.Api.Exports

/-!
The files of exports over histories of requests: each belongs to one run, whose row tells where it
is served, and stays as it was rendered.
-/

namespace TenantReports

open Platform (KeepsExports)
open Relation (ReflTransGen)
open Runs (Exporting exportKey)

namespace Runs.Exporting

variable {x y : Exporting} {p q : Platform} {row : Execution} {file : ExportFile} {url : String}

/-- The row of the run that is exported. -/
structure HasRow (x : Exporting) (p : Platform) (row : Execution) : Prop where
  stored : row ∈ p.database.executions
  id : row.id = x.result.execution
  tenant : row.tenant = some x.tenant

/-- The rendered result is stored as a file, under a key that passes the check, and the store serves
it at a URL. -/
structure HasFile (x : Exporting) (p : Platform) (file : ExportFile) (url : String) : Prop where
  rendered : x.file? = .ok file
  checked : FilePath.ofKey? (x.key file) = .ok (x.path file)
  served : p.urlOf? (x.key file) = some url
  content : p.file? (x.path file) = some file.content

/-- What an export came to, as a platform shows it: the row of its run tells the URL of its file,
or no URL if the export failed. -/
inductive IsShown (x : Exporting) (p : Platform) : Prop
  | stored {row : Execution} {file : ExportFile} {url : String} (told : x.outcome = .ok url)
      (own : x.HasRow p row) (exportUrl : row.exportUrl = some url) (held : x.HasFile p file url)
  | failed {row : Execution} {fault : Fault} (told : x.outcome = .error fault)
      (own : x.HasRow p row) (exportUrl : row.exportUrl = none)

/-! One export -/

theorem IsShown.hasRow (h : x.IsShown p) : ∃ row, x.HasRow p row := by
  cases h with
  | stored told own exportUrl held => exact ⟨_, own⟩
  | failed told own exportUrl => exact ⟨_, own⟩

theorem HasRow.keeping (h : x.HasRow p row) (hkept : p.KeepsExports q) :
    ∃ row', x.HasRow q row' ∧ row'.exportUrl = row.exportUrl := by
  obtain ⟨row', hrow', hsame⟩ := hkept.kept row h.stored
  exact ⟨row', ⟨hrow', hsame.id.trans h.id, hsame.tenant.trans h.tenant⟩, hsame.exportUrl⟩

theorem HasFile.keeping (h : x.HasFile p file url) (hkept : p.KeepsExports q) :
    x.HasFile q file url := by
  refine ⟨h.rendered, h.checked, ?_, ?_⟩
  · unfold Platform.urlOf?
    rw [hkept.store]
    exact h.served
  · unfold Platform.file?
    rw [hkept.store]
    exact h.content

theorem IsShown.keeping (h : x.IsShown p) (hkept : p.KeepsExports q) : x.IsShown q := by
  cases h with
  | stored told own exportUrl held =>
      obtain ⟨row', hrow', hsame⟩ := own.keeping hkept
      exact .stored told hrow' (hsame.trans exportUrl) (held.keeping hkept)
  | failed told own exportUrl =>
      obtain ⟨row', hrow', hsame⟩ := own.keeping hkept
      exact .failed told hrow' (hsame.trans exportUrl)

/-- The rows of other runs stay as they are. -/
theorem mem_left_of_ne (h : row ∈ y.before.database.executions)
    (hne : row.id ≠ y.result.execution) : row ∈ y.left.database.executions := by
  cases y.ends with
  | failed cause told rows files =>
      rw [rows]
      exact h
  | stored rendered put told checked served entered written elsewhere =>
      rw [entered]
      exact List.mem_map.mpr ⟨row, h, if_neg hne⟩

/-- An export leaves what is shown of the export of another run. -/
theorem IsShown.exporting (h : x.IsShown y.before)
    (hne : x.result.execution ≠ y.result.execution) : x.IsShown y.left := by
  have hrow : ∀ {row : Execution}, x.HasRow y.before row → x.HasRow y.left row := fun hrow =>
    ⟨mem_left_of_ne hrow.stored (hrow.id ▸ hne), hrow.id, hrow.tenant⟩
  cases h with
  | failed told own exportUrl => exact .failed told (hrow own) exportUrl
  | stored told own exportUrl held =>
      refine .stored told (hrow own) exportUrl ⟨held.rendered, held.checked, ?_, ?_⟩
      · rw [urlOf?_left]
        exact held.served
      · have hpath := FilePath.ofKey_eq_of_ok held.checked
        have hcontent := held.content
        rw [← hpath] at hcontent ⊢
        exact (y.file?_left_of_ne _ _ hne).trans hcontent

/-- An export of a run that was recorded with no export shows at once what it came to. -/
theorem Follows.isShown (h : x.Follows p) : x.IsShown x.left := by
  obtain ⟨row, hstored, hid, htenant, hurl⟩ := h.row
  cases x.ends with
  | failed cause told rows files =>
      refine .failed told ⟨?_, hid, htenant⟩ hurl
      rw [rows]
      exact hstored
  | @stored file url rendered put told checked served entered written elsewhere =>
      let exported : Execution := { row with exportUrl := some url }
      have hexported : exported ∈ x.left.database.executions := by
        rw [entered]
        exact List.mem_map.mpr ⟨row, hstored, if_pos hid⟩
      exact .stored told ⟨hexported, hid, htenant⟩ rfl
        ⟨rendered, checked, (urlOf?_left x _).trans served, written⟩

/-- A row that has a URL after an export is that of its run, or had the URL before. -/
theorem mem_before_of_ne (h : row ∈ x.left.database.executions)
    (hne : row.id ≠ x.result.execution) : row ∈ x.before.database.executions := by
  cases x.ends with
  | failed cause told rows files =>
      rw [rows] at h
      exact h
  | stored rendered put told checked served entered written elsewhere =>
      rw [entered] at h
      obtain ⟨old, hold, rfl⟩ := List.mem_map.mp h
      by_cases hid : old.id = x.result.execution
      · exact absurd (by rw [if_pos hid]; exact hid) hne
      · rwa [if_neg hid]

theorem numbered_left (h : Table.executions.Numbered x.before.database) :
    Table.executions.Numbered x.left.database := by
  cases x.ends with
  | failed cause told rows files =>
      rw [rows]
      exact h
  | @stored file url rendered put told checked served entered written elsewhere =>
      have hchange : Table.executions.Change (fun _ => False) (fun _ _ => True) (fun _ => True)
          x.before.database x.left.database := by
        refine .update (fun row => if row.id = x.result.execution then
          { row with exportUrl := some url } else row) (fun row => ?_) (fun row _ => ?_)
          (fun _ _ => .inr ⟨⟨⟩, ⟨⟩⟩) (congrArg Database.executions entered)
        · split <;> rfl
        · split <;> rfl
      exact hchange.numbered (by rw [entered]; exact le_refl _) h

end Runs.Exporting

/-! The steps of a request -/

namespace ExportStep

variable {Makes : Exporting → Prop} {x : Exporting} {p q : Platform}

theorem numbered (h : ExportStep Makes p q) (hnum : Table.executions.Numbered p.database) :
    Table.executions.Numbered q.database := by
  cases h with
  | keeps hkept => exact hkept.numbered hnum
  | exports made follows => exact Exporting.numbered_left (follows.kept.numbered hnum)

/-- What an export came to stays, as every later export is of a run that was recorded later. -/
theorem isShown (h : ExportStep Makes p q) (hnum : Table.executions.Numbered p.database)
    (hx : x.IsShown p) : x.IsShown q := by
  cases h with
  | keeps hkept => exact hx.keeping hkept
  | exports made follows =>
      obtain ⟨row, hrow⟩ := hx.hasRow
      refine (hx.keeping follows.kept).exporting ?_
      rw [← hrow.id]
      exact hnum.id_ne_of_isLater follows.later hrow.stored

theorem origin (h : ExportStep Makes p q) {row : Execution} (hrow : row ∈ q.database.executions)
    (hurl : row.exportUrl ≠ none) :
    (∃ old ∈ p.database.executions, row.id = old.id ∧ old.exportUrl ≠ none) ∨
      ∃ x, Makes x ∧ row.id = x.result.execution := by
  have hkeeps : ∀ {r : Platform}, p.KeepsExports r → row ∈ r.database.executions →
      ∃ old ∈ p.database.executions, row.id = old.id ∧ old.exportUrl ≠ none := by
    intro r hkept hmem
    rcases hkept.origin row hmem with hnone | ⟨old, hold, hsame⟩
    · exact absurd hnone hurl
    · exact ⟨old, hold, hsame.id, hsame.exportUrl ▸ hurl⟩
  cases h with
  | keeps hkept => exact .inl (hkeeps hkept hrow)
  | @exports x made follows =>
      by_cases hid : row.id = x.result.execution
      · exact .inr ⟨x, made, hid⟩
      · exact .inl (hkeeps follows.kept (Exporting.mem_before_of_ne hrow hid))

/-- A file that a step changes is that of an export which the step makes. -/
theorem file?_cases (h : ExportStep Makes p q) (path : FilePath) :
    q.file? path = p.file? path ∨ ∃ x file, Makes x ∧ x.file? = .ok file ∧ path = x.path file := by
  have hkeeps : ∀ {r : Platform}, p.KeepsExports r → r.file? path = p.file? path := by
    intro r hkept
    unfold Platform.file?
    rw [hkept.store]
  cases h with
  | keeps hkept => exact .inl (hkeeps hkept)
  | @exports x made follows =>
      cases x.ends with
      | failed cause told rows files => exact .inl ((files path).trans (hkeeps follows.kept))
      | @stored file url rendered put told checked served entered written elsewhere =>
          by_cases hpath : path = x.path file
          · exact .inr ⟨x, file, made, rendered, hpath⟩
          · exact .inl ((elsewhere path hpath).trans (hkeeps follows.kept))

theorem numbered_of_steps (h : ReflTransGen (ExportStep Makes) p q)
    (hnum : Table.executions.Numbered p.database) : Table.executions.Numbered q.database := by
  induction h with
  | refl => exact hnum
  | tail _ hstep ih => exact hstep.numbered ih

theorem isShown_of_steps (h : ReflTransGen (ExportStep Makes) p q)
    (hnum : Table.executions.Numbered p.database) (hx : x.IsShown p) : x.IsShown q := by
  induction h with
  | refl => exact hx
  | tail hsteps hstep ih => exact hstep.isShown (numbered_of_steps hsteps hnum) ih

theorem origin_of_steps (h : ReflTransGen (ExportStep Makes) p q) {row : Execution}
    (hrow : row ∈ q.database.executions) (hurl : row.exportUrl ≠ none) :
    (∃ old ∈ p.database.executions, row.id = old.id ∧ old.exportUrl ≠ none) ∨
      ∃ x, Makes x ∧ row.id = x.result.execution := by
  induction h generalizing row with
  | refl => exact .inl ⟨row, hrow, rfl, hurl⟩
  | tail _ hstep ih =>
      rcases hstep.origin hrow hurl with ⟨mid, hmid, hid, hmidUrl⟩ | hmade
      · rw [hid]
        exact ih hmid hmidUrl
      · exact .inr hmade

theorem file?_cases_of_steps (h : ReflTransGen (ExportStep Makes) p q) (path : FilePath) :
    q.file? path = p.file? path ∨ ∃ x file, Makes x ∧ x.file? = .ok file ∧ path = x.path file := by
  induction h with
  | refl => exact .inl rfl
  | tail _ hstep ih =>
      rcases hstep.file?_cases path with hsame | hmade
      · rw [hsame]
        exact ih
      · exact .inr hmade

end ExportStep

namespace Exchange

variable {e : Exchange} {x : Exporting}

/-- What an export came to is shown by what its exchange leaves. -/
theorem Makes.isShown (h : e.Makes x) (hnum : Table.executions.Numbered e.met.database) :
    x.IsShown e.left := by
  obtain ⟨p, hbefore, hfollows, hafter⟩ := h.between
  have hleft := Exporting.numbered_left
    (hfollows.kept.numbered (ExportStep.numbered_of_steps hbefore hnum))
  exact ExportStep.isShown_of_steps hafter hleft (Exporting.Follows.isShown hfollows)

end Exchange

/-! Histories -/

/-- Exchanges, one after another, from empty tables. Each meets the tables and the files that those
before it left; everything else that it meets is as it may be, and so are the files at first. -/
inductive FileHistory (settings : Settings) : List Exchange → Platform → Prop
  | start {p : Platform} (empty : p.database = .empty) (configured : p.settings = settings) :
      FileHistory settings [] p
  | next {exchanges : List Exchange} {p : Platform} (past : FileHistory settings exchanges p)
      (e : Exchange) (tables : e.met.database = p.database) (files : e.met.store = p.store)
      (configured : e.met.settings = settings) : FileHistory settings (exchanges ++ [e]) e.left

namespace FileHistory

variable {settings : Settings} {exchanges : List Exchange} {p : Platform}

theorem history (h : FileHistory settings exchanges p) :
    History settings exchanges p.database := by
  induction h with
  | start empty configured =>
      rw [empty]
      exact .start
  | next past e tables files configured ih => exact ih.next e tables configured

theorem numbered (h : FileHistory settings exchanges p) :
    Table.executions.Numbered p.database := h.history.sound.executions

/-- What every export of a history came to is still shown. -/
theorem isShown (h : FileHistory settings exchanges p) :
    ∀ e ∈ exchanges, ∀ x, e.Makes x → x.IsShown p := by
  induction h with
  | start empty configured => exact fun _ he => nomatch he
  | @next exchanges p past e tables files configured ih =>
      have hmeets : p.KeepsExports e.met :=
        .of_rows files (tables ▸ le_refl _) (congrArg Database.executions tables)
      have hnum := hmeets.numbered past.numbered
      intro e' he' x hx
      rcases List.mem_append.mp he' with hold | hlast
      · exact ExportStep.isShown_of_steps e.exportSteps hnum ((ih e' hold x hx).keeping hmeets)
      · cases List.mem_singleton.mp hlast
        exact hx.isShown hnum

/-- A row with a URL is that of a run whose result was exported. -/
theorem origin (h : FileHistory settings exchanges p) {row : Execution}
    (hrow : row ∈ p.database.executions) (hurl : row.exportUrl ≠ none) :
    ∃ e ∈ exchanges, ∃ x, e.Makes x ∧ row.id = x.result.execution := by
  induction h generalizing row with
  | start empty configured =>
      rw [empty] at hrow
      cases hrow
  | next past e tables files configured ih =>
      rcases ExportStep.origin_of_steps e.exportSteps hrow hurl with
        ⟨old, hold, hid, holdUrl⟩ | ⟨x, hx, hid⟩
      · rw [tables] at hold
        obtain ⟨e', he', x, hx, hsame⟩ := ih hold holdUrl
        exact ⟨e', List.mem_append_left _ he', x, hx, hid.trans hsame⟩
      · exact ⟨e, List.mem_append_right _ (List.mem_singleton_self e), x, hx, hid⟩

/-- A row with a URL is that of a run whose result was exported, to the file that is served there. -/
theorem hasFile (h : FileHistory settings exchanges p) {row : Execution}
    (hrow : row ∈ p.database.executions) {url : String} (hurl : row.exportUrl = some url) :
    ∃ e ∈ exchanges, ∃ x file, e.Makes x ∧ x.HasRow p row ∧ x.HasFile p file url := by
  obtain ⟨e, he, x, hx, hid⟩ := h.origin hrow (by rw [hurl]; exact fun h => nomatch h)
  have hsame : ∀ {own : Execution}, x.HasRow p own → row = own := fun hown =>
    h.numbered.eq_of_id_eq hrow hown.stored (hid.trans hown.id.symm)
  cases h.isShown e he x hx with
  | failed told own exportUrl =>
      rw [hsame own] at hurl
      exact nomatch exportUrl.symm.trans hurl
  | @stored own file url' told hown exportUrl held =>
      obtain rfl := hsame hown
      cases exportUrl.symm.trans hurl
      exact ⟨e, he, x, file, hx, hown, held⟩

/-- Every row with a URL is that of a run whose result was exported in the format that was asked for
or scheduled, and the file with the rendered result is served at the URL. Every export that was
made either stored that file alone, under a key that passes the check, or left all rows and files as
they were; its row still tells which. An exchange changes no files but those of its exports, and
these are apart from the files of other runs. -/
theorem exports_apart (h : FileHistory settings exchanges p) :
    (∀ row ∈ p.database.executions, ∀ url, row.exportUrl = some url →
      ∃ e ∈ exchanges, ∃ x file, e.Makes x ∧ x.HasRow p row ∧ x.HasFile p file url) ∧
    ∀ e ∈ exchanges,
      (∀ x, e.Makes x → x.Ends ∧ x.IsShown p ∧
        (∀ file, x.file? = .ok file → FilePath.ofKey? (x.key file) = .ok (x.path file)) ∧
        ∀ tenant execution extension, execution ≠ x.result.execution →
          x.left.file? (FilePath.ofKey (exportKey tenant execution extension)) =
            x.before.file? (FilePath.ofKey (exportKey tenant execution extension))) ∧
      ∀ path, e.left.file? path = e.met.file? path ∨
        ∃ x file, e.Makes x ∧ x.file? = .ok file ∧ path = x.path file := by
  refine ⟨fun row hrow url hurl => h.hasFile hrow hurl, fun e he => ⟨fun x hx => ?_, fun path => ?_⟩⟩
  · refine ⟨x.ends, h.isShown e he x hx, fun file hfile => Exporting.checked_key hfile, ?_⟩
    intro tenant execution extension hother
    exact x.file?_left_of_ne tenant extension hother
  · exact ExportStep.file?_cases_of_steps e.exportSteps path

theorem inTurn (past : FileHistory settings exchanges p) (configured : p.settings = settings)
    (requests : List ApiRequest) :
    FileHistory settings (exchanges ++ Exchange.inTurn p requests) (p.afterAll requests) := by
  induction requests generalizing exchanges p with
  | nil =>
      rw [Exchange.inTurn, List.append_nil]
      exact past
  | cons request requests ih =>
      let e : Exchange := ⟨request, p⟩
      have hsettings := (e.steps.follows past.history.sound).settings
      have hnext := ih (past.next e rfl rfl configured) (hsettings.trans configured)
      rw [List.append_assoc] at hnext
      exact hnext

/-- A result is exported, and then one in a format that nothing renders. -/
theorem exports_apart_of_requests :
    let tenant := TableName.rowId .tenants 1
    let definition := TableName.rowId .definitions 1
    let requests := [.toProvision "North", .toDefine "SELECT 1",
      ApiRequest.toExport tenant definition "csv", ApiRequest.toExport tenant definition "pdf"]
    let exchanges := Exchange.inTurn Platform.invoicesOnly requests
    let p := Platform.invoicesOnly.afterAll requests
    let url := "/exports/" ++ exportKey tenant (TableName.rowId .executions 1) "csv"
    FileHistory (.ofMigrations "migrations") exchanges p ∧
      p.database.executions.map (·.exportUrl) = [some url, none] ∧
      ∃ row ∈ p.database.executions, ∃ e ∈ exchanges, ∃ x file,
        e.Makes x ∧ x.HasRow p row ∧ x.HasFile p file url := by
  intro tenant definition requests exchanges p url
  have hstart : FileHistory (.ofMigrations "migrations") [] Platform.invoicesOnly := .start rfl rfl
  have h : FileHistory (.ofMigrations "migrations") exchanges p := hstart.inTurn rfl requests
  have hurls : p.database.executions.map (·.exportUrl) = [some url, none] := by decide +kernel
  have hurl : some url ∈ p.database.executions.map (·.exportUrl) := by
    rw [hurls]
    exact List.mem_cons_self
  obtain ⟨row, hrow, hrowUrl⟩ := List.mem_map.mp hurl
  exact ⟨h, hurls, row, hrow, (exports_apart h).1 row hrow url hrowUrl⟩

end FileHistory

end TenantReports
