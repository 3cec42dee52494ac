import TenantReports.Proofs.Report.Checked

/-!
Custom reports are run as they were checked: a stored report compiles, in the schema of its tenant,
to the SQL text that was compiled when it was last created or when its specification was last
changed.
-/

namespace TenantReports

open Action (Reads)

/-- Whether a custom report compiles to a text in the schema of its tenant. -/
def Database.CompilesTo (db : Database) (row : CustomReport) (sql : String) : Prop :=
  ∃ t spec, db.tenant? row.tenant = some t ∧ row.spec.toSpec = .ok spec ∧
    compile t.schemaName spec = .ok sql

namespace Api

variable {request : ApiRequest} {past : Database} {owner : Option Uuid} {p q : Platform}

/-- Custom reports are only created and changed by requests for that. -/
theorem Steps.customReports_kept (h : Steps request p.database p q) (hsound : Sound p.database)
    (hcreates : ¬ request.Asks .createCustomReport)
    (hupdates : ¬ request.Asks .updateCustomReport) :
    ∀ row ∈ q.database.customReports, row ∈ p.database.customReports := by
  induction h with
  | refl => exact fun _ hrow => hrow
  | @tail r _ hsteps hstep ih =>
      obtain ⟨owner, hstep⟩ := hstep
      have hfollows := Steps.follows hsteps hsound
      intro row hrow
      rcases (hstep.customReports hfollows.sound).origin hrow with
        ⟨old, hold, -, -, rfl | ⟨-, asked, -⟩⟩ | ⟨-, -, asked, -⟩
      · exact ih row hold
      · exact absurd asked hupdates
      · exact absurd asked hcreates

/-- A tenant stays in the directory with its schema. -/
theorem Step.schemaName_kept (h : Step request past owner p q) {id : Uuid} {t : Tenant}
    (stored : p.database.tenant? id = some t) :
    ∃ t', q.database.tenant? id = some t' ∧ t'.schemaName = t.schemaName := by
  have hsame : q.database.tenants = p.database.tenants →
      ∃ t', q.database.tenant? id = some t' ∧ t'.schemaName = t.schemaName := by
    intro heq
    unfold Database.tenant? at stored ⊢
    exact ⟨t, heq ▸ stored, rfl⟩
  cases h with
  | aside h => exact hsame (congrArg Database.tenants h.database)
  | run kept own source cause =>
      exact hsame ((congrArg Database.tenants (Runs.Sending.database_left _)).trans rfl)
  | keep own id => exact hsame (Database.continues_putSnapshot _ _).tenants
  | enter _ =>
      exact ⟨t, (List.find?_append ..).trans (congrArg (Option.or · _) stored), rfl⟩
  | @settle _ other status error =>
      have hids : ((·.id == id) ∘ fun t : Tenant =>
          if t.id = other then { t with status, preparationError := error } else t) =
          (·.id == id) := by
        funext t
        rw [Function.comp_apply]
        split <;> rfl
      refine ⟨if t.id = other then { t with status, preparationError := error } else t, ?_, ?_⟩
      · unfold Database.tenant? at stored ⊢
        refine (List.find?_map ..).trans ?_
        rw [hids, stored]
        rfl
      · split <;> rfl
  | _ => exact hsame rfl

theorem Steps.compilesTo (h : Steps request past p q) {row : CustomReport} {sql : String}
    (compiles : p.database.CompilesTo row sql) : q.database.CompilesTo row sql := by
  induction h with
  | refl => exact compiles
  | tail _ hstep ih =>
      obtain ⟨owner, hstep⟩ := hstep
      obtain ⟨t, spec, hstored, hread, hcompiled⟩ := ih
      obtain ⟨t', hstored', hname⟩ := hstep.schemaName_kept hstored
      rw [← hname] at hcompiled
      exact ⟨t', spec, hstored', hread, hcompiled⟩

end Api

namespace Exchange

/-- The changes that the body of an exchange's request makes to a custom report by a patch. -/
def changes (e : Exchange) (patch : CustomReportPatch) : Entries :=
  CustomReports.changesOf patch (e.request.body.getD .null)

/-- Whether an exchange creates a custom report, or sets parts of its specification, after a check
that compiles a text. The work starts from the platform `s`, in the schema of the tenant. -/
inductive Checks (e : Exchange) (id : Uuid) (sql : String) : Prop
  | creates {argument : String} {context : TenantContext} {user : Option Uuid}
      {draft : CustomReportDraft} {spec : ReportSpec} {row : CustomReport} {s : Platform}
      (target : Route.targetOf e.request.method e.request.path =
        .endpoint .createCustomReport argument)
      (enters : Guard.Enters e.request e.met context)
      (start : s = Action.entered context.schemaName e.met)
      (sender : e.request.user = .valid user)
      (written : e.request.readBody CustomReportDraft.read = .valid draft)
      (authorized : (CustomReports.authorize draft.spec e.request.role).run s = (.ok spec, s))
      (checked : ((CustomReports.validate context.schemaName spec).run s).1 = .ok sql)
      (made : ((CustomReports.create context.schemaName context.tenant draft user
        e.request.role).run s).1 = .ok row)
      (own : row.id = id)
  | changes {argument : String} {context : TenantContext} {user : Option Uuid}
      {patch : CustomReportPatch} {old spec : ReportSpec} {report row : CustomReport}
      {s : Platform}
      (target : Route.targetOf e.request.method e.request.path =
        .endpoint .updateCustomReport argument)
      (enters : Guard.Enters e.request e.met context)
      (start : s = Action.entered context.schemaName e.met)
      (named : Api.withUser e.request argument = .valid (user, id))
      (written : e.request.readBody CustomReportPatch.read = .valid patch)
      (sets : SpecDocument.isChangedBy (e.changes patch) = true)
      (stored : s.database.customReport? id = some report)
      (read : report.spec.toSpec = .ok old)
      (merged : ((SpecDocument.ofSpec old).change (e.changes patch)).toSpec = .ok spec)
      (checked : ((CustomReports.validate context.schemaName spec).run s).1 = .ok sql)
      (made : ((CustomReports.update context.schemaName context.tenant id patch
        (e.request.body.getD .null) user).run s).1 = .ok row)

/-- What becomes of custom reports in an exchange: those that it checks compile to what was checked,
and the others stay as they were, but for what is told of them. -/
def Keeps (e : Exchange) : Prop :=
  ∀ row ∈ e.left.database.customReports,
    (∃ sql, e.Checks row.id sql ∧ e.left.database.CompilesTo row sql) ∨
    (∀ sql, ¬ e.Checks row.id sql) ∧ ∃ old ∈ e.met.database.customReports,
      row.id = old.id ∧ row.tenant = old.tenant ∧ row.spec = old.spec

variable {e : Exchange} {argument : String} {context : TenantContext}

theorem keeps_of_subset
    (h : ∀ row ∈ e.left.database.customReports, row ∈ e.met.database.customReports)
    (hnone : ∀ id sql, ¬ e.Checks id sql) : e.Keeps :=
  fun row hrow => .inr ⟨hnone row.id, row, h row hrow, rfl, rfl, rfl⟩

theorem compilesTo_left (enters : Guard.Enters e.request e.met context) {row : CustomReport}
    {spec : ReportSpec} {sql : String} (own : row.tenant = context.tenant)
    (read : row.spec.toSpec = .ok spec) (compiled : compile context.schemaName spec = .ok sql) :
    e.left.database.CompilesTo row sql := by
  obtain ⟨t, hstored, -, hname⟩ := enters.hasReady.1
  refine e.steps.compilesTo ⟨t, spec, own ▸ hstored, read, ?_⟩
  rw [hname]
  exact compiled

theorem reads_shownCustomReport (row : CustomReport) : Reads (Api.shownCustomReport row) := by
  unfold Api.shownCustomReport
  split
  · exact .fail _
  · exact .answer _

/-- A creation that is let into the schema of its tenant leaves what its service leaves. -/
theorem database_of_create {user : Option Uuid} {draft : CustomReportDraft}
    (target : Route.targetOf e.request.method e.request.path =
      .endpoint .createCustomReport argument)
    (enters : Guard.Enters e.request e.met context) (sender : e.request.user = .valid user)
    (written : e.request.readBody CustomReportDraft.read = .valid draft) :
    e.left.database = ((CustomReports.create context.schemaName context.tenant draft user
      e.request.role).run (Action.entered context.schemaName e.met)).2.database := by
  have hleft : e.left = ((Api.createCustomReport e.request).run e.met).2 :=
    left_of_target target
  rw [hleft]
  unfold Api.createCustomReport
  refine (enters.sameTables rfl (Guard.valid_pair sender written)).database.trans
    (congrArg Platform.database ?_)
  refine (Action.left_bind (fun row => ?_) _).trans (Guard.left_refusing _ _ _)
  exact (reads_shownCustomReport row).bind fun _ => .answer _

theorem database_of_update {user : Option Uuid} {id : Uuid} {patch : CustomReportPatch}
    (target : Route.targetOf e.request.method e.request.path =
      .endpoint .updateCustomReport argument)
    (enters : Guard.Enters e.request e.met context)
    (named : Api.withUser e.request argument = .valid (user, id))
    (written : e.request.readBody CustomReportPatch.read = .valid patch) :
    e.left.database = ((CustomReports.update context.schemaName context.tenant id patch
      (e.request.body.getD .null) user).run
        (Action.entered context.schemaName e.met)).2.database := by
  have hleft : e.left = ((Api.updateCustomReport e.request argument).run e.met).2 :=
    left_of_target target
  rw [hleft]
  unfold Api.updateCustomReport
  refine (enters.sameTables rfl (Guard.valid_pair named written)).database.trans
    (congrArg Platform.database ?_)
  refine (Action.left_bind (fun row => ?_) _).trans (Guard.left_refusing _ _ _)
  exact (reads_shownCustomReport row).bind fun _ => .answer _

theorem Checks.of_create {id : Uuid} {sql : String} {user : Option Uuid} {draft : CustomReportDraft}
    (h : e.Checks id sql)
    (target : Route.targetOf e.request.method e.request.path =
      .endpoint .createCustomReport argument)
    (enters : Guard.Enters e.request e.met context) (sender : e.request.user = .valid user)
    (written : e.request.readBody CustomReportDraft.read = .valid draft) :
    ∃ row, ((CustomReports.create context.schemaName context.tenant draft user
      e.request.role).run (Action.entered context.schemaName e.met)).1 = .ok row ∧ row.id = id := by
  cases h with
  | @creates _ _ _ _ _ row _ target' enters' start sender' written' authorized checked made own =>
      cases enters.unique enters'.toActsFor
      cases sender.symm.trans sender'
      cases written.symm.trans written'
      subst start
      exact ⟨row, made, own⟩
  | changes target' => cases target.symm.trans target'

theorem Checks.of_update {id other : Uuid} {sql : String} {user : Option Uuid}
    {patch : CustomReportPatch} (h : e.Checks id sql)
    (target : Route.targetOf e.request.method e.request.path =
      .endpoint .updateCustomReport argument)
    (enters : Guard.Enters e.request e.met context)
    (named : Api.withUser e.request argument = .valid (user, other))
    (written : e.request.readBody CustomReportPatch.read = .valid patch) :
    other = id ∧ SpecDocument.isChangedBy (e.changes patch) = true ∧
      ∃ row, ((CustomReports.update context.schemaName context.tenant id patch
        (e.request.body.getD .null) user).run
          (Action.entered context.schemaName e.met)).1 = .ok row := by
  cases h with
  | creates target' => cases target.symm.trans target'
  | @changes _ _ _ _ _ _ _ row _ target' enters' start named' written' sets _ _ _ _ made =>
      cases target.symm.trans target'
      cases enters.unique enters'.toActsFor
      cases named.symm.trans named'
      cases written.symm.trans written'
      subst start
      exact ⟨rfl, sets, row, made⟩

theorem keeps_of_create (hsound : Api.Sound e.met.database)
    (htarget : Route.targetOf e.request.method e.request.path =
      .endpoint .createCustomReport argument) : e.Keeps := by
  by_cases hacts : ∃ context user draft, Guard.Enters e.request e.met context ∧
      e.request.user = .valid user ∧ e.request.readBody CustomReportDraft.read = .valid draft
  · obtain ⟨context, user, draft, henters, huser, hdraft⟩ := hacts
    have hleft := database_of_create htarget henters huser hdraft
    have hstart := (Action.sameTables_entered context.schemaName e.met).database
    have hdetermined := fun id sql (h : e.Checks id sql) =>
      h.of_create htarget henters huser hdraft
    rcases CustomReports.create_cases context.schemaName context.tenant draft user e.request.role
      (Action.entered context.schemaName e.met) with
      ⟨fault, q, hrun, hkept⟩ | ⟨sql, row, q, hauthorized, hchecked, hrow, hrun, hadded⟩
    · rw [hrun] at hleft hdetermined
      refine keeps_of_subset (fun row hrow => ?_) fun id sql h => ?_
      · rw [hleft, hkept, hstart] at hrow
        exact hrow
      · obtain ⟨row, hmade, -⟩ := hdetermined id sql h
        cases hmade
    · have hid : row.id = e.met.database.nextId .customReports := by
        rw [hrow, hstart]
        rfl
      obtain ⟨v, -, hread⟩ := ApiRequest.readBody_eq_valid hdraft
      have hspec : row.spec.toSpec = .ok draft.spec.trustJoins := by
        rw [hrow]
        exact SpecDocument.toSpec_of_draft hread
      intro other hother
      rw [hleft, hrun] at hother
      dsimp only at hother
      rw [hadded, hstart] at hother
      rcases List.mem_append.mp hother with hold | hnew
      · refine .inr ⟨fun sql h => ?_, other, hold, rfl, rfl, rfl⟩
        obtain ⟨made, hmade, hown⟩ := hdetermined other.id sql h
        rw [hrun] at hmade
        cases hmade
        exact hsound.customReports.id_ne_of_isLater
          (Table.isLater_nextId (Nat.le_refl _)) hold (hown.symm.trans hid)
      · rw [List.mem_singleton.mp hnew]
        refine .inl ⟨sql, .creates htarget henters rfl huser hdraft hauthorized hchecked
          (congrArg Prod.fst hrun) rfl, ?_⟩
        exact compilesTo_left henters (by rw [hrow]; rfl) hspec
          (CustomReports.compile_of_validate hchecked)
  · have hnone : ∀ id sql, ¬ e.Checks id sql := by
      intro id sql h
      cases h with
      | creates target enters start sender written authorized checked made own =>
          exact hacts ⟨_, _, _, enters, sender, written⟩
      | changes target => cases htarget.symm.trans target
    have hleft : e.left = ((Api.createCustomReport e.request).run e.met).2 :=
      left_of_target htarget
    unfold Api.createCustomReport at hleft
    rcases Guard.serveInSchema_cases Guard.reads_noGuard _ with
      hsame | ⟨context, given, henters, -, hgiven⟩
    · rw [← hleft] at hsame
      exact keeps_of_subset (fun _ hrow => hsame.database ▸ hrow) hnone
    · obtain ⟨huser, hdraft⟩ := Guard.valid_of_pair hgiven
      exact absurd ⟨context, given.1, given.2, henters, huser, hdraft⟩ hacts

theorem keeps_of_update
    (htarget : Route.targetOf e.request.method e.request.path =
      .endpoint .updateCustomReport argument) : e.Keeps := by
  by_cases hacts : ∃ context user id patch, Guard.Enters e.request e.met context ∧
      Api.withUser e.request argument = .valid (user, id) ∧
      e.request.readBody CustomReportPatch.read = .valid patch
  · obtain ⟨context, user, id, patch, henters, hnamed, hpatch⟩ := hacts
    have hleft := database_of_update htarget henters hnamed hpatch
    have hstart := (Action.sameTables_entered context.schemaName e.met).database
    have hdetermined := fun id sql (h : e.Checks id sql) =>
      h.of_update htarget henters hnamed hpatch
    rcases CustomReports.update_cases context.schemaName context.tenant id patch
      (e.request.body.getD .null) user (Action.entered context.schemaName e.met) with
      ⟨fault, q, hrun, hkept⟩ |
      ⟨report, changed, q, hstored, howned, hmade, hchecks, hrun, hchanged⟩
    · refine keeps_of_subset (fun row hrow => ?_) fun other sql h => ?_
      · rw [hleft, hrun] at hrow
        dsimp only at hrow
        rw [hkept, hstart] at hrow
        exact hrow
      · obtain ⟨rfl, -, row, hmade⟩ := hdetermined other sql h
        rw [hrun] at hmade
        cases hmade
    · have hmem := List.mem_of_find?_eq_some hstored
      have hfound := List.find?_some hstored
      have hid : report.id = id := eq_of_beq hfound
      obtain ⟨hsame, htenant, -⟩ := CustomReport.change?_keeps hmade
      have hspec := CustomReport.change?_spec hmade
      rw [hstart] at hmem
      intro row hrow
      rw [hleft, hrun] at hrow
      dsimp only at hrow
      rw [hchanged, hstart] at hrow
      obtain ⟨old, hold, rfl⟩ := List.mem_map.mp hrow
      by_cases hown : old.id = id
      · rw [if_pos hown]
        by_cases hsets : SpecDocument.isChangedBy (e.changes patch) = true
        · obtain ⟨old, spec, sql, hread, hmerged, hvalidated⟩ := hchecks hsets
          have hchecked : e.Checks changed.id sql := by
            rw [hsame, hid]
            exact .changes htarget henters rfl hnamed hpatch hsets hstored hread hmerged hvalidated
              (congrArg Prod.fst hrun)
          refine .inl ⟨sql, hchecked, compilesTo_left henters (htenant.trans howned) ?_
            (CustomReports.compile_of_validate hvalidated)⟩
          rw [hspec]
          exact SpecDocument.toSpec_change hread hmerged
        · refine .inr ⟨fun sql h => hsets (hdetermined _ sql h).2.1,
            report, hmem, hsame, htenant, ?_⟩
          rw [hspec]
          exact SpecDocument.change_of_not_isChangedBy (Bool.eq_false_iff.mpr hsets)
      · rw [if_neg hown]
        exact .inr ⟨fun sql h => hown (hdetermined _ sql h).1.symm, old, hold, rfl, rfl, rfl⟩
  · have hnone : ∀ id sql, ¬ e.Checks id sql := by
      intro id sql h
      cases h with
      | creates target => cases htarget.symm.trans target
      | changes target enters start named written sets stored read merged checked made =>
          cases htarget.symm.trans target
          exact hacts ⟨_, _, _, _, enters, named, written⟩
    have hleft : e.left = ((Api.updateCustomReport e.request argument).run e.met).2 :=
      left_of_target htarget
    unfold Api.updateCustomReport at hleft
    rcases Guard.serveInSchema_cases Guard.reads_noGuard _ with
      hsame | ⟨context, given, henters, -, hgiven⟩
    · rw [← hleft] at hsame
      exact keeps_of_subset (fun _ hrow => hsame.database ▸ hrow) hnone
    · obtain ⟨hnamed, hpatch⟩ := Guard.valid_of_pair hgiven
      exact absurd ⟨context, _, _, given.2, henters, hnamed, hpatch⟩ hacts

/-- In every exchange, what is stored of a custom report is what was checked of it. -/
theorem keeps (e : Exchange) (hsound : Api.Sound e.met.database) : e.Keeps := by
  by_cases hcreates : e.request.Asks .createCustomReport
  · obtain ⟨argument, htarget⟩ := hcreates
    exact keeps_of_create hsound htarget
  by_cases hupdates : e.request.Asks .updateCustomReport
  · obtain ⟨argument, htarget⟩ := hupdates
    exact keeps_of_update htarget
  refine keeps_of_subset (e.steps.customReports_kept hsound hcreates hupdates) fun id sql h => ?_
  cases h with
  | creates target => exact hcreates ⟨_, target⟩
  | changes target => exact hupdates ⟨_, target⟩

end Exchange

namespace History

variable {settings : Settings} {exchanges : List Exchange} {db : Database}

theorem lastChecked (h : History settings exchanges db) {row : CustomReport}
    (hrow : row ∈ db.customReports) :
    ∃ before e after sql, exchanges = before ++ e :: after ∧ e.Checks row.id sql ∧
      (∀ later ∈ after, ∀ sql, ¬ later.Checks row.id sql) ∧ db.CompilesTo row sql := by
  have hmakes : ∀ e : Exchange, Api.Sound e.met.database → e.Remakes Table.customReports
      (fun e id => ∃ sql, e.Checks id sql)
      (fun db row e => ∃ sql, e.Checks row.id sql ∧ db.CompilesTo row sql) := by
    intro e hsound row hrow
    rcases e.keeps hsound row hrow with
      ⟨sql, hchecks, hcompiles⟩ | ⟨hkept, old, hold, hid, htenant, hspec⟩
    · exact .inl ⟨⟨sql, hchecks⟩, sql, hchecks, hcompiles⟩
    · refine .inr ⟨not_exists.mpr hkept, old, hold, hid, ?_⟩
      rintro first ⟨sql, hchecks, hcompiles⟩
      have hleft := e.steps.compilesTo hcompiles
      unfold Database.CompilesTo at hleft ⊢
      rw [hid, htenant, hspec]
      exact ⟨sql, hchecks, hleft⟩
  obtain ⟨before, e, after, hsplit, -, hlater, sql, hchecks, hcompiles⟩ :=
    h.lastMade rfl hmakes hrow
  exact ⟨before, e, after, sql, hsplit, hchecks,
    fun later hmem => not_exists.mp (hlater later hmem), hcompiles⟩

/-- Every stored custom report compiles in the schema of its tenant, to the text that was compiled
for the check of the last exchange that created it or set parts of its specification, and whoever
may see it runs that text. -/
theorem customReports_run_as_checked (h : History settings exchanges db) :
    ∀ row ∈ db.customReports, ∃ before e after sql t spec,
      exchanges = before ++ e :: after ∧ e.Checks row.id sql ∧
      (∀ later ∈ after, ∀ sql, ¬ later.Checks row.id sql) ∧
      db.tenant? row.tenant = some t ∧ row.spec.toSpec = .ok spec ∧
      compile t.schemaName spec = .ok sql ∧
      ∀ (p : Platform) (user : Option Uuid), p.database = db → row.isVisibleTo user = true →
        (Runs.runCustom t.schemaName row.tenant row.id user).run p =
          (Runs.runText row user sql).run p := by
  intro row hrow
  obtain ⟨before, e, after, sql, hsplit, hchecks, hlater, t, spec, htenant, hread, hcompiled⟩ :=
    h.lastChecked hrow
  refine ⟨before, e, after, sql, t, spec, hsplit, hchecks, hlater, htenant, hread, hcompiled, ?_⟩
  rintro p user rfl hvisible
  exact Runs.run_runCustom (h.sound.customReports.find?_of_mem hrow) hvisible hread hcompiled

/-- A report on a table that the schema has is given a filter, and a second filter is refused: the
report is run with the first one. -/
theorem customReports_run_as_checked_of_filters :
    ∃ exchanges db, History (.ofMigrations "migrations") exchanges db ∧
      db.customReports.map (fun row =>
        (row.spec.toSpec >>= compile "tenant_north").toOption) =
        [some ("SELECT tenant_north.invoices.amount AS invoices_amount " ++
          "FROM tenant_north.invoices WHERE tenant_north.invoices.status = 'paid'")] ∧
      ∀ row ∈ db.customReports, ∃ before e after sql, exchanges = before ++ e :: after ∧
        e.Checks row.id sql ∧ (∀ later ∈ after, ∀ sql, ¬ later.Checks row.id sql) ∧
        db.CompilesTo row sql := by
  let tenant := TableName.rowId .tenants 1
  let report := TableName.rowId .customReports 1
  let requests := [.toProvision "North", .toCompose tenant "invoices" "amount",
    .toFilter tenant report "status" "=" (.text "paid"),
    ApiRequest.toFilter tenant report "status" "IN" (.list [])]
  let start : Platform :=
    { Platform.new (.ofMigrations "migrations") ⟨⟨2024, 5, 1⟩, ⟨9, 0, 0, 0⟩, .offset 0⟩ with
      catalog := [⟨"tenant_north", "invoices"⟩] }
  have h : History (.ofMigrations "migrations") (Exchange.inTurn start requests)
      (start.afterAll requests).database := .ofRequests start rfl rfl requests
  refine ⟨_, _, h, by decide +kernel, fun row hrow => ?_⟩
  obtain ⟨before, e, after, sql, t, spec, hsplit, hchecks, hlater, htenant, hread, hcompiled, -⟩ :=
    customReports_run_as_checked h row hrow
  exact ⟨before, e, after, sql, hsplit, hchecks, hlater, t, spec, htenant, hread, hcompiled⟩

end History

end TenantReports
