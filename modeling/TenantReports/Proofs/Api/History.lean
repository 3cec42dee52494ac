import TenantReports.Proofs.Api.Serve
import TenantReports.Settings.Reader

/-!
Histories of requests: what holds of the shared tables after any requests, and what each request
of a history finds.
-/

namespace TenantReports

open Relation (ReflTransGen)
open Table (IsLater)

namespace Api

variable {request : ApiRequest} {past : Database} {p q : Platform}

/-- What every step keeps, the steps of a request keep. -/
structure Follows (start p : Platform) : Prop where
  sound : Sound p.database
  settings : p.settings = start.settings
  attempts : ∀ table, start.database.attempts.count table ≤ p.database.attempts.count table

theorem Steps.follows (h : Steps request p.database p q) (hsound : Sound p.database) :
    Follows p q := by
  induction h with
  | refl => exact ⟨hsound, rfl, fun _ => Nat.le_refl _⟩
  | tail _ hstep ih =>
      obtain ⟨owner, hstep⟩ := hstep
      exact ⟨hstep.sound ih.sound, hstep.settings.trans ih.settings,
        fun table => Nat.le_trans (ih.attempts table) (hstep.attempts_le table)⟩

theorem Steps.now (h : Steps request past p q) : q.now = p.now := by
  induction h with
  | refl => rfl
  | tail _ hstep ih =>
      obtain ⟨owner, hstep⟩ := hstep
      exact hstep.now.trans ih

/-- Where the rows of a table come from that steps leave: a row was met with the same part `f`, or
it is a later one that a step made. -/
theorem Steps.origin {Row β : Type} {t : Table Row} (f : Row → β) {Made : Row → Prop}
    (h : Steps request p.database p q) (hsound : Sound p.database)
    (hcongr : ∀ {row mid : Row}, f row = f mid → Made mid → Made row)
    (hstep : ∀ {owner : Option Uuid} {r r' : Platform}, Steps request p.database p r →
      Step request p.database owner r r' → ∀ row ∈ t.rows r'.database,
        (∃ mid ∈ t.rows r.database, t.id row = t.id mid ∧ f row = f mid) ∨
        t.id row = r.database.nextId t.name ∧ Made row) :
    ∀ row ∈ t.rows q.database, (∃ old ∈ t.rows p.database, t.id row = t.id old ∧ f row = f old) ∨
      IsLater p.database t.name (t.id row) ∧ Made row := by
  induction h with
  | refl => exact fun row hrow => .inl ⟨row, hrow, rfl, rfl⟩
  | @tail r _ hsteps hlast ih =>
      obtain ⟨owner, hlast⟩ := hlast
      intro row hrow
      rcases hstep hsteps hlast row hrow with ⟨mid, hmid, hid, hsame⟩ | ⟨hid, hmade⟩
      · rw [hid, hsame]
        exact (ih mid hmid).imp_right (And.imp_right (hcongr hsame))
      · rw [hid]
        exact .inr ⟨Table.isLater_nextId ((Steps.follows hsteps hsound).attempts t.name), hmade⟩

/-- A definition comes from one that was met and has its template, or the request defines it. -/
theorem Steps.definitions (h : Steps request p.database p q) (hsound : Sound p.database) :
    ∀ row ∈ q.database.definitions,
      (∃ old ∈ p.database.definitions, row.id = old.id ∧ row.queryTemplate = old.queryTemplate) ∨
      IsLater p.database .definitions row.id ∧ Step.Defined request p.settings row := by
  refine Steps.origin (t := .definitions) (·.queryTemplate) h hsound (fun hsame hmade => ?_) ?_
  · unfold Step.Defined at hmade ⊢
    rw [hsame]
    exact hmade
  · intro owner r r' hsteps hstep row hrow
    have hfollows := Steps.follows hsteps hsound
    rcases (hstep.definitions hfollows.sound.definitions).origin hrow with
      ⟨mid, hmid, hid, -, rfl | ⟨-, htemplate⟩⟩ | ⟨hid, -, hdefined⟩
    · exact .inl ⟨row, hmid, hid, rfl⟩
    · exact .inl ⟨mid, hmid, hid, htemplate⟩
    · rw [hfollows.settings] at hdefined
      exact .inr ⟨hid, hdefined⟩

/-- A custom report comes from one that was met and has its joins, or the request creates it. -/
theorem Steps.customReports (h : Steps request p.database p q) (hsound : Sound p.database) :
    ∀ row ∈ q.database.customReports,
      (∃ old ∈ p.database.customReports, row.id = old.id ∧ row.spec.joins = old.spec.joins) ∨
      IsLater p.database .customReports row.id ∧ Step.Created request p.settings row := by
  refine Steps.origin (t := .customReports) (·.spec.joins) h hsound (fun hsame hmade => ?_) ?_
  · unfold Step.Created at hmade ⊢
    rw [hsame]
    exact hmade
  · intro owner r r' hsteps hstep row hrow
    have hfollows := Steps.follows hsteps hsound
    rcases (hstep.customReports hfollows.sound).origin hrow with
      ⟨mid, hmid, hid, -, rfl | ⟨-, -, hjoins, -⟩⟩ | ⟨hid, -, -, hcreated⟩
    · exact .inl ⟨row, hmid, hid, rfl⟩
    · exact .inl ⟨mid, hmid, hid, hjoins⟩
    · rw [hfollows.settings] at hcreated
      exact .inr ⟨hid, hcreated⟩

/-- The next runs of schedules can be found that were created or changed. -/
theorem Steps.timed (h : Steps request p.database p q) (hsound : Sound p.database)
    (htimed : ∀ row ∈ p.database.schedules, row.IsTimed p.settings) :
    ∀ row ∈ q.database.schedules, row.IsTimed p.settings := by
  induction h with
  | refl => exact htimed
  | tail hsteps hstep ih =>
      obtain ⟨owner, hstep⟩ := hstep
      have hfollows := Steps.follows hsteps hsound
      intro row hrow
      rcases (hstep.schedules hfollows.sound).origin hrow with
        ⟨old, hold, -, -, rfl | ⟨-, -, -, hkept, -⟩⟩ | ⟨-, -, -, hnew, -⟩
      · exact ih row hold
      · rw [hfollows.settings] at hkept
        exact hkept (ih old hold)
      · rw [hfollows.settings] at hnew
        exact hnew.isTimed

end Api

/-- A request, and the platform that it met. -/
structure Exchange where
  request : ApiRequest
  met : Platform

namespace Exchange

def left (e : Exchange) : Platform := ((Api.serve e.request).run e.met).2

def answer (e : Exchange) : Except Fault Answer := ((Api.serve e.request).run e.met).1

/-- Whether the role of the request is that of a manager of reports. -/
def IsManaged (e : Exchange) : Prop := e.met.settings.reports.isManager e.request.role = true

theorem steps (e : Exchange) : Api.Steps e.request e.met.database e.met e.left :=
  Api.serve_steps e.request e.met

end Exchange

/-- What an exchange does to a table, some of whose rows it makes anew: of these something holds,
and every other row is one of which it goes on to hold since the exchange that made it. -/
def Exchange.Remakes {Row : Type} (t : Table Row) (Makes : Exchange → Uuid → Prop)
    (Holds : Database → Row → Exchange → Prop) (e : Exchange) : Prop :=
  ∀ row ∈ t.rows e.left.database,
    (Makes e (t.id row) ∧ Holds e.left.database row e) ∨
    ¬ Makes e (t.id row) ∧ ∃ old ∈ t.rows e.met.database, t.id row = t.id old ∧
      ∀ first, Holds e.met.database old first → Holds e.left.database row first

/-- Exchanges, one after another, from empty tables. Each meets the tables that those before it
left; its clock, its connection and everything else that it meets are as they may be. -/
inductive History (settings : Settings) : List Exchange → Database → Prop
  | start : History settings [] .empty
  | next {exchanges : List Exchange} {db : Database} (past : History settings exchanges db)
      (e : Exchange) (met : e.met.database = db) (configured : e.met.settings = settings) :
      History settings (exchanges ++ [e]) e.left.database

namespace History

variable {settings : Settings} {exchanges before after : List Exchange} {db : Database}
  {e : Exchange}

theorem sound_empty : Api.Sound .empty := by
  have hnumbered : ∀ {Row : Type} (t : Table Row), t.rows .empty = [] → t.Numbered .empty := by
    intro Row t h
    refine ⟨?_, ?_⟩
    · rw [h]
      exact List.nodup_nil
    · rw [h]
      exact fun _ hrow => nomatch hrow
  exact ⟨hnumbered _ rfl, hnumbered _ rfl, hnumbered _ rfl, hnumbered _ rfl, hnumbered _ rfl,
    (fun _ hrow => nomatch hrow), (fun _ hrow => nomatch hrow)⟩

theorem sound (h : History settings exchanges db) : Api.Sound db := by
  induction h with
  | start => exact sound_empty
  | next past e met configured ih =>
      subst met
      exact (e.steps.follows ih).sound

theorem timed (h : History settings exchanges db) :
    ∀ row ∈ db.schedules, row.IsTimed settings := by
  induction h with
  | start => exact fun _ hrow => nomatch hrow
  | next past e met configured ih =>
      subst met configured
      exact e.steps.timed past.sound ih

/-- Before an exchange of a history there is a history. -/
theorem split (h : History settings exchanges db) (hsplit : exchanges = before ++ e :: after) :
    History settings before e.met.database ∧ e.met.settings = settings := by
  induction h generalizing after with
  | start => exact absurd hsplit (by simp)
  | next past e' met configured ih =>
      rcases List.eq_nil_or_concat after with rfl | ⟨rest, last, rfl⟩
      · obtain ⟨hbefore, hlast⟩ := List.append_inj' hsplit rfl
        cases hlast
        rw [hbefore, ← met] at past
        exact ⟨past, configured⟩
      · have hlast : before ++ e :: rest.concat last = (before ++ e :: rest) ++ [last] := by simp
        exact ih (List.append_inj' (hsplit.trans hlast) rfl).1

/-- Every stored row was made by an exchange, if an exchange makes those that it does not leave as
they were made. -/
theorem origin {Row : Type} {t : Table Row} {Made : Exchange → Row → Prop}
    (h : History settings exchanges db) (hempty : t.rows .empty = [])
    (hmakes : ∀ e : Exchange, Api.Sound e.met.database → ∀ row ∈ t.rows e.left.database,
      (∃ old ∈ t.rows e.met.database, ∀ first, Made first old → Made first row) ∨ Made e row) :
    ∀ row ∈ t.rows db, ∃ before e after, exchanges = before ++ e :: after ∧ Made e row := by
  induction h with
  | start =>
      rw [hempty]
      exact fun _ hrow => nomatch hrow
  | @next exchanges db past e met configured ih =>
      subst met
      intro row hrow
      rcases hmakes e past.sound row hrow with ⟨old, hold, hkept⟩ | hmade
      · obtain ⟨before, first, after, rfl, hmade⟩ := ih old hold
        exact ⟨before, first, after ++ [e], by simp, hkept first hmade⟩
      · exact ⟨exchanges, e, [], rfl, hmade⟩

/-- Every stored row was made anew by some exchange, and what held of it then still holds. -/
theorem lastMade {Row : Type} {t : Table Row} {Makes : Exchange → Uuid → Prop}
    {Holds : Database → Row → Exchange → Prop} (h : History settings exchanges db)
    (hempty : t.rows .empty = [])
    (hmakes : ∀ e : Exchange, Api.Sound e.met.database → e.Remakes t Makes Holds) {row : Row}
    (hrow : row ∈ t.rows db) :
    ∃ before e after, exchanges = before ++ e :: after ∧ Makes e (t.id row) ∧
      (∀ later ∈ after, ¬ Makes later (t.id row)) ∧ Holds db row e := by
  induction h generalizing row with
  | start =>
      rw [hempty] at hrow
      cases hrow
  | @next exchanges db past e met configured ih =>
      subst met
      rcases hmakes e past.sound row hrow with ⟨hmade, hholds⟩ | ⟨hkept, old, hold, hid, hstays⟩
      · exact ⟨exchanges, e, [], rfl, hmade, fun _ h => (nomatch h), hholds⟩
      · obtain ⟨before, first, after, rfl, hmade, hlater, hholds⟩ := ih hold
        rw [← hid] at hmade hlater
        refine ⟨before, first, after ++ [e], by simp, hmade, fun later hmem => ?_,
          hstays first hholds⟩
        rcases List.mem_append.mp hmem with hmem | hlast
        · exact hlater later hmem
        · rw [List.mem_singleton.mp hlast]
          exact hkept

end History

/-! Requests in turn -/

namespace Exchange

/-- The exchanges of requests that are sent in turn, the first one to `p`. -/
def inTurn (p : Platform) : List ApiRequest → List Exchange
  | [] => []
  | request :: requests => ⟨request, p⟩ :: inTurn (Exchange.mk request p).left requests

theorem request_mem_of_inTurn {p : Platform} {requests : List ApiRequest} {e : Exchange}
    (h : e ∈ inTurn p requests) : e.request ∈ requests := by
  induction requests generalizing p with
  | nil => exact nomatch h
  | cons request requests ih =>
      rcases List.mem_cons.mp h with rfl | hrest
      · exact List.mem_cons_self
      · exact List.mem_cons_of_mem _ (ih hrest)

end Exchange

/-- What requests that are sent in turn leave. -/
def Platform.afterAll (p : Platform) : List ApiRequest → Platform
  | [] => p
  | request :: requests => (Exchange.mk request p).left.afterAll requests

theorem History.inTurn {settings : Settings} {exchanges : List Exchange} {p : Platform}
    (past : History settings exchanges p.database) (configured : p.settings = settings)
    (requests : List ApiRequest) :
    History settings (exchanges ++ Exchange.inTurn p requests) (p.afterAll requests).database := by
  induction requests generalizing exchanges p with
  | nil =>
      rw [Exchange.inTurn, List.append_nil]
      exact past
  | cons request requests ih =>
      let e : Exchange := ⟨request, p⟩
      have hsettings := (e.steps.follows past.sound).settings
      have hnext := ih (past.next e rfl configured) (hsettings.trans configured)
      rw [List.append_assoc] at hnext
      exact hnext

theorem History.ofRequests {settings : Settings} (p : Platform) (first : p.database = .empty)
    (configured : p.settings = settings) (requests : List ApiRequest) :
    History settings (Exchange.inTurn p requests) (p.afterAll requests).database := by
  have hstart : History settings [] p.database := first ▸ .start
  have h := hstart.inTurn configured requests
  rwa [List.nil_append] at h

theorem Platform.afterAll_settings {p : Platform} (hsound : Api.Sound p.database)
    (requests : List ApiRequest) : (p.afterAll requests).settings = p.settings := by
  induction requests generalizing p with
  | nil => rfl
  | cons request requests ih =>
      have hfollows := (Exchange.mk request p).steps.follows hsound
      exact (ih hfollows.sound).trans hfollows.settings

/-- What requests leave that are sent in turn, under a name that nothing evaluates. -/
theorem History.exists_afterAll (settings : Settings) (start : Platform)
    (first : start.database = .empty) (configured : start.settings = settings)
    (requests : List ApiRequest) : ∃ p, p = start.afterAll requests ∧
      History settings (Exchange.inTurn start requests) p.database ∧ p.settings = settings := by
  have hsound : Api.Sound start.database := by
    rw [first]
    exact History.sound_empty
  exact ⟨_, rfl, .ofRequests start first configured requests,
    (Platform.afterAll_settings hsound requests).trans configured⟩

namespace Settings

/-- The settings where only the directory of migrations is given. -/
def ofMigrations (directory : String) : Settings where
  profile := .plain
  environment := .development
  debug := false
  api := ⟨"School Administration Reporting API",
    "Multi-tenant reporting core for school administration", "1.0.0", "0.0.0.0", 8000⟩
  database := ⟨defaultDatabase, 20, 30, 3600, false⟩
  logging := ⟨"INFO", defaultLogFormat, false, "logs/app.log"⟩
  redis := ⟨"localhost", 6379, 0, none, 50⟩
  cache := ⟨"memory", 300, true⟩
  storage := ⟨"local", "exports", "/exports", none, none⟩
  reports := ⟨"UTC", 10, 30, 7, some directory, ["admin", "report_manager"]⟩

theorem load_ofMigrations (directory : String) :
    load .plain [(.text "tenant_migrations_dir", .text directory)] [] =
      .ok (ofMigrations directory) := rfl

end Settings

/-- A platform that no request has met. -/
def Platform.new (settings : Settings) (now : DateTime) : Platform :=
  { settings, now, database := .empty, catalog := [], cache := .memory .empty
    store := some (.empty LocalStore.defaultUrl), connection := .fresh .none, replies := []
    lookups := 0 }

/-- A platform where the only table of a schema is that of its invoices. -/
def Platform.invoicesOnly : Platform :=
  { Platform.new (.ofMigrations "migrations") ⟨⟨2024, 5, 1⟩, ⟨9, 0, 0, 0⟩, .offset 0⟩ with
    catalog := [⟨"tenant_north", "invoices"⟩] }

namespace Platform

/-- The platform at another time. -/
def atTime (p : Platform) (now : DateTime) : Platform := { p with now }

@[simp] theorem database_atTime (p : Platform) (now : DateTime) :
    (p.atTime now).database = p.database := rfl

@[simp] theorem settings_atTime (p : Platform) (now : DateTime) :
    (p.atTime now).settings = p.settings := rfl

end Platform

namespace ApiRequest

/-! A few requests. -/

def toProvision (name : String) : ApiRequest :=
  { method := "POST", path := "/api/tenants/", query := [], headers := []
    body := some (.record [("name", .text name)]) }

def toProvisionAs (name schemaName : String) : ApiRequest :=
  { method := "POST", path := "/api/tenants/", query := [], headers := []
    body := some (.record [("name", .text name), ("schema_name", .text schemaName)]) }

/-- An administrator's definition for all tenants. -/
def toDefine (template : String) : ApiRequest :=
  { method := "POST", path := "/api/reports/definitions", query := []
    headers := [("x-user-role", "admin")]
    body := some (.record
      [("name", .text "Report"), ("report_type", .text "fees"),
        ("data_source", .text "invoices"), ("query_template", .text template)]) }

/-- An administrator's definition for a tenant, which administrators alone may run. -/
def toRestrict (tenant : Uuid) (template : String) : ApiRequest :=
  { method := "POST", path := "/api/reports/definitions", query := []
    headers := [("x-user-role", "admin")]
    body := some (.record
      [("tenant_id", .text tenant.toText), ("name", .text "Report"), ("report_type", .text "fees"),
        ("data_source", .text "invoices"), ("query_template", .text template),
        ("role_permissions", .list [.text "admin"])]) }

/-- A schedule of a definition, for every day at nine. -/
def toSchedule (tenant definition : Uuid) : ApiRequest :=
  { method := "POST", path := "/api/scheduled-reports/", query := []
    headers := [("x-tenant-id", tenant.toText)]
    body := some (.record
      [("report_definition_id", .text definition.toText), ("name", .text "Report"),
        ("schedule_type", .text "daily")]) }

/-- Another type and another configuration for a schedule. -/
def toReschedule (tenant schedule : Uuid) (type : String) (config : Value) : ApiRequest :=
  { method := "PATCH", path := "/api/scheduled-reports/" ++ schedule.toText, query := []
    headers := [("x-tenant-id", tenant.toText)]
    body := some (.record [("schedule_type", .text type), ("schedule_config", config)]) }

/-- Changes of a schedule. -/
def toPatch (tenant schedule : Uuid) (changes : List (String × Value)) : ApiRequest :=
  { method := "PATCH", path := "/api/scheduled-reports/" ++ schedule.toText, query := []
    headers := [("x-tenant-id", tenant.toText)], body := some (.record changes) }

def toListSchedules (tenant : Uuid) : ApiRequest :=
  { method := "GET", path := "/api/scheduled-reports/", query := []
    headers := [("x-tenant-id", tenant.toText)], body := none }

/-- A custom report of one column of a table. -/
def toCompose (tenant : Uuid) (table column : String) : ApiRequest :=
  { method := "POST", path := "/api/custom-reports/", query := []
    headers := [("x-tenant-id", tenant.toText)]
    body := some (.record
      [("name", .text "Report"), ("data_sources", .list [.text table]),
        ("selected_columns", .list [.record [("table", .text table), ("column", .text column)]])]) }

def toListReports (tenant : Uuid) : ApiRequest :=
  { method := "GET", path := "/api/custom-reports/", query := []
    headers := [("x-tenant-id", tenant.toText)], body := none }

/-- Another filter for a custom report. -/
def toFilter (tenant report : Uuid) (column operator : String) (v : Value) : ApiRequest :=
  { method := "PATCH", path := "/api/custom-reports/" ++ report.toText, query := []
    headers := [("x-tenant-id", tenant.toText)]
    body := some (.record
      [("filters", .list [.record
        [("column", .text column), ("operator", .text operator), ("value", v)]])]) }

/-- Changes of a custom report. -/
def toRevise (tenant report : Uuid) (changes : List (String × Value)) : ApiRequest :=
  { method := "PATCH", path := "/api/custom-reports/" ++ report.toText, query := []
    headers := [("x-tenant-id", tenant.toText)], body := some (.record changes) }

def toRun (tenant definition : Uuid) : ApiRequest :=
  { method := "POST", path := "/api/reports/definitions/" ++ definition.toText ++ "/execute"
    query := [], headers := [("x-tenant-id", tenant.toText)], body := some (.record []) }

/-- A run whose result is exported. -/
def toExport (tenant definition : Uuid) (format : String) : ApiRequest :=
  { toRun tenant definition with body := some (.record [("export_format", .text format)]) }

def toTrend (tenant definition : Uuid) : ApiRequest :=
  { method := "GET", path := "/api/reports/definitions/" ++ definition.toText ++ "/trends"
    query := [], headers := [("x-tenant-id", tenant.toText)], body := none }

/-- The same request by someone with a role. -/
def byRole (request : ApiRequest) (role : String) : ApiRequest :=
  { request with headers := ("x-user-role", role) :: request.headers }

/-- The same request by a user. -/
def byUser (request : ApiRequest) (user : Uuid) : ApiRequest :=
  { request with headers := ("x-user-id", user.toText) :: request.headers }

/-- A batch of the schedules that are due. -/
def toProcess : ApiRequest :=
  { method := "POST", path := "/api/scheduled-reports/process", query := [], headers := []
    body := none }

theorem asks_toProcess : toProcess.Asks .processSchedules := ⟨"", by decide +kernel⟩

end ApiRequest

end TenantReports
