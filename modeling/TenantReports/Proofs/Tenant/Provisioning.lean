import TenantReports.Proofs.Api.Acting
import TenantReports.Proofs.Platform.Uninterrupted
import TenantReports.Proofs.Schedule.Readable
import TenantReports.Proofs.Tenant.Preparation
import TenantReports.Proofs.Tenant.Schemas
import TenantReports.Proofs.Tenant.SchoolTables

/-!
The status of tenants: what a request that provisions one leaves in the directory, and what the
directory tells of its tenants after any such requests.
-/

namespace TenantReports

open Action (run_bind_of_ok run_bind_of_error)

/-! What is asked for -/

namespace TenantDraft

/-- The name of the schema for a new tenant. -/
def schemaFor (draft : TenantDraft) : String :=
  Directory.schemaNameFor draft.name draft.schemaName

/-- The row of a new tenant while its schema is being prepared. -/
def pending (draft : TenantDraft) (p : Platform) : Tenant :=
  { id := p.database.nextId .tenants, name := draft.name, domain := draft.domain
    schemaName := draft.schemaFor, status := .pending, preparationError := none, createdAt := p.now }

/-- The platform once that row is stored. -/
def entered (draft : TenantDraft) (p : Platform) : Platform :=
  p.onDatabase fun db => (db.attempt .tenants).addTenant (draft.pending p)

/-- How the preparation of the schema ends. -/
def preparation (draft : TenantDraft) (p : Platform) : Except Fault Unit :=
  ((Directory.prepare draft.schemaFor).run (draft.entered p)).1

/-- Whether nothing stands against a new tenant: its schema has a valid name, and neither this name
nor the domain is in use. -/
structure MayEnter (draft : TenantDraft) (db : Database) : Prop where
  valid : Sql.isIdentifier draft.schemaFor = true
  schema : ∀ other ∈ db.tenants, other.schemaName ≠ draft.schemaFor
  domain : ∀ other ∈ db.tenants, draft.domain ≠ none → other.domain ≠ draft.domain

end TenantDraft

theorem TenantDraft.MayEnter.of_empty {draft : TenantDraft}
    (valid : Sql.isIdentifier draft.schemaFor = true) : draft.MayEnter .empty :=
  ⟨valid, fun _ hother => (nomatch hother), fun _ hother => (nomatch hother)⟩

namespace Directory

variable {draft : TenantDraft} {p : Platform}

theorem id_ne_pending (hnumbered : Table.tenants.Numbered p.database) (draft : TenantDraft) :
    ∀ other ∈ p.database.tenants, other.id ≠ (draft.pending p).id := fun _ hother =>
  hnumbered.id_ne_of_isLater (Table.isLater_nextId (Nat.le_refl _)) hother

theorem acceptsTenant_pending (hnumbered : Table.tenants.Numbered p.database)
    (hvalid : Sql.isIdentifier draft.schemaFor = true) :
    (p.database.attempt .tenants).acceptsTenant (draft.pending p) = true ↔
      draft.MayEnter p.database := by
  have hother : ∀ other ∈ p.database.tenants,
      (other.id == (draft.pending p).id || (other.schemaName != (draft.pending p).schemaName &&
        !(other.domain.isSome && other.domain == (draft.pending p).domain))) = true ↔
      other.schemaName ≠ draft.schemaFor ∧ (draft.domain ≠ none → other.domain ≠ draft.domain) := by
    intro other hmem
    have hid := beq_eq_false_iff_ne.mpr (id_ne_pending hnumbered draft other hmem)
    rw [hid, Bool.false_or, Bool.and_eq_true, bne_iff_ne]
    refine and_congr_right fun _ => ?_
    change (!(other.domain.isSome && other.domain == draft.domain)) = true ↔ _
    cases draft.domain <;> cases other.domain <;> simp
  refine List.all_eq_true.trans ?_
  constructor
  · exact fun h => ⟨hvalid, fun other hmem => ((hother other hmem).mp (h other hmem)).1,
      fun other hmem => ((hother other hmem).mp (h other hmem)).2⟩
  · exact fun h other hmem => (hother other hmem).mpr ⟨h.schema other hmem, h.domain other hmem⟩

/-- A new tenant that is given its status stands behind all others, which stay as they were. -/
theorem tenants_settled (hnumbered : Table.tenants.Numbered p.database) (f : Tenant → Tenant)
    {q : Platform} (hsame : (draft.entered p).SameTables q) :
    (q.onDatabase (·.updateTenant (draft.pending p).id f)).database.tenants =
      p.database.tenants ++ [f (draft.pending p)] := by
  have hold : p.database.tenants.map
      (fun t => if t.id = (draft.pending p).id then f t else t) = p.database.tenants :=
    (List.map_congr_left fun other hmem => if_neg (id_ne_pending hnumbered draft other hmem)).trans
      (List.map_id _)
  have hlast : [draft.pending p].map (fun t => if t.id = (draft.pending p).id then f t else t) =
      [f (draft.pending p)] := congrArg ([·]) (if_pos rfl)
  unfold Platform.onDatabase Database.updateTenant
  rw [hsame.database]
  exact List.map_append.trans (congrArg₂ (· ++ ·) hold hlast)

/-- What is done for a tenant whose row is stored. -/
def prepareAndSettle (tenant : Tenant) : Work Tenant := do
  match ← Action.attemptUncancelled (prepare tenant.schemaName) with
  | .ok () => settle tenant .ready none
  | .error fault =>
      let _ ← settle tenant .failed (some fault.message)
      throw fault

theorem run_provision (hvalid : Sql.isIdentifier draft.schemaFor = true) (p : Platform) :
    (provision draft.name (some draft.schemaFor) draft.domain).run p =
      if (p.database.attempt .tenants).acceptsTenant (draft.pending p) then
        (prepareAndSettle (draft.pending p)).run (draft.entered p)
      else (.error .integrity, p.onDatabase (·.attempt .tenants)) := by
  have hname : schemaNameFor draft.name (some draft.schemaFor) = draft.schemaFor :=
    schemaNameFor_some_self _ _
  have hrequired : (Action.ofResult (Sql.requireIdentifier draft.schemaFor) : Work Unit).run p =
      (.ok (), p) := by
    rw [Action.run_ofResult, Sql.requireIdentifier_eq_ok.mpr hvalid]
  have hclock : Work.now.run p = (.ok p.now, p) := rfl
  have hinsert : (Work.insertTenant fun id => { draft.pending p with id }).run p =
      if (p.database.attempt .tenants).acceptsTenant (draft.pending p) then
        (.ok (draft.pending p), draft.entered p)
      else (.error .integrity, p.onDatabase (·.attempt .tenants)) := Work.run_insert _ _ _ _ p
  unfold provision
  rw [hname]
  dsimp only
  rw [run_bind_of_ok hrequired, run_bind_of_ok hclock]
  split
  · next haccepts =>
      rw [if_pos haccepts] at hinsert
      exact run_bind_of_ok hinsert
  · next hrefuses =>
      rw [if_neg hrefuses] at hinsert
      exact run_bind_of_error hinsert

/-- The row of a tenant tells how the preparation of its schema ended. -/
theorem run_prepareAndSettle (hvalid : Sql.isIdentifier draft.schemaFor = true) (p : Platform) :
    ∃ q, (draft.entered p).SameTables q ∧
      ((draft.preparation p = .ok () ∧ tablesOf p.settings draft.schemaFor ⊆ q.catalog ∧
        (prepareAndSettle (draft.pending p)).run (draft.entered p) =
          (.ok { draft.pending p with status := .ready, preparationError := none },
            q.onDatabase (·.updateTenant (draft.pending p).id fun t =>
              { t with status := .ready, preparationError := none }))) ∨
      ∃ fault, draft.preparation p = .error fault ∧ fault.IsOfConnection ∧
        p.connection.plan ≠ .none ∧
        (prepareAndSettle (draft.pending p)).run (draft.entered p) =
          (.error fault, q.onDatabase (·.updateTenant (draft.pending p).id fun t =>
            { t with status := .failed, preparationError := some fault.message }))) := by
  have hgrows := (enlarges_prepare hvalid (draft.entered p)).answers
  obtain ⟨-, hends⟩ := prepare_obeys hvalid p.connection.plan (draft.entered p) rfl
  have haside := isAside_prepare draft.schemaFor (draft.entered p)
  unfold prepareAndSettle TenantDraft.preparation
  rcases hrun : (prepare draft.schemaFor).run (draft.entered p) with ⟨outcome, q⟩
  rw [hrun] at hgrows hends haside
  refine ⟨q, haside, ?_⟩
  cases outcome with
  | ok =>
      refine .inl ⟨rfl, hgrows () rfl, ?_⟩
      exact run_bind_of_ok (Action.run_attemptUncancelled hrun fun h => nomatch h)
  | error fault =>
      obtain ⟨hfault, hplan⟩ := hends
      refine .inr ⟨fault, rfl, hfault, hplan, ?_⟩
      refine run_bind_of_ok (Action.run_attemptUncancelled hrun ?_)
      rintro ⟨⟩
      cases hfault

end Directory

/-- Work that no schema scopes ends as it would on a connection that is borrowed already. -/
theorem Action.outcome_unscoped {α : Type} (action : Work α) (p : Platform) :
    ((unscoped action).run p).1 = (action.run (borrowed p)).1 := by
  have hborrow : (updateConnection Connection.borrow : Work Unit).run p = (.ok (), borrowed p) := rfl
  obtain ⟨q, hrollback, -⟩ :=
    ActsAs.rollbackIfActive.run_eq IsAside.rollbackIfActive (action.run (borrowed p)).2
  have hrelease : (updateConnection Connection.release : Work Unit).run q =
      (.ok (), ((updateConnection Connection.release : Work Unit).run q).2) := rfl
  rw [run_rollbackIfActive] at hrollback
  unfold unscoped
  rw [run_bind_of_ok hborrow, run_bind_of_ok (run_attempt action _), run_bind_of_ok hrollback,
    run_bind_of_ok hrelease, run_ofResult]

/-- Nothing is prepared where the schema cannot be created. -/
theorem Directory.prepare_of_failure {schemaName : String} {p : Platform} {failure : Failure}
    (hfails : p.connection.plan.failure? (p.connection.statements + 1)
      ("CREATE SCHEMA IF NOT EXISTS " ++ schemaName) = some failure) :
    ((prepare schemaName).run p).1 = .error failure.fault := by
  have hsend : ((Action.borrowed p).connection.send
      (.statement ("CREATE SCHEMA IF NOT EXISTS " ++ schemaName))).1 = .error failure.fault := by
    rcases Connection.send_cases (.statement ("CREATE SCHEMA IF NOT EXISTS " ++ schemaName))
      (Action.borrowed p).connection with ⟨failure', hfails', heq⟩ | ⟨hnone, -⟩
    · rw [heq, Option.some.inj (hfails.symm.trans hfails')]
    · cases hfails.symm.trans hnone
  have hexecute := Action.run_onConnection
    (Connection.send (.statement ("CREATE SCHEMA IF NOT EXISTS " ++ schemaName)))
    (Action.borrowed p)
  have hcreate : ((createSchema schemaName).run p).1 = .error failure.fault :=
    (Action.outcome_unscoped _ p).trans
      (congrArg Prod.fst (run_bind_of_error (hexecute.trans (Prod.ext hsend rfl))))
  exact congrArg Prod.fst (run_bind_of_error (Prod.ext hcreate rfl))

/-! The catalog -/

section Catalog

open Action (Enlarges)
open Platform (Grows)

variable {p : Platform}

theorem enlarges_settle (t : Tenant) (status : TenantStatus) (error : Option String) :
    Enlarges (Directory.settle t status error) p fun _ _ => True := by
  have hupdate : Enlarges (Work.updateDatabase (·.updateTenant t.id fun t =>
      { t with status, preparationError := error })) p fun _ _ => True :=
    .step (Grows.refl _) trivial
  exact hupdate.bind fun _ _ _ _ => .answer trivial

theorem enlarges_provision (draft : TenantDraft) :
    Enlarges (Directory.provision draft.name (some draft.schemaFor) draft.domain) p
      fun _ _ => True := by
  have hname : Directory.schemaNameFor draft.name (some draft.schemaFor) = draft.schemaFor :=
    Directory.schemaNameFor_some_self _ _
  unfold Directory.provision
  rw [hname]
  refine .pass fun _ hrequired => .read (a := p.now) rfl ?_
  have hvalid := Sql.requireIdentifier_eq_ok.mp hrequired
  refine (Work.insert_meets (Grows.refl _) (Grows.refl _)).bind fun t q _ _ => ?_
  refine (Directory.enlarges_prepare hvalid q).attemptUncancelled.bind fun outcome r _ _ => ?_
  split
  · exact enlarges_settle _ _ _
  · exact (enlarges_settle _ _ _).bind fun _ _ _ _ => .fail

/-- A request for a new tenant takes no table out of the catalog. -/
theorem Exchange.grows {e : Exchange} (asks : e.request.Asks .provisionTenant) :
    e.met.Grows e.left := by
  obtain ⟨argument, htarget⟩ := asks
  have hsteps : Enlarges (Api.provisionTenant e.request) e.met fun _ _ => True := by
    refine Api.serve_meets Guard.reads_noGuard fun draft _ _ => ?_
    have hfound : Action.Reads (Directory.bySchema? (.text draft.schemaFor)) :=
      (Action.Reads.ofResult _).bind fun _ _ => rfl
    refine (hfound.meets e.met).bind fun found q _ _ => ?_
    split
    · exact Action.Meets.fail.bind (P := fun _ _ => False) fun _ _ _ h => h.elim
    · exact (Guard.refusing_meets (enlarges_provision draft)).bind fun _ _ _ _ => .answer trivial
  have hleft : e.left = ((Api.provisionTenant e.request).run e.met).2 := left_of_target htarget
  rw [hleft]
  exact Platform.grows_of_steps hsteps.steps

end Catalog

/-! How requests end -/

theorem Api.status_ne_created_of_error {request : ApiRequest} {fault : Fault} {answer : Answer}
    (h : answered request (.error fault) = .ok answer) : answer.status ≠ 201 := by
  cases fault with
  | refused refusal =>
      cases h
      rw [status_sentTo]
      cases refusal <;> simp [Refusal.answer, Refusal.status]
  | _ => cases h

namespace Exchange

variable {e : Exchange} {draft : TenantDraft}

/-- How a request for a new tenant ends. -/
inductive ProvisionEnds (e : Exchange) : Prop
  /-- Something stands against the tenant: the directory stays as it was. -/
  | refused
      (barred : ∀ draft, e.request.readBody TenantDraft.read = .valid draft →
        ¬ draft.MayEnter e.met.database)
      (kept : e.left.database.tenants = e.met.database.tenants)
      (unmade : ∀ answer, e.answer = .ok answer → answer.status ≠ 201)
  /-- The schema is prepared: the tenant is ready and shown, and its tables are in the catalog. -/
  | ready {draft : TenantDraft} {row : Tenant}
      (written : e.request.readBody TenantDraft.read = .valid draft)
      (enters : draft.MayEnter e.met.database) (prepared : draft.preparation e.met = .ok ())
      (isReady : row = { draft.pending e.met with status := .ready, preparationError := none })
      (entered : e.left.database.tenants = e.met.database.tenants ++ [row])
      (tables : ∀ table ∈ Directory.tablesOf e.met.settings row.schemaName,
        e.left.hasTable table = true)
      (answered : e.answer =
        .ok ((Answer.created (Api.shownTenant row)).sentTo e.request.method))
  /-- The schema cannot be prepared, which a failure on the connection is the cause of: the tenant
  is failed and tells the failure. -/
  | failed {draft : TenantDraft} {row : Tenant} {fault : Fault}
      (written : e.request.readBody TenantDraft.read = .valid draft)
      (enters : draft.MayEnter e.met.database) (fails : draft.preparation e.met = .error fault)
      (cause : fault.IsOfConnection ∧ e.met.connection.plan ≠ .none)
      (isFailed : row =
        { draft.pending e.met with status := .failed, preparationError := some fault.message })
      (entered : e.left.database.tenants = e.met.database.tenants ++ [row])
      (unmade : ∀ answer, e.answer = .ok answer → answer.status ≠ 201)

theorem provisionEnds_of_error {argument : String} {fault : Fault} {q : Platform}
    (htarget : Route.targetOf e.request.method e.request.path = .endpoint .provisionTenant argument)
    (hrun : (Api.provisionTenant e.request).run e.met = (.error fault, q))
    (hkept : q.database.tenants = e.met.database.tenants)
    (hbarred : ∀ draft, e.request.readBody TenantDraft.read = .valid draft →
      ¬ draft.MayEnter e.met.database) : e.ProvisionEnds := by
  have hleft : e.left = ((Api.provisionTenant e.request).run e.met).2 := left_of_target htarget
  have hanswer : e.answer = Api.answered e.request ((Api.provisionTenant e.request).run e.met).1 :=
    answer_of_target htarget
  rw [hrun] at hleft hanswer
  refine .refused hbarred (by rw [hleft]; exact hkept) fun answer hok => ?_
  exact Api.status_ne_created_of_error (hanswer.symm.trans hok)

theorem run_provisionTenant (hwritten : e.request.readBody TenantDraft.read = .valid draft) :
    (Api.provisionTenant e.request).run e.met =
      (do
        if (← Directory.bySchema? (.text draft.schemaFor)).isSome then Guard.refuse .schemaInUse
        let tenant ← Guard.refusing (Guard.firstOf [Guard.inputRefusal?, Api.provisionRefusal?])
          (Directory.provision draft.name (some draft.schemaFor) draft.domain)
        return .created (Api.shownTenant tenant) : Work Answer).run e.met := by
  have hpassed : Guard.noGuard.run e.met = (.ok (), e.met) := rfl
  unfold Api.provisionTenant
  rw [Guard.run_serve hpassed hwritten]
  rfl

theorem run_bySchema? (hvalid : Sql.isIdentifier draft.schemaFor = true) :
    (Directory.bySchema? (.text draft.schemaFor)).run e.met =
      (.ok (e.met.database.tenants.find? (·.schemaName == draft.schemaFor)), e.met) := by
  unfold Directory.bySchema?
  rw [Sql.identifierOf_text hvalid, run_bind_of_ok (Action.run_ofResult _ _)]
  rfl

section Written

variable {argument : String}
  (htarget : Route.targetOf e.request.method e.request.path = .endpoint .provisionTenant argument)
  (hwritten : e.request.readBody TenantDraft.read = .valid draft)
include hwritten

theorem barred_of_written (hbarred : ¬ draft.MayEnter e.met.database) :
    ∀ draft, e.request.readBody TenantDraft.read = .valid draft →
      ¬ draft.MayEnter e.met.database := by
  intro other hother
  cases hwritten.symm.trans hother
  exact hbarred

/-- The name of a schema is looked up before anything is provisioned. -/
theorem run_provisionTenant_of_free (hvalid : Sql.isIdentifier draft.schemaFor = true)
    (hfree : ∀ other ∈ e.met.database.tenants, other.schemaName ≠ draft.schemaFor) :
    (Api.provisionTenant e.request).run e.met =
      (do
        let tenant ← Guard.refusing (Guard.firstOf [Guard.inputRefusal?, Api.provisionRefusal?])
          (Directory.provision draft.name (some draft.schemaFor) draft.domain)
        return .created (Api.shownTenant tenant) : Work Answer).run e.met := by
  have hnone : (e.met.database.tenants.find? (·.schemaName == draft.schemaFor)).isSome ≠ true := by
    intro hsome
    obtain ⟨other, hmem, heq⟩ := List.find?_isSome.mp hsome
    exact hfree other hmem (eq_of_beq heq)
  refine (run_provisionTenant hwritten).trans ((run_bind_of_ok (run_bySchema? hvalid)).trans ?_)
  rw [if_neg hnone]

include htarget

theorem provisionEnds_of_invalid_name (hinvalid : ¬ Sql.isIdentifier draft.schemaFor = true) :
    e.ProvisionEnds := by
  obtain ⟨-, hidentifier⟩ := (Sql.identifierOf_cases (.text draft.schemaFor)).resolve_left
    fun ⟨_, hname, hvalid, _⟩ => hinvalid (by cases hname; exact hvalid)
  have hfound : (Directory.bySchema? (.text draft.schemaFor)).run e.met =
      (.error (.invalidIdentifier (.text draft.schemaFor)), e.met) := by
    unfold Directory.bySchema?
    rw [hidentifier]
    exact run_bind_of_error (Action.run_ofResult _ _)
  have hrun := (run_provisionTenant hwritten).trans (run_bind_of_error hfound)
  exact provisionEnds_of_error htarget hrun rfl
    (barred_of_written hwritten fun henters => hinvalid henters.valid)

theorem provisionEnds_of_used_schema (hvalid : Sql.isIdentifier draft.schemaFor = true)
    (hused : ∃ other ∈ e.met.database.tenants, other.schemaName = draft.schemaFor) :
    e.ProvisionEnds := by
  obtain ⟨other, hmem, hname⟩ := hused
  have hserved := (run_provisionTenant hwritten).trans (run_bind_of_ok (run_bySchema? hvalid))
  have hsome : (e.met.database.tenants.find? (·.schemaName == draft.schemaFor)).isSome = true :=
    List.find?_isSome.mpr ⟨other, hmem, beq_iff_eq.mpr hname⟩
  rw [if_pos hsome] at hserved
  exact provisionEnds_of_error htarget hserved rfl
    (barred_of_written hwritten fun henters => henters.schema other hmem hname)

/-- A row that is stored is left with the status by which the preparation of its schema ended. -/
theorem provisionEnds_of_enters (hnumbered : Table.tenants.Numbered e.met.database)
    (henters : draft.MayEnter e.met.database) : e.ProvisionEnds := by
  have hvalid := henters.valid
  have hserved := run_provisionTenant_of_free hwritten hvalid henters.schema
  have hprovision := Directory.run_provision hvalid e.met
  rw [if_pos ((Directory.acceptsTenant_pending hnumbered hvalid).mpr henters)] at hprovision
  have hleft : e.left = ((Api.provisionTenant e.request).run e.met).2 := left_of_target htarget
  have hanswer : e.answer = Api.answered e.request ((Api.provisionTenant e.request).run e.met).1 :=
    answer_of_target htarget
  obtain ⟨q, hsame, ⟨hprepared, htables, hrun⟩ | ⟨fault, hfails, hfault, hplan, hrun⟩⟩ :=
    Directory.run_prepareAndSettle hvalid e.met
  · rw [hrun] at hprovision
    rw [hserved, run_bind_of_ok (Guard.run_refusing_of_ok hprovision)] at hleft hanswer
    refine .ready hwritten henters hprepared rfl ?_ (fun table htable => ?_) hanswer
    · rw [hleft]
      exact Directory.tenants_settled hnumbered _ hsame
    · rw [hleft]
      exact Platform.hasTable_iff.mpr (htables htable)
  · rw [hrun] at hprovision
    rw [hserved, run_bind_of_error (Guard.run_refusing_of_error hprovision)] at hleft hanswer
    refine .failed hwritten henters hfails ⟨hfault, hplan⟩ rfl ?_ fun answer hok => ?_
    · rw [hleft]
      exact Directory.tenants_settled hnumbered _ hsame
    · exact Api.status_ne_created_of_error (hanswer.symm.trans hok)

theorem provisionEnds_of_valid (hnumbered : Table.tenants.Numbered e.met.database) :
    e.ProvisionEnds := by
  by_cases hvalid : Sql.isIdentifier draft.schemaFor = true
  case neg => exact provisionEnds_of_invalid_name htarget hwritten hvalid
  by_cases hused : ∃ other ∈ e.met.database.tenants, other.schemaName = draft.schemaFor
  case pos => exact provisionEnds_of_used_schema htarget hwritten hvalid hused
  by_cases henters : draft.MayEnter e.met.database
  case pos => exact provisionEnds_of_enters htarget hwritten hnumbered henters
  -- The name of the schema is free, so that only the insertion refuses the domain.
  have hfree : ∀ other ∈ e.met.database.tenants, other.schemaName ≠ draft.schemaFor :=
    fun other hmem hname => hused ⟨other, hmem, hname⟩
  have hprovision := Directory.run_provision hvalid e.met
  rw [if_neg (mt (Directory.acceptsTenant_pending hnumbered hvalid).mp henters)] at hprovision
  have hserved := (run_provisionTenant_of_free hwritten hvalid hfree).trans
    (run_bind_of_error (Guard.run_refusing_of_error hprovision))
  exact provisionEnds_of_error htarget hserved rfl (barred_of_written hwritten henters)

end Written

/-- Every request for a new tenant is refused, or leaves exactly one row more, which tells whether
the schema is prepared. -/
theorem provisionEnds (asks : e.request.Asks .provisionTenant)
    (hnumbered : Table.tenants.Numbered e.met.database) : e.ProvisionEnds := by
  obtain ⟨argument, htarget⟩ := asks
  cases hwritten : e.request.readBody TenantDraft.read with
  | valid draft => exact provisionEnds_of_valid htarget hwritten hnumbered
  | invalid issues =>
      have hrun : (Api.provisionTenant e.request).run e.met =
          (.error (.refused (.unreadable issues)), e.met) := by
        unfold Api.provisionTenant
        rw [hwritten]
        rfl
      refine provisionEnds_of_error htarget hrun rfl fun draft hvalid => ?_
      rw [hwritten] at hvalid
      cases hvalid

namespace ProvisionEnds

theorem kept_of_barred (h : e.ProvisionEnds)
    (written : e.request.readBody TenantDraft.read = .valid draft)
    (barred : ¬ draft.MayEnter e.met.database) :
    e.left.database.tenants = e.met.database.tenants := by
  cases h with
  | refused _ kept _ => exact kept
  | ready written' enters =>
      cases written.symm.trans written'
      exact absurd enters barred
  | failed written' enters =>
      cases written.symm.trans written'
      exact absurd enters barred

/-- Where nothing fails, a tenant is ready that nothing stands against. -/
theorem ready_of_enters (h : e.ProvisionEnds)
    (written : e.request.readBody TenantDraft.read = .valid draft)
    (enters : draft.MayEnter e.met.database) (planned : e.met.connection.plan = .none) :
    (∃ answer, e.answer = .ok answer ∧ answer.status = 201) ∧
      e.left.database.tenants = e.met.database.tenants ++
        [{ draft.pending e.met with status := .ready, preparationError := none }] := by
  cases h with
  | refused barred _ _ => exact absurd enters (barred draft written)
  | ready written' _ _ isReady entered _ answered =>
      cases written.symm.trans written'
      exact ⟨⟨_, answered, Api.status_sentTo _ _⟩, isReady ▸ entered⟩
  | failed _ _ _ cause => exact absurd planned cause.2

theorem failed_of_enters (h : e.ProvisionEnds)
    (written : e.request.readBody TenantDraft.read = .valid draft)
    (enters : draft.MayEnter e.met.database) {fault : Fault}
    (fails : draft.preparation e.met = .error fault) :
    e.left.database.tenants = e.met.database.tenants ++
      [{ draft.pending e.met with status := .failed, preparationError := some fault.message }] := by
  cases h with
  | refused barred _ _ => exact absurd enters (barred draft written)
  | ready written' _ prepared =>
      cases written.symm.trans written'
      cases fails.symm.trans prepared
  | failed written' _ fails' _ isFailed entered =>
      cases written.symm.trans written'
      cases fails.symm.trans fails'
      exact isFailed ▸ entered

end ProvisionEnds

end Exchange

/-! Requests in turn -/

/-- Requests for new tenants, one after another, from an empty directory. Each meets the tables and
the catalog that those before it left; its clock, its connection and everything else that it meets
are as they may be. -/
inductive Provisionings (settings : Settings) : List Exchange → Database → List TenantTable → Prop
  | start (catalog : List TenantTable) : Provisionings settings [] .empty catalog
  | next {exchanges : List Exchange} {db : Database} {catalog : List TenantTable}
      (past : Provisionings settings exchanges db catalog) (e : Exchange)
      (asks : e.request.Asks .provisionTenant) (met : e.met.database = db)
      (found : e.met.catalog = catalog) (configured : e.met.settings = settings) :
      Provisionings settings (exchanges ++ [e]) e.left.database e.left.catalog

/-- Whether a tenant is told to be what its request left it: ready, with all tables of its schema,
or failed by what failed then. -/
inductive Tenant.IsTruthful (settings : Settings) (exchanges : List Exchange)
    (catalog : List TenantTable) (row : Tenant) : Prop
  | ready (isReady : row.status = .ready) (noError : row.preparationError = none)
      (tables : Directory.tablesOf settings row.schemaName ⊆ catalog)
  | failed {e : Exchange} {draft : TenantDraft} {fault : Fault} (mem : e ∈ exchanges)
      (written : e.request.readBody TenantDraft.read = .valid draft)
      (isNew : row.id = (draft.pending e.met).id) (fails : draft.preparation e.met = .error fault)
      (isFailed : row.status = .failed) (error : row.preparationError = some fault.message)

namespace Directory

variable {p : Platform} {id : Uuid} {schemaName : String}

/-- The directory resolves the schemas of tenants that are ready. -/
theorem resolveSchema_iff (hapart : p.database.HasSchemasApart) :
    ((resolveSchema id).run p).1 = .ok schemaName ↔
      ∃ row ∈ p.database.tenants, row.id = id ∧ row.status = .ready ∧
        row.schemaName = schemaName := by
  constructor
  · intro hresolved
    obtain ⟨-, ⟨row, hfound, hready, hname⟩, -⟩ :=
      (resolveSchema_meets (S := fun _ _ => True) id).answers schemaName hresolved
    exact ⟨row, List.mem_of_find?_eq_some hfound, eq_of_beq (List.find?_some hfound :), hready,
      hname⟩
  · rintro ⟨row, hrow, rfl, hready, rfl⟩
    have hfound : p.database.tenant? row.id = some row := hapart.numbered.find?_of_mem hrow
    have hcases := @resolveSchema_cases row.id p hapart.identifiers
    rcases hcases with ⟨name, hrun⟩ | ⟨hnone, -⟩
    · obtain ⟨-, ⟨other, hother, -, rfl⟩, -⟩ :=
        (resolveSchema_meets (S := fun _ _ => True) row.id).answers name (congrArg Prod.fst hrun)
      cases hfound.symm.trans hother
      rw [hrun]
    · exact absurd ⟨row, hfound, hready, rfl⟩ (hnone row.schemaName)

end Directory

namespace Platform

/-- The platform over a new connection with a plan of what fails. -/
def withPlan (p : Platform) (plan : FaultPlan) : Platform := { p with connection := .fresh plan }

@[simp] theorem database_withPlan (p : Platform) (plan : FaultPlan) :
    (p.withPlan plan).database = p.database := rfl

@[simp] theorem catalog_withPlan (p : Platform) (plan : FaultPlan) :
    (p.withPlan plan).catalog = p.catalog := rfl

@[simp] theorem settings_withPlan (p : Platform) (plan : FaultPlan) :
    (p.withPlan plan).settings = p.settings := rfl

@[simp] theorem plan_withPlan (p : Platform) (plan : FaultPlan) :
    (p.withPlan plan).connection.plan = plan := rfl

end Platform

namespace Provisionings

variable {settings : Settings} {exchanges : List Exchange} {db : Database}
  {catalog : List TenantTable}

theorem history (h : Provisionings settings exchanges db catalog) :
    History settings exchanges db := by
  induction h with
  | start => exact .start
  | next past e asks met found configured ih => exact ih.next e met configured

theorem ends (h : Provisionings settings exchanges db catalog) :
    ∀ e ∈ exchanges, e.ProvisionEnds := by
  induction h with
  | start => exact fun _ hmem => nomatch hmem
  | next past e asks met found configured ih =>
      intro other hmem
      rcases List.mem_append.mp hmem with hold | hlast
      · exact ih other hold
      · rw [List.mem_singleton.mp hlast]
        exact e.provisionEnds asks (met ▸ past.history.schemasApart.numbered)

theorem rows_truthful (h : Provisionings settings exchanges db catalog) :
    ∀ row ∈ db.tenants, row.IsTruthful settings exchanges catalog := by
  induction h with
  | start => exact fun _ hrow => nomatch hrow
  | @next exchanges db catalog past e asks met found configured ih =>
      subst met found configured
      have hgrows := Exchange.grows asks
      have hkept : ∀ row ∈ e.met.database.tenants,
          row.IsTruthful e.met.settings (exchanges ++ [e]) e.left.catalog := by
        intro row hrow
        cases ih row hrow with
        | ready isReady noError tables => exact .ready isReady noError (List.Subset.trans tables hgrows)
        | failed mem written isNew fails isFailed error =>
            exact .failed (List.mem_append_left _ mem) written isNew fails isFailed error
      have hlast : e ∈ exchanges ++ [e] := List.mem_append_right _ (List.mem_singleton_self e)
      intro row hrow
      cases e.provisionEnds asks past.history.schemasApart.numbered with
      | refused barred kept unmade => exact hkept row (kept ▸ hrow)
      | ready written enters prepared isReady entered tables answered =>
          rw [entered] at hrow
          rcases List.mem_append.mp hrow with hold | hnew
          · exact hkept row hold
          · rw [List.mem_singleton.mp hnew]
            subst isReady
            exact .ready rfl rfl fun table htable => Platform.hasTable_iff.mp (tables table htable)
      | failed written enters fails cause isFailed entered unmade =>
          rw [entered] at hrow
          rcases List.mem_append.mp hrow with hold | hnew
          · exact hkept row hold
          · rw [List.mem_singleton.mp hnew]
            subst isFailed
            exact .failed hlast written rfl fails rfl rfl

/-- Every request for a new tenant is refused, or leaves exactly its row, which tells how the
preparation of the schema ended; and after any such requests the directory tells the truth: a tenant
is ready or tells what failed, and exactly those that are ready have a schema to work in, which has
all its tables. -/
theorem truthful (h : Provisionings settings exchanges db catalog) :
    (∀ e ∈ exchanges, e.ProvisionEnds) ∧
    (∀ row ∈ db.tenants, row.IsTruthful settings exchanges catalog) ∧
    ∀ p : Platform, p.database = db → p.catalog = catalog → ∀ id schemaName,
      (((Directory.resolveSchema id).run p).1 = .ok schemaName ↔
        ∃ row ∈ db.tenants, row.id = id ∧ row.status = .ready ∧ row.schemaName = schemaName) ∧
      (((Directory.resolveSchema id).run p).1 = .ok schemaName →
        ∀ table ∈ Directory.tablesOf settings schemaName, p.hasTable table = true) := by
  refine ⟨h.ends, h.rows_truthful, ?_⟩
  rintro p rfl rfl id schemaName
  have hresolved : ((Directory.resolveSchema id).run p).1 = .ok schemaName ↔
      ∃ row ∈ p.database.tenants, row.id = id ∧ row.status = .ready ∧
        row.schemaName = schemaName := Directory.resolveSchema_iff h.history.schemasApart
  refine ⟨hresolved, fun hok table htable => ?_⟩
  obtain ⟨row, hrow, -, hready, rfl⟩ := hresolved.mp hok
  cases h.rows_truthful row hrow with
  | ready isReady noError tables => exact Platform.hasTable_iff.mpr (tables htable)
  | failed mem written isNew fails isFailed error =>
      rw [isFailed] at hready
      cases hready

/-- A plan by which a schema cannot be created. -/
def withoutSchema (schemaName text : String) : FaultPlan :=
  { FaultPlan.none with
    statement := fun sql =>
      if sql = "CREATE SCHEMA IF NOT EXISTS " ++ schemaName then some (.outside .database text)
      else none }

theorem preparation_withoutSchema {draft : TenantDraft} {p : Platform} {text : String}
    (planned : p.connection.plan = withoutSchema draft.schemaFor text) :
    draft.preparation p = .error (.outside .database text) := by
  let failure : Failure := .outside .database text
  have hplan : (draft.entered p).connection.plan = withoutSchema draft.schemaFor text := planned
  have hfails : (draft.entered p).connection.plan.failure?
      ((draft.entered p).connection.statements + 1)
      ("CREATE SCHEMA IF NOT EXISTS " ++ draft.schemaFor) = some failure := by
    rw [hplan, FaultPlan.failure?, withoutSchema]
    dsimp only
    rw [if_pos rfl]
    rfl
  exact Directory.prepare_of_failure hfails

/-- A school is provisioned, the same school again, which is refused, and another school whose
schema cannot be created. -/
theorem truthful_of_failed_creation :
    let settings := Settings.ofMigrations ""
    let start := Platform.new settings ⟨⟨2024, 5, 1⟩, ⟨9, 0, 0, 0⟩, .offset 0⟩
    let north : Exchange := ⟨.toProvision "North", start⟩
    let again : Exchange := ⟨.toProvision "North", north.left⟩
    let south : Exchange :=
      ⟨.toProvision "South", again.left.withPlan (withoutSchema "tenant_south" "disk full")⟩
    Provisionings settings [north, again, south] south.left.database south.left.catalog ∧
      (∃ answer, north.answer = .ok answer ∧ answer.status = 201) ∧
      (∀ table ∈ ["classes", "students", "attendance_records", "grades", "invoices"],
        south.left.hasTable ⟨"tenant_north", table⟩ = true) ∧
      south.left.database.tenants.map
          (fun row => (row.schemaName, row.status, row.preparationError)) =
        [("tenant_north", .ready, none), ("tenant_south", .failed, some "disk full")] := by
  intro settings start north again south
  let northDraft : TenantDraft := ⟨"North", none, none⟩
  let southDraft : TenantDraft := ⟨"South", none, none⟩
  have hread : north.request.readBody TenantDraft.read = .valid northDraft := by rfl
  have hreadSouth : south.request.readBody TenantDraft.read = .valid southDraft := by rfl
  have hfirst : Provisionings settings [north] north.left.database north.left.catalog :=
    (Provisionings.start []).next north ⟨"", by decide +kernel⟩ rfl rfl rfl
  have hsettings : north.left.settings = settings :=
    (north.steps.follows History.sound_empty).settings
  have hsecond : Provisionings settings [north, again] again.left.database again.left.catalog :=
    hfirst.next again ⟨"", by decide +kernel⟩ rfl rfl hsettings
  have hthird : Provisionings settings [north, again, south] south.left.database
      south.left.catalog := by
    refine hsecond.next south ⟨"", by decide +kernel⟩ (Platform.database_withPlan _ _)
      (Platform.catalog_withPlan _ _) ((Platform.settings_withPlan _ _).trans ?_)
    exact (again.steps.follows hfirst.history.sound).settings.trans hsettings
  obtain ⟨hends, hrows, -⟩ := hthird.truthful
  have hnorth : northDraft.schemaFor = "tenant_north" := by decide +kernel
  have hsouth : southDraft.schemaFor = "tenant_south" := by decide +kernel
  obtain ⟨hanswer, hready⟩ := (hends north List.mem_cons_self).ready_of_enters hread
    (.of_empty (by rw [hnorth]; decide)) rfl
  generalize hrow : { northDraft.pending north.met with
    status := TenantStatus.ready, preparationError := none } = row at hready
  have hname : row.schemaName = "tenant_north" := by
    rw [← hrow]
    exact hnorth
  have hkept : again.left.database.tenants = [row] := by
    refine Eq.trans ?_ hready
    refine (hends again (List.mem_cons_of_mem _ List.mem_cons_self)).kept_of_barred hread ?_
    have hmem : row ∈ north.left.database.tenants := hready ▸ List.mem_singleton_self row
    exact fun henters => henters.schema row hmem (hname.trans hnorth.symm)
  have hmet : south.met.database.tenants = [row] :=
    (congrArg Database.tenants (Platform.database_withPlan _ _)).trans hkept
  have henters : southDraft.MayEnter south.met.database := by
    refine ⟨by rw [hsouth]; decide, fun other hother => ?_, fun _ _ hdomain => absurd rfl hdomain⟩
    rw [hmet] at hother
    rw [List.mem_singleton.mp hother, hname, hsouth]
    decide
  have hfails : southDraft.preparation south.met = .error (.outside .database "disk full") := by
    refine preparation_withoutSchema ?_
    rw [hsouth]
    exact Platform.plan_withPlan _ _
  have hleft := (hends south (List.mem_cons_of_mem _ (List.mem_cons_of_mem _
    List.mem_cons_self))).failed_of_enters hreadSouth henters hfails
  rw [hmet] at hleft
  refine ⟨hthird, hanswer, fun table htable => ?_, ?_⟩
  · have htables : Directory.tablesOf settings "tenant_north" =
        ["classes", "students", "attendance_records", "grades", "invoices"].map
          (⟨"tenant_north", ·⟩) := Directory.tablesOf_defaultDirectory (by decide) rfl
    cases hrows row (by rw [hleft]; exact List.mem_cons_self) with
    | ready isReady noError tables =>
        rw [hname, htables] at tables
        exact Platform.hasTable_iff.mpr (tables (List.mem_map_of_mem htable))
    | failed mem written isNew fails isFailed error =>
        rw [← hrow] at isFailed
        cases isFailed
  · rw [hleft, ← hrow, ← hnorth, ← hsouth]
    rfl

end Provisionings

end TenantReports
