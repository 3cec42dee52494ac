import TenantReports.Proofs.Api.History
import TenantReports.Proofs.Text.Runs

/-!
The schemas of tenants: no two tenants have a schema of one name. SQL names a schema without quotes,
where capitals are read as small letters, so that two names can still denote one schema. Names that
are made from the names of schools have no capitals.
-/

namespace TenantReports

/-- A name as SQL reads it where it stands without quotes. -/
def Sql.folded (name : String) : String := String.ofList (name.toList.map Char.toLower)

/-! Names made from the names of schools -/

theorem Slug.isSlugChar_underscore : isSlugChar '_' = false := by decide

theorem Slug.isSeparated_body (name : List Char) : Text.IsSeparated isSlugChar '_' (body name) :=
  Text.isSeparated_intercalate isSlugChar_underscore fun _ => Text.isRun_of_mem_runs

theorem Slug.toLower_of_isSlugChar {c : Char} (h : isSlugChar c = true) : c.toLower = c := by
  have hsmall : ¬ ('A' ≤ c ∧ c ≤ 'Z') := by
    simp only [isSlugChar, Bool.or_eq_true, Bool.and_eq_true, decide_eq_true_eq] at h
    rcases h with ⟨hlow, hhigh⟩ | ⟨hlow, hhigh⟩
    · exact fun hcapital => absurd (Char.le_trans hlow hcapital.2) (by decide)
    · exact fun hcapital => absurd (Char.le_trans hcapital.1 hhigh) (by decide)
  exact dif_neg hsmall

theorem folded_schemaSlug (name : String) : Sql.folded (schemaSlug name) = schemaSlug name := by
  have hbody : (Slug.body name.toList).map Char.toLower = Slug.body name.toList := by
    refine (List.map_congr_left fun c hc => ?_).trans (List.map_id _)
    rcases (Slug.isSeparated_body _).chars c hc with hkept | rfl
    · exact Slug.toLower_of_isSlugChar hkept
    · rfl
  unfold Sql.folded schemaSlug
  rw [String.toList_append, List.map_append, String.ofList_append]
  refine congrArg₂ String.append rfl (congrArg String.ofList ?_)
  rw [String.toList_ofList]
  exact hbody

/-- A name with capitals was not made, but asked for. -/
theorem Directory.schemaNameFor_of_not_folded {name : String} {schemaName : Option String}
    (h : Sql.folded (schemaNameFor name schemaName) ≠ schemaNameFor name schemaName) :
    schemaName = some (schemaNameFor name schemaName) := by
  unfold schemaNameFor at h ⊢
  cases hgiven : schemaName.filter (· ≠ "") with
  | none =>
      rw [hgiven] at h
      exact absurd (folded_schemaSlug name) h
  | some given => exact (Option.filter_eq_some_iff.mp hgiven).1

/-! The names of all tenants -/

/-- What is kept of the tenants' schemas, whatever is requested. -/
structure Database.HasSchemasApart (db : Database) : Prop where
  numbered : Table.tenants.Numbered db
  nodup : (db.tenants.map (·.schemaName)).Nodup
  identifiers : ∀ row ∈ db.tenants, Sql.isIdentifier row.schemaName = true

theorem Database.schemaName_ne_of_accepts {db : Database} {row other : Tenant}
    (haccepts : db.acceptsTenant row = true) (hother : other ∈ db.tenants)
    (hid : other.id ≠ row.id) : other.schemaName ≠ row.schemaName := by
  have hchecked := List.all_eq_true.mp haccepts other hother
  simp only [Bool.or_eq_true, Bool.and_eq_true, beq_iff_eq, bne_iff_ne] at hchecked
  exact (hchecked.resolve_left hid).1

namespace Api

variable {request : ApiRequest} {past : Database} {owner : Option Uuid} {p q : Platform}

theorem Step.schemasApart (h : Step request past owner p q)
    (hapart : p.database.HasSchemasApart) : q.database.HasSchemasApart where
  numbered := h.tenants.numbered (h.attempts_le _) hapart.numbered
  nodup := by
    refine h.tenants.nodup_column (fun _ _ hkept => hkept) (fun row hid hnew other hother => ?_)
      hapart.nodup
    have hlater : Table.IsLater p.database .tenants (Table.tenants.id row) :=
      hid ▸ Table.isLater_nextId (Nat.le_refl _)
    exact Database.schemaName_ne_of_accepts hnew.2.2 hother
      (hapart.numbered.id_ne_of_isLater hlater hother)
  identifiers := by
    intro row hrow
    rcases h.tenants.origin hrow with ⟨old, hold, -, -, rfl | ⟨-, hkept⟩⟩ | ⟨-, -, hvalid, -⟩
    · exact hapart.identifiers row hold
    · rw [hkept]
      exact hapart.identifiers old hold
    · exact hvalid

theorem Steps.schemasApart (h : Steps request past p q) (hapart : p.database.HasSchemasApart) :
    q.database.HasSchemasApart := by
  induction h with
  | refl => exact hapart
  | tail _ hstep ih =>
      obtain ⟨owner, hstep⟩ := hstep
      exact hstep.schemasApart ih

/-- A tenant comes from one that was met and has its schema, or the request provisions it. -/
theorem Steps.tenants (h : Steps request p.database p q) (hsound : Sound p.database) :
    ∀ row ∈ q.database.tenants,
      (∃ old ∈ p.database.tenants, row.id = old.id ∧ row.schemaName = old.schemaName) ∨
      Table.IsLater p.database .tenants row.id ∧ Step.Provisioned request row := by
  refine Steps.origin (t := .tenants) (·.schemaName) h hsound (fun hsame hmade => ?_) ?_
  · unfold Step.Provisioned at hmade ⊢
    rw [hsame]
    exact hmade
  · intro owner r r' hsteps hstep row hrow
    rcases hstep.tenants.origin hrow with
      ⟨mid, hmid, hid, -, rfl | ⟨-, hname⟩⟩ | ⟨hid, hprovisioned, -⟩
    · exact .inl ⟨row, hmid, hid, rfl⟩
    · exact .inl ⟨mid, hmid, hid, hname⟩
    · exact .inr ⟨hid, hprovisioned⟩

end Api

/-- The request asks for a schema by a name with capitals. -/
def ApiRequest.AsksForCapitals (request : ApiRequest) (schemaName : String) : Prop :=
  request.Asks .provisionTenant ∧ Sql.folded schemaName ≠ schemaName ∧
    ∃ draft, request.readBody TenantDraft.read = .valid draft ∧ draft.schemaName = some schemaName

theorem Api.Step.Provisioned.asksForCapitals {request : ApiRequest} {row : Tenant}
    (h : Provisioned request row) (hcapitals : Sql.folded row.schemaName ≠ row.schemaName) :
    request.AsksForCapitals row.schemaName := by
  obtain ⟨hasks, draft, hwritten, hname⟩ := h
  refine ⟨hasks, hcapitals, draft, hwritten, ?_⟩
  rw [hname] at hcapitals ⊢
  exact Directory.schemaNameFor_of_not_folded hcapitals

namespace History

variable {settings : Settings} {exchanges : List Exchange} {db : Database}

theorem schemasApart (h : History settings exchanges db) : db.HasSchemasApart := by
  induction h with
  | start =>
      exact ⟨⟨List.nodup_nil, fun _ hrow => nomatch hrow⟩, List.nodup_nil,
        fun _ hrow => nomatch hrow⟩
  | next past e met configured ih =>
      subst met
      exact e.steps.schemasApart ih

/-- Every tenant was provisioned in some exchange, under the schema that it has. -/
theorem provisioned (h : History settings exchanges db) :
    ∀ row ∈ db.tenants, ∃ e ∈ exchanges, Api.Step.Provisioned e.request row := by
  have hmakes : ∀ e : Exchange, Api.Sound e.met.database → ∀ row ∈ e.left.database.tenants,
      (∃ old ∈ e.met.database.tenants, ∀ first : Exchange,
        Api.Step.Provisioned first.request old → Api.Step.Provisioned first.request row) ∨
      Api.Step.Provisioned e.request row := by
    intro e hsound row hrow
    rcases e.steps.tenants hsound row hrow with ⟨old, hold, -, hname⟩ | ⟨-, hprovisioned⟩
    · refine .inl ⟨old, hold, fun first hfirst => ?_⟩
      unfold Api.Step.Provisioned at hfirst ⊢
      rw [hname]
      exact hfirst
    · exact .inr hprovisioned
  intro row hrow
  obtain ⟨before, e, after, hsplit, hprovisioned⟩ := h.origin (t := .tenants) rfl hmakes row hrow
  exact ⟨e, hsplit ▸ List.mem_append_right _ List.mem_cons_self, hprovisioned⟩

/-- The schemas of tenants have different names, which are identifiers. Where two of the names
denote one schema, a request asked for one of them with capitals. -/
theorem schemas_apart (h : History settings exchanges db) :
    (∀ row ∈ db.tenants, Sql.isIdentifier row.schemaName = true) ∧
    db.tenants.Pairwise fun a b =>
      a.schemaName ≠ b.schemaName ∧
      (Sql.folded a.schemaName = Sql.folded b.schemaName →
        ∃ e ∈ exchanges, e.request.AsksForCapitals a.schemaName ∨
          e.request.AsksForCapitals b.schemaName) := by
  have hapart := h.schemasApart
  refine ⟨hapart.identifiers, ?_⟩
  have hnames : db.tenants.Pairwise fun a b => a.schemaName ≠ b.schemaName :=
    List.pairwise_map.mp hapart.nodup
  refine hnames.imp_of_mem fun {a b} ha hb hne => ⟨hne, fun hsame => ?_⟩
  by_cases hcapitals : Sql.folded a.schemaName = a.schemaName
  · have hother : Sql.folded b.schemaName ≠ b.schemaName := fun hsmall =>
      hne (hcapitals.symm.trans (hsame.trans hsmall))
    obtain ⟨e, he, hprovisioned⟩ := h.provisioned b hb
    exact ⟨e, he, .inr (hprovisioned.asksForCapitals hother)⟩
  · obtain ⟨e, he, hprovisioned⟩ := h.provisioned a ha
    exact ⟨e, he, .inl (hprovisioned.asksForCapitals hcapitals)⟩

/-- Two schools are provisioned, the second one in a schema with capitals; a third one asks for the
schema of the first and is refused. -/
theorem schemas_apart_of_capitals :
    ∃ exchanges db, History (.ofMigrations "migrations") exchanges db ∧
      db.tenants.map (·.schemaName) = ["tenant_north", "South"] ∧
      db.tenants.Pairwise fun a b =>
        a.schemaName ≠ b.schemaName ∧
        (Sql.folded a.schemaName = Sql.folded b.schemaName →
          ∃ e ∈ exchanges, e.request.AsksForCapitals a.schemaName ∨
            e.request.AsksForCapitals b.schemaName) := by
  let requests := [.toProvision "North", .toProvisionAs "South" "South",
    ApiRequest.toProvisionAs "East" "tenant_north"]
  let start := Platform.new (.ofMigrations "migrations") ⟨⟨2024, 5, 1⟩, ⟨9, 0, 0, 0⟩, .offset 0⟩
  obtain ⟨p, hp, h, -⟩ := exists_afterAll (.ofMigrations "migrations") start rfl rfl requests
  have hnames : p.database.tenants.map (·.schemaName) = ["tenant_north", "South"] := by
    rw [hp]
    decide +kernel
  exact ⟨_, _, h, hnames, (schemas_apart h).2⟩

/-- The second school asks for the schema of the first in capitals, and is given it. -/
theorem schemas_shared :
    ∃ exchanges db, History (.ofMigrations "migrations") exchanges db ∧
      (∀ e ∈ exchanges, e.request.Asks .provisionTenant) ∧
      ∃ a ∈ db.tenants, ∃ b ∈ db.tenants, a.id ≠ b.id ∧
        Sql.folded a.schemaName = Sql.folded b.schemaName := by
  let requests := [.toProvisionAs "North" "tenant_a", ApiRequest.toProvisionAs "South" "Tenant_A"]
  let start := Platform.new (.ofMigrations "migrations") ⟨⟨2024, 5, 1⟩, ⟨9, 0, 0, 0⟩, .offset 0⟩
  obtain ⟨p, hp, h, -⟩ := exists_afterAll (.ofMigrations "migrations") start rfl rfl requests
  have hrows : p.database.tenants.map (fun row => (row.id, row.schemaName)) =
      [(TableName.rowId .tenants 1, "tenant_a"), (TableName.rowId .tenants 2, "Tenant_A")] := by
    rw [hp]
    decide +kernel
  obtain ⟨a, ha, hnorth⟩ := List.mem_map.mp (hrows ▸ List.mem_cons_self)
  obtain ⟨b, hb, hsouth⟩ := List.mem_map.mp
    (hrows ▸ List.mem_cons_of_mem _ (List.mem_singleton_self _))
  obtain ⟨hida, hnamea⟩ := Prod.mk.inj hnorth
  obtain ⟨hidb, hnameb⟩ := Prod.mk.inj hsouth
  refine ⟨_, _, h, ?_, a, ha, b, hb, ?_, ?_⟩
  · intro e he
    have hasks : ∀ request ∈ requests, request.Asks .provisionTenant := by
      intro request hmem
      simp only [requests, List.mem_cons, List.not_mem_nil, or_false] at hmem
      rcases hmem with rfl | rfl
      · exact ⟨"", by decide +kernel⟩
      · exact ⟨"", by decide +kernel⟩
    exact hasks e.request (Exchange.request_mem_of_inTurn he)
  · rw [hida, hidb]
    exact (Table.rowId_injective .tenants).ne (by decide)
  · rw [hnamea, hnameb]
    decide

end History

end TenantReports
