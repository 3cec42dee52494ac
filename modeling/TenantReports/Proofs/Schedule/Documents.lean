import TenantReports.Proofs.Schedule.Blame

/-!
The documents of schedules, which answers can show as long as none of them is null. A document only
becomes null where a request gives null for it.
-/

namespace TenantReports

open Change (Sets)
open Relation (ReflTransGen)
open Validated

namespace Schedule

/-- Whether each document of a schedule is null or can be shown. -/
structure HasDocuments (schedule : Schedule) : Prop where
  config : schedule.config = .null ∨ ScheduleConfig.IsStored schedule.config
  parameters : schedule.parameters = .null ∨ IsShownMapping schedule.parameters
  recipients : schedule.recipients = .null ∨ IsShownTexts schedule.recipients

theorem not_isStored_null : ¬ ScheduleConfig.IsStored .null := by
  rintro ⟨config, h⟩
  cases h

theorem not_isShownMapping_null : ¬ IsShownMapping .null := by
  rintro ⟨entries, h⟩
  cases h

theorem not_isShownTexts_null : ¬ IsShownTexts .null := by
  rintro ⟨texts, h⟩
  cases h

variable {schedule : Schedule}

theorem mem_documents_null {name : String} :
    (name, Value.null) ∈ schedule.documents ↔
      name = "schedule_config" ∧ schedule.config = .null ∨
      name = "parameters" ∧ schedule.parameters = .null ∨
      name = "recipients" ∧ schedule.recipients = .null := by
  simp [documents, eq_comm]

theorem HasDocuments.congr {other : Schedule} (h : schedule.HasDocuments)
    (hsame : other.documents = schedule.documents) : other.HasDocuments := by
  simp only [documents, List.cons.injEq, Prod.mk.injEq, true_and, and_true] at hsame
  obtain ⟨hconfig, hparameters, hrecipients⟩ := hsame
  exact ⟨hconfig ▸ h.config, hparameters ▸ h.parameters, hrecipients ▸ h.recipients⟩

/-- A schedule can be shown unless a document of it is null. -/
theorem HasDocuments.isShowable_iff (h : schedule.HasDocuments) :
    Api.isShowable schedule = true ↔ ∀ name, (name, .null) ∉ schedule.documents := by
  constructor
  · intro hshowable name hname
    simp only [Api.isShowable, Bool.and_eq_true] at hshowable
    obtain ⟨⟨hconfig, hparameters⟩, hrecipients⟩ := hshowable
    rcases mem_documents_null.mp hname with ⟨-, hnull⟩ | ⟨-, hnull⟩ | ⟨-, hnull⟩
    · rw [hnull] at hconfig
      cases hconfig
    · rw [hnull] at hparameters
      cases hparameters
    · rw [hnull] at hrecipients
      cases hrecipients
  · intro hnone
    have hconfig := h.config.resolve_left fun hnull =>
      hnone _ (mem_documents_null.mpr (.inl ⟨rfl, hnull⟩))
    have hparameters := h.parameters.resolve_left fun hnull =>
      hnone _ (mem_documents_null.mpr (.inr (.inl ⟨rfl, hnull⟩)))
    have hrecipients := h.recipients.resolve_left fun hnull =>
      hnone _ (mem_documents_null.mpr (.inr (.inr ⟨rfl, hnull⟩)))
    obtain ⟨fields, hfields⟩ := hconfig.isShownMapping
    obtain ⟨entries, hentries⟩ := hparameters
    obtain ⟨texts, htexts⟩ := hrecipients
    unfold Api.isShowable
    rw [hfields, hentries, htexts]
    rfl

theorem documents_ofDraft {v : Value} {draft : ScheduleDraft}
    (h : ScheduleDraft.read v = .valid draft) (tenant : Uuid) (user : Option Uuid)
    (next now : DateTime) (id : Uuid) :
    (ofDraft draft tenant user next now id).HasDocuments ∧
      ∀ name, (name, .null) ∉ (ofDraft draft tenant user next now id).documents := by
  obtain ⟨given, h⟩ := record_eq_valid h
  obtain ⟨g₆, recipients, h₆, hrecipients, rfl⟩ := seq_eq_valid.mp h
  obtain ⟨g₅, exportFormat, h₅, -, rfl⟩ := seq_eq_valid.mp h₆
  obtain ⟨g₄, parameters, h₄, hparameters, rfl⟩ := seq_eq_valid.mp h₅
  obtain ⟨g₃, config, h₃, -, rfl⟩ := seq_eq_valid.mp h₄
  obtain ⟨g₂, type, h₂, -, rfl⟩ := seq_eq_valid.mp h₃
  obtain ⟨g₁, name, h₁, -, rfl⟩ := seq_eq_valid.mp h₂
  obtain ⟨definition, -, rfl⟩ := map_eq_valid.mp h₁
  have hconfig : ScheduleConfig.IsStored config.form.withoutNulls := ⟨config, rfl⟩
  have hparameters : IsShownMapping (.mapping parameters) := by
    unfold Read.optional at hparameters
    split at hparameters
    · exact isShownMapping_of_read (under_eq_valid.mp hparameters)
    · cases hparameters
      exact isShownMapping_record []
  have hrecipients : IsShownTexts (.texts recipients) :=
    ⟨recipients, Read.rereads_texts.optional rfl hrecipients⟩
  refine ⟨⟨.inr hconfig, .inr hparameters, .inr hrecipients⟩, fun name hname => ?_⟩
  rcases mem_documents_null.mp hname with ⟨-, hnull⟩ | ⟨-, hnull⟩ | ⟨-, hnull⟩
  · exact not_isStored_null (hnull ▸ hconfig)
  · exact not_isShownMapping_null (hnull ▸ hparameters)
  · exact not_isShownTexts_null (hnull ▸ hrecipients)

end Schedule

theorem Change.documentColumn_keeps {given changes : Entries} {Fits : Value → Prop} {name : String}
    {old : Value} (h : Sets given changes Fits name) (hold : old = .null ∨ Fits old)
    (hnull : ¬ Fits .null) :
    (documentColumn changes name old = .null ∨ Fits (documentColumn changes name old)) ∧
      (documentColumn changes name old = .null → old = .null ∨ given.field? name = some .null) := by
  rcases documentColumn_cases h old with heq | ⟨heq, hgiven⟩ | hfits
  · rw [heq]
    exact ⟨hold, .inl⟩
  · exact ⟨.inl heq, fun _ => .inr hgiven⟩
  · exact ⟨.inr hfits, fun heq => absurd (heq ▸ hfits) hnull⟩

namespace Schedule

variable {given changes : Entries} {schedule changed : Schedule}

theorem change?_documents (h : schedule.change? changes = some changed) :
    changed.config = Change.documentColumn changes "schedule_config" schedule.config ∧
    changed.parameters = Change.documentColumn changes "parameters" schedule.parameters ∧
    changed.recipients = Change.documentColumn changes "recipients" schedule.recipients := by
  unfold change? at h
  simp only [Option.bind_eq_bind, Option.bind_eq_some_iff] at h
  obtain ⟨name, -, exportFormat, -, isActive, -, heq⟩ := h
  cases heq
  exact ⟨rfl, rfl, rfl⟩

/-- A patch leaves a document null that was null, or for which null was given. -/
theorem HasDocuments.change (h : schedule.HasDocuments)
    (hsets : SchedulePatch.SetsFields given changes)
    (hmade : schedule.change? changes = some changed) :
    changed.HasDocuments ∧ ∀ name, (name, .null) ∈ changed.documents →
      (name, .null) ∈ schedule.documents ∨ given.field? name = some .null := by
  obtain ⟨hconfig, hparameters, hrecipients⟩ := change?_documents hmade
  obtain ⟨hconfig', hnull₁⟩ := Change.documentColumn_keeps hsets.config h.config not_isStored_null
  obtain ⟨hparameters', hnull₂⟩ :=
    Change.documentColumn_keeps hsets.parameters h.parameters not_isShownMapping_null
  obtain ⟨hrecipients', hnull₃⟩ :=
    Change.documentColumn_keeps hsets.recipients h.recipients not_isShownTexts_null
  rw [← hconfig] at hconfig' hnull₁
  rw [← hparameters] at hparameters' hnull₂
  rw [← hrecipients] at hrecipients' hnull₃
  refine ⟨⟨hconfig', hparameters', hrecipients'⟩, fun name hname => ?_⟩
  rcases mem_documents_null.mp hname with ⟨rfl, hnull⟩ | ⟨rfl, hnull⟩ | ⟨rfl, hnull⟩
  · exact (hnull₁ hnull).imp_left fun hold => mem_documents_null.mpr (.inl ⟨rfl, hold⟩)
  · exact (hnull₂ hnull).imp_left fun hold => mem_documents_null.mpr (.inr (.inl ⟨rfl, hold⟩))
  · exact (hnull₃ hnull).imp_left fun hold => mem_documents_null.mpr (.inr (.inr ⟨rfl, hold⟩))

end Schedule

/-- Whether a request patches a schedule and gives null for a field of it. -/
def ApiRequest.SetsNull (request : ApiRequest) (id : Uuid) (name : String) : Prop :=
  (∃ patch, request.Patches id patch) ∧
    (Form.entriesOf (request.body.getD .null)).field? name = some .null

theorem ApiRequest.Patches.setsFields {request : ApiRequest} {id : Uuid} {patch : SchedulePatch}
    (h : request.Patches id patch) :
    SchedulePatch.SetsFields (Form.entriesOf (request.body.getD .null))
      (Schedules.changesOf patch (request.body.getD .null)) := by
  obtain ⟨v, hbody, hread⟩ := readBody_eq_valid h.written
  rw [hbody]
  exact SchedulePatch.setsFields hread

namespace Api

variable {request : ApiRequest} {p q : Platform} {row : Schedule}

theorem Step.Scheduled.documents (h : Scheduled request row) :
    row.HasDocuments ∧ ∀ name, (name, .null) ∉ row.documents := by
  obtain ⟨draft, tenant, user, next, time, hwritten, hrow⟩ := h
  obtain ⟨v, -, hread⟩ := ApiRequest.readBody_eq_valid hwritten
  rw [hrow]
  exact Schedule.documents_ofDraft hread _ _ _ _ _

theorem Step.Patched.documents {old : Schedule} (h : Patched request old row)
    (hold : old.HasDocuments) :
    row.HasDocuments ∧ ∀ name, (name, .null) ∈ row.documents →
      (name, .null) ∈ old.documents ∨ request.SetsNull old.id name := by
  obtain ⟨patch, changed, hpatches, hmade, hsame⟩ := h
  obtain ⟨hdocuments, hnull⟩ := hold.change hpatches.setsFields hmade
  refine ⟨hdocuments.congr hsame, fun name hname => ?_⟩
  rw [hsame] at hname
  exact (hnull name hname).imp_right fun hgiven => ⟨⟨patch, hpatches⟩, hgiven⟩

/-- A document is null in the tables that steps leave if it was null in those that were met, or if
the request gives null for it. -/
theorem Steps.documents (h : Steps request p.database p q) (hsound : Sound p.database)
    (hmet : ∀ row ∈ p.database.schedules, row.HasDocuments) :
    ∀ row ∈ q.database.schedules, row.HasDocuments ∧ ∀ name, (name, .null) ∈ row.documents →
      (∃ old ∈ p.database.schedules, old.id = row.id ∧ (name, .null) ∈ old.documents) ∨
      request.SetsNull row.id name := by
  induction h with
  | refl => exact fun row hrow => ⟨hmet row hrow, fun name hname => .inl ⟨row, hrow, rfl, hname⟩⟩
  | tail hsteps hstep ih =>
      obtain ⟨owner, hstep⟩ := hstep
      have hfollows := Steps.follows hsteps hsound
      intro row hrow
      rcases (hstep.schedules hfollows.sound).origin hrow with
        ⟨old, hold, hid, -, rfl | ⟨-, -, -, -, hsame | hpatched⟩⟩ | ⟨-, -, -, -, hscheduled⟩
      · exact ih row hold
      · obtain ⟨hdocuments, hnull⟩ := ih old hold
        have hid : row.id = old.id := hid
        rw [hsame, hid]
        exact ⟨hdocuments.congr hsame, hnull⟩
      · obtain ⟨hdocuments, hnull⟩ := ih old hold
        obtain ⟨hchanged, hkept⟩ := hpatched.documents hdocuments
        have hid : row.id = old.id := hid
        rw [hid]
        exact ⟨hchanged, fun name hname => (hkept name hname).elim (hnull name) .inr⟩
      · obtain ⟨hdocuments, hnone⟩ := hscheduled.documents
        exact ⟨hdocuments, fun name hname => absurd hname (hnone name)⟩

end Api

/-- A document of a stored schedule can be shown, or it is null and an exchange gave null for it. -/
theorem History.documents {settings : Settings} {exchanges : List Exchange} {db : Database}
    (h : History settings exchanges db) :
    ∀ row ∈ db.schedules, row.HasDocuments ∧ ∀ name, (name, .null) ∈ row.documents →
      ∃ e ∈ exchanges, e.request.SetsNull row.id name := by
  induction h with
  | start => exact fun _ hrow => nomatch hrow
  | @next exchanges db past e met configured ih =>
      subst met
      intro row hrow
      obtain ⟨hdocuments, hnull⟩ :=
        e.steps.documents past.sound (fun row hrow => (ih row hrow).1) row hrow
      refine ⟨hdocuments, fun name hname => ?_⟩
      rcases hnull name hname with ⟨old, hold, hid, hold'⟩ | hsets
      · obtain ⟨first, hfirst, hsets⟩ := (ih old hold).2 name hold'
        rw [hid] at hsets
        exact ⟨first, List.mem_append_left _ hfirst, hsets⟩
      · exact ⟨e, List.mem_append_right _ (List.mem_singleton_self e), hsets⟩

end TenantReports
