import TenantReports.Proofs.Report.RoundTrip
import TenantReports.Proofs.Schedule.Retimed
import TenantReports.Proofs.Validation.Form

/-!
What a patch does to a schedule: each field stays, becomes null where null was given, or has a new
value that answers can show.
-/

namespace TenantReports

open Validated

namespace Change

/-- What changes say of a field: nothing, that it is null, for which null was given, or a value that
fits. -/
inductive Sets (given changes : Entries) (Fits : Value → Prop) (name : String) : Prop
  | kept (unnamed : changes.field? name = none)
  | null (asked : given.field? name = some .null) (set : changes.field? name = some .null)
  | anew {v : Value} (fits : Fits v) (set : changes.field? name = some v)

variable {given changes : Entries} {Fits : Value → Prop} {name : String}

/-- A field that was read so that null was given for it, or a value that its change fits. -/
theorem sets_of_orNull {α : Type} {reader : Reader α} {a : Option α}
    (hread : Read.orNull name reader given = .valid a)
    (hnone : a = none → changes.field? name = (given.field? name).map fun _ => .null)
    (hsome : ∀ found v, a = some found → given.field? name = some v → reader v = .valid found →
      ∃ new, Fits new ∧ changes.field? name = some new) :
    Sets given changes Fits name := by
  unfold Read.orNull Read.optional at hread
  cases hgiven : given.field? name with
  | none =>
      rw [hgiven] at hread hnone
      cases hread
      exact .kept (hnone rfl)
  | some v =>
      rw [hgiven] at hread hnone
      replace hread := under_eq_valid.mp hread
      unfold Read.nullable at hread
      split at hread
      · cases hread
        exact .null hgiven (hnone rfl)
      · obtain ⟨found, hfound, rfl⟩ := map_eq_valid.mp hread
        obtain ⟨new, hfits, hset⟩ := hsome found _ rfl hgiven hfound
        exact .anew hfits hset

/-- A field whose change is the form of what was read. -/
theorem sets_of_form {α : Type} {reader : Reader α} {form : α → Form} {a : Option α}
    (hread : Read.orNull name reader given = .valid a)
    (hfits : ∀ v a, reader v = .valid a → Fits ((form a).givenIn v))
    (hfield : changes.field? name =
      (given.field? name).map fun v => (Form.orNull form a).givenIn v) :
    Sets given changes Fits name := by
  refine sets_of_orNull hread (fun hnone => ?_) (fun found v hsome hgiven hfound => ?_)
  · rw [hnone] at hfield
    exact hfield
  · rw [hsome, hgiven] at hfield
    exact ⟨_, hfits v found hfound, hfield⟩

/-- A column refuses changes only where null was given for it. -/
theorem asked_of_textColumn {old : String}
    (h : Sets given changes (fun v => ∃ s, v = .text s) name)
    (hrefused : textColumn changes name old = none) : given.field? name = some .null := by
  unfold textColumn at hrefused
  cases h with
  | kept unnamed =>
      rw [unnamed] at hrefused
      cases hrefused
  | null asked set => exact asked
  | anew fits set =>
      obtain ⟨s, rfl⟩ := fits
      rw [set] at hrefused
      cases hrefused

theorem asked_of_flagColumn {old : Bool}
    (h : Sets given changes (fun v => ∃ b, v = .bool b) name)
    (hrefused : flagColumn changes name old = none) : given.field? name = some .null := by
  unfold flagColumn at hrefused
  cases h with
  | kept unnamed =>
      rw [unnamed] at hrefused
      cases hrefused
  | null asked set => exact asked
  | anew fits set =>
      obtain ⟨b, rfl⟩ := fits
      rw [set] at hrefused
      cases hrefused

/-- A document is what it was, or null where null was given, or one that fits. -/
theorem documentColumn_cases (h : Sets given changes Fits name) (old : Value) :
    documentColumn changes name old = old ∨
    documentColumn changes name old = .null ∧ given.field? name = some .null ∨
    Fits (documentColumn changes name old) := by
  unfold documentColumn
  cases h with
  | kept unnamed =>
      rw [unnamed]
      exact .inl rfl
  | null asked set =>
      rw [set]
      exact .inr (.inl ⟨rfl, asked⟩)
  | anew fits set =>
      rw [set]
      exact .inr (.inr fits)

end Change

open Change (Sets)

/-- Whether a value is a configuration as schedules store it. -/
def ScheduleConfig.IsStored (v : Value) : Prop :=
  ∃ config : ScheduleConfig, v = config.form.withoutNulls

/-- Whether a value can be shown as parameters. -/
def IsShownMapping (v : Value) : Prop := ∃ entries, Read.anyMapping v = .valid entries

def IsShownTexts (v : Value) : Prop := ∃ texts, Read.list Read.text v = .valid texts

theorem isShownMapping_record (fields : List (String × Value)) :
    IsShownMapping (.record fields) := by
  refine ⟨(Read.lastByName fields).map fun entry => (.text entry.1, entry.2), ?_⟩
  unfold Read.anyMapping Read.mapping Value.record
  dsimp only
  rw [Read.entries_any]
  rfl

theorem isShownMapping_of_read {v : Value} {entries : Entries}
    (h : Read.anyMapping v = .valid entries) : IsShownMapping (.mapping entries) := by
  obtain ⟨fields, -, rfl⟩ := map_eq_valid.mp h
  exact isShownMapping_record fields

theorem ScheduleConfig.IsStored.isShownMapping {v : Value} (h : IsStored v) : IsShownMapping v := by
  obtain ⟨config, rfl⟩ := h
  have hrecord := Form.toValue_record (Form.filledFields
    [("cron", .orNull .text config.cron),
     ("day_of_week", .orNull (fun n => .value (.int n)) config.dayOfWeek),
     ("day_of_month", .orNull (fun n => .value (.int n)) config.dayOfMonth),
     ("time", .orNull .text config.time)])
  change IsShownMapping (Form.toValue (.record _))
  rw [hrecord]
  exact isShownMapping_record _

namespace SchedulePatch

/-- What the changes of a patch say of each field of a schedule. -/
structure SetsFields (given changes : Entries) : Prop where
  name : Sets given changes (fun v => ∃ s, v = .text s) "name"
  config : Sets given changes ScheduleConfig.IsStored "schedule_config"
  parameters : Sets given changes IsShownMapping "parameters"
  exportFormat : Sets given changes (fun v => ∃ s, v = .text s) "export_format"
  recipients : Sets given changes IsShownTexts "recipients"
  isActive : Sets given changes (fun v => ∃ b, v = .bool b) "is_active"

/-- What a patch says of a field other than a configuration. -/
theorem field?_changesOf {patch : SchedulePatch} {given : Entries} {name : String} {form : Form}
    (hname : Schedules.configName ≠ name ∨ patch.config = none)
    (hform : [("name", .orNull .text patch.name), ("schedule_type", .orNull .text patch.type),
     ("schedule_config", .orNull ScheduleConfig.form patch.config),
     ("parameters", .orNull (fun ps => .value (.mapping ps)) patch.parameters),
     ("export_format", .orNull .text patch.exportFormat),
     ("recipients", .orNull .texts patch.recipients),
     ("is_active", .orNull (fun b => .value (.bool b)) patch.isActive)].lookup name = some form) :
    (Schedules.changesOf patch (.mapping given)).field? name =
      (given.field? name).map fun v => form.givenIn v := by
  have hfield : (Form.entriesOf (patch.form.givenIn (.mapping given))).field? name =
      (given.field? name).map fun v => form.givenIn v := by
    refine (Form.field?_givenIn _).trans ?_
    rw [hform]
    cases given.field? name <;> rfl
  unfold Schedules.changesOf
  dsimp only
  split
  · next config hconfig =>
      rcases hname with hne | hnone
      · rw [Entries.field?_put, if_neg hne]
        exact hfield
      · cases hconfig.symm.trans hnone
  · exact hfield

theorem setsFields {patch : SchedulePatch} {v : Value} (h : read v = .valid patch) :
    SetsFields (Form.entriesOf v) (Schedules.changesOf patch v) := by
  unfold read Read.record at h
  split at h
  · next given =>
      obtain ⟨g₆, isActive, h₆, hactive, rfl⟩ := seq_eq_valid.mp h
      obtain ⟨g₅, recipients, h₅, hrecipients, rfl⟩ := seq_eq_valid.mp h₆
      obtain ⟨g₄, exportFormat, h₄, hformat, rfl⟩ := seq_eq_valid.mp h₅
      obtain ⟨g₃, parameters, h₃, hparameters, rfl⟩ := seq_eq_valid.mp h₄
      obtain ⟨g₂, config, h₂, hconfig, rfl⟩ := seq_eq_valid.mp h₃
      obtain ⟨g₁, type, h₁, htype, rfl⟩ := seq_eq_valid.mp h₂
      obtain ⟨name, hname, rfl⟩ := map_eq_valid.mp h₁
      refine ⟨?_, ?_, ?_, ?_, ?_, ?_⟩
      · refine Change.sets_of_form hname ?_ (field?_changesOf (.inl (by decide)) rfl)
        exact fun _ s _ => ⟨s, rfl⟩
      · refine Change.sets_of_orNull hconfig (fun hnone => ?_) (fun found v hsome _ _ => ?_)
        · rw [hnone]
          refine Eq.trans (field?_changesOf (.inr rfl) rfl) ?_
          rfl
        · refine ⟨_, ⟨found, rfl⟩, ?_⟩
          rw [hsome]
          exact (Entries.field?_put _ _ _ _).trans (if_pos rfl)
      · refine Change.sets_of_form hparameters ?_ (field?_changesOf (.inl (by decide)) rfl)
        exact fun _ _ => isShownMapping_of_read
      · refine Change.sets_of_form hformat ?_ (field?_changesOf (.inl (by decide)) rfl)
        exact fun _ s _ => ⟨s, rfl⟩
      · refine Change.sets_of_form hrecipients ?_ (field?_changesOf (.inl (by decide)) rfl)
        exact fun v texts hread => ⟨texts, Read.rereads_texts v texts hread⟩
      · refine Change.sets_of_form hactive ?_ (field?_changesOf (.inl (by decide)) rfl)
        exact fun _ b _ => ⟨b, rfl⟩
  · cases h

end SchedulePatch
end TenantReports
