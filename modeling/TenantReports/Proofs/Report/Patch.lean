import TenantReports.Proofs.Report.Checking

/-!
What a patch does to a custom report around its specification: its name, its visualization and
whether it is shared.
-/

namespace TenantReports

open Change (Sets)
open Validated

/-- Whether a value is the text of a visualization. -/
def IsVisualization (v : Value) : Prop := ∃ s ∈ visualizations, v = .text s

theorem Read.choice_eq_valid {names : List String} {v : Value} {s : String} :
    choice names v = .valid s ↔ v = .text s ∧ s ∈ names := by
  unfold choice
  split
  · next given =>
      split
      · next hmem =>
          constructor
          · rintro ⟨⟩
            exact ⟨rfl, List.contains_iff_mem.mp hmem⟩
          · rintro ⟨⟨⟩, -⟩
            rfl
      · next hmem =>
          refine ⟨fun h => (nomatch h), ?_⟩
          rintro ⟨⟨⟩, hgiven⟩
          exact absurd (List.contains_iff_mem.mpr hgiven) hmem
  · next hother => exact ⟨fun h => (nomatch h), fun h => absurd h.1 (hother s)⟩

namespace Change

variable {given changes : Entries} {name old s : String}

theorem Sets.mono {Fits Fits' : Value → Prop} (hfits : ∀ v, Fits v → Fits' v)
    (h : Sets given changes Fits name) : Sets given changes Fits' name := by
  cases h with
  | kept unnamed => exact .kept unnamed
  | null asked set => exact .null asked set
  | anew fits set => exact .anew (hfits _ fits) set

/-- A text column keeps its text, or has one that fits. -/
theorem textColumn_cases {Fits : Value → Prop} (h : Sets given changes Fits name)
    (hset : textColumn changes name old = some s) :
    s = old ∧ changes.field? name = none ∨
      changes.field? name = some (.text s) ∧ Fits (.text s) := by
  unfold textColumn at hset
  cases h with
  | kept unnamed =>
      rw [unnamed] at hset
      cases hset
      exact .inl ⟨rfl, unnamed⟩
  | null asked set =>
      rw [set] at hset
      cases hset
  | anew fits set =>
      rw [set] at hset
      split at hset
      · next hnone => cases hnone
      · next hsome =>
          cases hset
          rw [Option.some.inj hsome] at fits set
          exact .inr ⟨set, fits⟩
      · cases hset

end Change

namespace CustomReportPatch

/-- What the changes of a patch say of the columns that must not be null. -/
structure SetsColumns (given changes : Entries) : Prop where
  name : Sets given changes (fun v => ∃ s, v = .text s) "name"
  visualization : Sets given changes IsVisualization "visualization_type"
  isShared : Sets given changes (fun v => ∃ b, v = .bool b) "is_shared"

theorem field?_changesOf {patch : CustomReportPatch} {given : Entries} {name : String} {form : Form}
    (hform : [("name", .orNull .text patch.name), ("description", .orNull .text patch.description),
     ("selected_columns",
       .orNull (fun cs => .list (cs.map SelectedColumn.form)) patch.selectedColumns),
     ("filters", .orNull (fun fs => .list (fs.map FilterSpec.form)) patch.filters),
     ("group_by", .orNull .texts patch.groupBy),
     ("order_by", .orNull (fun os => .list (os.map OrderSpec.form)) patch.orderBy),
     ("visualization_type", .orNull .text patch.visualization),
     ("is_shared", .orNull (fun b => .value (.bool b)) patch.isShared)].lookup name = some form) :
    (CustomReports.changesOf patch (.mapping given)).field? name =
      (given.field? name).map fun v => form.givenIn v := by
  refine (Form.field?_givenIn _).trans ?_
  rw [hform]
  cases given.field? name <;> rfl

theorem setsColumns {patch : CustomReportPatch} {v : Value} (h : read v = .valid patch) :
    SetsColumns (Form.entriesOf v) (CustomReports.changesOf patch v) := by
  unfold read Read.record at h
  split at h
  · next given =>
      obtain ⟨g₇, isShared, h₇, hshared, rfl⟩ := seq_eq_valid.mp h
      obtain ⟨g₆, visualization, h₆, hvisualization, rfl⟩ := seq_eq_valid.mp h₇
      obtain ⟨g₅, orderBy, h₅, -, rfl⟩ := seq_eq_valid.mp h₆
      obtain ⟨g₄, groupBy, h₄, -, rfl⟩ := seq_eq_valid.mp h₅
      obtain ⟨g₃, filters, h₃, -, rfl⟩ := seq_eq_valid.mp h₄
      obtain ⟨g₂, selectedColumns, h₂, -, rfl⟩ := seq_eq_valid.mp h₃
      obtain ⟨g₁, description, h₁, -, rfl⟩ := seq_eq_valid.mp h₂
      obtain ⟨name, hname, rfl⟩ := map_eq_valid.mp h₁
      refine ⟨?_, ?_, ?_⟩
      · exact Change.sets_of_form hname (fun _ s _ => ⟨s, rfl⟩) (field?_changesOf rfl)
      · refine Change.sets_of_form hvisualization ?_ (field?_changesOf rfl)
        exact fun _ s hread => ⟨s, (Read.choice_eq_valid.mp hread).2, rfl⟩
      · exact Change.sets_of_form hshared (fun _ b _ => ⟨b, rfl⟩) (field?_changesOf rfl)
  · cases h

end CustomReportPatch

namespace CustomReport

/-- The columns of a custom report that must not be null. -/
def filledNames : List String := ["name", "visualization_type", "is_shared"]

variable {given changes : Entries} {report changed : CustomReport}

theorem asked_of_change?_eq_none (hsets : CustomReportPatch.SetsColumns given changes)
    (h : report.change? changes = none) :
    ∃ name ∈ filledNames, given.field? name = some .null := by
  unfold change? at h
  cases hname : Change.textColumn changes "name" report.name with
  | none => exact ⟨"name", by decide, Change.asked_of_textColumn hsets.name hname⟩
  | some name =>
      cases hvisualization :
          Change.textColumn changes "visualization_type" report.visualization with
      | none =>
          have htext : ∀ v, IsVisualization v → ∃ s, v = .text s := fun _ ⟨s, _, heq⟩ => ⟨s, heq⟩
          exact ⟨"visualization_type", by decide,
            Change.asked_of_textColumn (hsets.visualization.mono htext) hvisualization⟩
      | some visualization =>
          cases hshared : Change.flagColumn changes "is_shared" report.isShared with
          | none =>
              exact ⟨"is_shared", by decide, Change.asked_of_flagColumn hsets.isShared hshared⟩
          | some isShared =>
              rw [hname, hvisualization, hshared] at h
              cases h

/-- A report that is changed has the name and the visualization that it had, or those that are
set. -/
theorem change?_columns (h : report.change? changes = some changed) :
    Change.textColumn changes "name" report.name = some changed.name ∧
      Change.textColumn changes "visualization_type" report.visualization =
        some changed.visualization := by
  unfold change? at h
  simp only [Option.bind_eq_bind, Option.bind_eq_some_iff] at h
  obtain ⟨name, hname, visualization, hvisualization, isShared, -, heq⟩ := h
  cases heq
  exact ⟨hname, hvisualization⟩

end CustomReport

end TenantReports
