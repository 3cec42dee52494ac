import TenantReports.Proofs.Result
import TenantReports.Proofs.Validation.Form

/-!
Specifications come back from storage as they were written, and so do those that are changed in
part: what was not changed reads the same in the document that is stored as in the one that was
checked. The predicates of the joins of a stored report are those that were written.
-/

namespace TenantReports

/-! The joins of a stored report -/

open Validated

theorem Form.itemValues_eq_map (items : List Form) : itemValues items = items.map toValue := by
  induction items with
  | nil => rfl
  | cons item items ih => rw [itemValues, ih, List.map_cons]

namespace JoinSpec

/-- The texts that a list of joins brings into a query as they are. -/
def texts (joins : List JoinSpec) : List String := joins.map (·.on.text)

theorem on_of_read_form {written join : JoinSpec}
    (h : read written.form.toValue = .valid join) : join.on.text = written.on.text := by
  obtain ⟨g₂, on, h₂, hon, rfl⟩ := seq_eq_valid.mp h
  obtain ⟨g₁, table, h₁, -, rfl⟩ := seq_eq_valid.mp h₂
  obtain ⟨type, -, rfl⟩ := map_eq_valid.mp h₁
  obtain ⟨text, htext, rfl⟩ := map_eq_valid.mp hon
  change Validated.valid written.on.text = .valid text at htext
  change String.ofList text.toList = _
  rw [String.ofList_toList, Validated.valid.inj htext]

theorem texts_of_forall₂ {written joins : List JoinSpec}
    (h : List.Forall₂ (fun v join => read v = .valid join)
      (Form.itemValues (written.map form)) joins) : texts joins = texts written := by
  rw [Form.itemValues_eq_map, List.map_map, List.forall₂_map_left_iff] at h
  exact map_eq_of_forall₂ h fun _ _ => on_of_read_form

end JoinSpec

theorem ReportSpec.texts_trustJoins (spec : ReportSpec) :
    JoinSpec.texts spec.trustJoins.joins = JoinSpec.texts spec.joins := by
  unfold trustJoins JoinSpec.texts
  rw [List.map_map]
  rfl

theorem ReportSpec.joins_of_readFields {given : Entries} {spec : ReportSpec}
    (h : readFields given = .valid spec) :
    Read.optional "joins" (Read.list JoinSpec.read) [] given = .valid spec.joins := by
  obtain ⟨g₅, orderBy, h₅, -, rfl⟩ := seq_eq_valid.mp h
  obtain ⟨g₄, groupBy, h₄, -, rfl⟩ := seq_eq_valid.mp h₅
  obtain ⟨g₃, filters, h₃, -, rfl⟩ := seq_eq_valid.mp h₄
  obtain ⟨g₂, selectedColumns, h₂, -, rfl⟩ := seq_eq_valid.mp h₃
  obtain ⟨g₁, joins, h₁, hjoins, rfl⟩ := seq_eq_valid.mp h₂
  obtain ⟨dataSources, -, rfl⟩ := map_eq_valid.mp h₁
  exact hjoins

/-- A stored report is run with the predicates that its joins were stored with. -/
theorem SpecDocument.texts_of_toSpec {document : SpecDocument} {spec written : ReportSpec}
    (h : document.toSpec = .ok spec) (hjoins : document.joins = (ofSpec written).joins) :
    JoinSpec.texts spec.joins = JoinSpec.texts written.joins := by
  unfold toSpec at h
  split at h
  · next stored hread =>
      cases h
      have hstored := ReportSpec.joins_of_readFields hread
      change ((Read.list JoinSpec.read) document.joins).under (.field "joins") = _ at hstored
      rw [hjoins] at hstored
      rw [ReportSpec.texts_trustJoins]
      exact JoinSpec.texts_of_forall₂ (Read.items_eq_valid (under_eq_valid.mp hstored))
  · cases h

/-! Specifications -/

namespace Read

variable {α : Type}

/-- Whether a part that was read is read again from its own form. -/
def Rereads (reader : Reader α) (form : α → Form) : Prop :=
  ∀ v a, reader v = .valid a → reader (form a).toValue = .valid a

theorem items_of_forall₂ {reader : Reader α} {values : List Value} {parts : List α}
    (h : List.Forall₂ (fun v part => reader v = .valid part) values parts) (index : Nat) :
    items reader index values = .valid parts := by
  induction h generalizing index with
  | nil => rfl
  | cons hfirst _ ih =>
      unfold items
      rw [hfirst, ih]
      rfl

theorem list_eq_valid {reader : Reader α} {v : Value} {parts : List α}
    (h : list reader v = .valid parts) : ∃ values,
      List.Forall₂ (fun v part => reader v = .valid part) values parts := by
  unfold list at h
  split at h
  · exact ⟨_, items_eq_valid h⟩
  · exact ⟨_, items_eq_valid h⟩
  · cases h

theorem Rereads.list {reader : Reader α} {form : α → Form} (h : Rereads reader form) :
    Rereads (list reader) fun parts => .list (parts.map form) := by
  intro v parts hread
  obtain ⟨values, hvalues⟩ := list_eq_valid hread
  change items reader 0 (Form.itemValues (parts.map form)) = _
  rw [Form.itemValues_eq_map, List.map_map]
  refine items_of_forall₂ ?_ 0
  rw [List.forall₂_map_left_iff, List.forall₂_same]
  intro part hpart
  obtain ⟨value, -, hvalue⟩ := exists_of_mem_right hvalues hpart
  exact h value part hvalue

theorem rereads_text : Rereads text .text := fun _ _ _ => rfl

/-- A list of texts, which is written without a form for each of them. -/
theorem rereads_texts : Rereads (list text) .texts := by
  intro v parts hread
  have h := rereads_text.list v parts hread
  change items text 0 (Form.itemValues (parts.map .text)) = _ at h
  rw [Form.itemValues_eq_map, List.map_map] at h
  exact h

theorem Rereads.nullable {reader : Reader α} {form : α → Form} (h : Rereads reader form)
    (hform : ∀ a, (form a).toValue ≠ .null) : Rereads (nullable reader) (Form.orNull form) := by
  intro v a hread
  cases a with
  | none => rfl
  | some a =>
      unfold Read.nullable at hread
      split at hread
      · cases hread
      · obtain ⟨a', ha, hsome⟩ := map_eq_valid.mp hread
        cases hsome
        have hagain := h v a ha
        change Read.nullable reader (form a).toValue = _
        unfold Read.nullable
        split
        · next hnull => exact absurd hnull (hform a)
        · rw [hagain]
          rfl

theorem Rereads.optional {reader : Reader α} {form : α → Form} (h : Rereads reader form)
    {name : String} {default a : α} {given : Entries}
    (hdefault : reader (form default).toValue = .valid default)
    (hread : optional name reader default given = .valid a) :
    reader (form a).toValue = .valid a := by
  unfold Read.optional at hread
  split at hread
  · exact h _ _ (under_eq_valid.mp hread)
  · cases hread
    exact hdefault

theorem Rereads.required {reader : Reader α} {form : α → Form} (h : Rereads reader form)
    {name : String} {a : α} {given : Entries} (hread : required name reader given = .valid a) :
    reader (form a).toValue = .valid a := by
  unfold Read.required at hread
  split at hread
  · exact h _ _ (under_eq_valid.mp hread)
  · cases hread

end Read

open Read (Rereads)

/-- A name of a closed set is read again where each of the names is kept. -/
theorem rereads_readName {α : Type} {ofName : String → α} {names : List String}
    {nameOf : α → String}
    (hkept : ∀ name ∈ names, nameOf (ofName name) = name) :
    Rereads (readName ofName names) fun a => .text (nameOf a) := by
  intro v a h
  unfold readName Read.choice at h
  split at h
  · next name =>
      split at h
      · next hmem =>
          cases h
          change (Read.choice names (.text (nameOf (ofName name)))).map ofName = _
          rw [hkept name (List.contains_iff_mem.mp hmem)]
          unfold Read.choice
          dsimp only
          rw [if_pos hmem]
          rfl
      · cases h
  · cases h

theorem Aggregate.name_ofName :
    ∀ name ∈ SelectedColumn.aggregateNames, (Aggregate.ofName name).name = name := by decide

theorem JoinType.name_ofName :
    ∀ name ∈ JoinSpec.typeNames, (JoinType.ofName name).name = name := by decide

theorem FilterOperator.name_ofName :
    ∀ name ∈ FilterSpec.operatorNames, (FilterOperator.ofName name).name = name := by decide

theorem SortDirection.name_ofName :
    ∀ name ∈ OrderSpec.directionNames, (SortDirection.ofName name).name = name := by decide

/-! Parts of specifications -/

theorem record_eq_valid {α : Type} {fields : Entries → Validated α} {v : Value} {a : α}
    (h : Read.record fields v = .valid a) : ∃ given, fields given = .valid a := by
  unfold Read.record at h
  split at h
  · exact ⟨_, h⟩
  · cases h

namespace SelectedColumn

theorem rereads : Rereads read form := by
  intro v selected h
  obtain ⟨given, h⟩ := record_eq_valid h
  obtain ⟨g₃, aggregate, h₃, haggregate, rfl⟩ := seq_eq_valid.mp h
  obtain ⟨g₂, label, h₂, hlabel, rfl⟩ := seq_eq_valid.mp h₃
  obtain ⟨g₁, column, h₁, -, rfl⟩ := seq_eq_valid.mp h₂
  obtain ⟨table, -, rfl⟩ := map_eq_valid.mp h₁
  have hlabel := (Read.rereads_text.nullable fun _ => nofun).optional rfl hlabel
  have haggregate := ((rereads_readName Aggregate.name_ofName).nullable fun _ => nofun).optional rfl
    haggregate
  refine seq_eq_valid.mpr ⟨_, aggregate, seq_eq_valid.mpr ⟨_, label, rfl, ?_, rfl⟩, ?_, rfl⟩
  · exact under_eq_valid.mpr hlabel
  · exact under_eq_valid.mpr haggregate

end SelectedColumn

namespace JoinSpec

theorem rereads : Rereads read form := by
  intro v join h
  obtain ⟨given, h⟩ := record_eq_valid h
  obtain ⟨g₂, on, h₂, hon, rfl⟩ := seq_eq_valid.mp h
  obtain ⟨g₁, table, h₁, -, rfl⟩ := seq_eq_valid.mp h₂
  obtain ⟨type, htype, rfl⟩ := map_eq_valid.mp h₁
  obtain ⟨text, -, rfl⟩ := map_eq_valid.mp hon
  have htype := (rereads_readName JoinType.name_ofName).required htype
  refine seq_eq_valid.mpr ⟨_, _, seq_eq_valid.mpr ⟨_, table, map_eq_valid.mpr ⟨type, ?_, rfl⟩,
    rfl, rfl⟩, map_eq_valid.mpr ⟨text, ?_, rfl⟩, rfl⟩
  · exact under_eq_valid.mpr htype
  · change Validated.valid (String.ofList text.toList) = _
    rw [String.ofList_toList]

/-- A join is written in the same way once its predicate is trusted. -/
theorem form_trust (join : JoinSpec) : form { join with on := join.on.trust } = form join := rfl

end JoinSpec

namespace FilterSpec

theorem rereads : Rereads read form := by
  intro v filter h
  obtain ⟨given, h⟩ := record_eq_valid h
  obtain ⟨g₂, value, h₂, -, rfl⟩ := seq_eq_valid.mp h
  obtain ⟨g₁, operator, h₁, hoperator, rfl⟩ := seq_eq_valid.mp h₂
  obtain ⟨column, -, rfl⟩ := map_eq_valid.mp h₁
  have hoperator := (rereads_readName FilterOperator.name_ofName).required hoperator
  refine seq_eq_valid.mpr ⟨_, value, seq_eq_valid.mpr ⟨_, operator, rfl, ?_, rfl⟩, rfl, rfl⟩
  exact under_eq_valid.mpr hoperator

end FilterSpec

namespace OrderSpec

theorem rereads : Rereads read form := by
  intro v order h
  obtain ⟨given, h⟩ := record_eq_valid h
  obtain ⟨g₁, direction, h₁, hdirection, rfl⟩ := seq_eq_valid.mp h
  obtain ⟨column, -, rfl⟩ := map_eq_valid.mp h₁
  have hdirection := (rereads_readName SortDirection.name_ofName).optional rfl hdirection
  refine seq_eq_valid.mpr ⟨_, direction, rfl, ?_, rfl⟩
  exact under_eq_valid.mpr hdirection

end OrderSpec

/-! Documents -/

namespace SpecDocument

/-- Whether a specification, with nobody's trusted work in it, is what the parts of a document
read as. -/
structure Holds (document : SpecDocument) (spec : ReportSpec) : Prop where
  dataSources : Read.list Read.text document.dataSources = .valid spec.dataSources
  joins : Read.list JoinSpec.read document.joins = .valid spec.joins
  selectedColumns :
    Read.list SelectedColumn.read document.selectedColumns = .valid spec.selectedColumns
  filters : Read.list FilterSpec.read document.filters = .valid spec.filters
  groupBy : Read.list Read.text document.groupBy = .valid spec.groupBy
  orderBy : Read.list OrderSpec.read document.orderBy = .valid spec.orderBy

theorem read_eq_valid {document : SpecDocument} {spec : ReportSpec} :
    ReportSpec.read (.mapping document.entries) = .valid spec ↔ document.Holds spec := by
  constructor
  · intro h
    obtain ⟨g₅, orderBy, h₅, horder, rfl⟩ := seq_eq_valid.mp h
    obtain ⟨g₄, groupBy, h₄, hgroup, rfl⟩ := seq_eq_valid.mp h₅
    obtain ⟨g₃, filters, h₃, hfilters, rfl⟩ := seq_eq_valid.mp h₄
    obtain ⟨g₂, selectedColumns, h₂, hselected, rfl⟩ := seq_eq_valid.mp h₃
    obtain ⟨g₁, joins, h₁, hjoins, rfl⟩ := seq_eq_valid.mp h₂
    obtain ⟨dataSources, hsources, rfl⟩ := map_eq_valid.mp h₁
    exact ⟨under_eq_valid.mp hsources, under_eq_valid.mp hjoins, under_eq_valid.mp hselected,
      under_eq_valid.mp hfilters, under_eq_valid.mp hgroup, under_eq_valid.mp horder⟩
  · intro h
    exact seq_eq_valid.mpr ⟨_, _, seq_eq_valid.mpr ⟨_, _, seq_eq_valid.mpr ⟨_, _,
      seq_eq_valid.mpr ⟨_, _, seq_eq_valid.mpr ⟨_, _, map_eq_valid.mpr ⟨_,
        under_eq_valid.mpr h.dataSources, rfl⟩, under_eq_valid.mpr h.joins, rfl⟩,
        under_eq_valid.mpr h.selectedColumns, rfl⟩, under_eq_valid.mpr h.filters, rfl⟩,
        under_eq_valid.mpr h.groupBy, rfl⟩, under_eq_valid.mpr h.orderBy, rfl⟩

theorem toSpec_eq_ok {document : SpecDocument} {spec : ReportSpec} :
    document.toSpec = .ok spec ↔ ∃ raw, document.Holds raw ∧ raw.trustJoins = spec := by
  unfold toSpec
  constructor
  · intro h
    split at h
    · next raw hread =>
        cases h
        exact ⟨raw, read_eq_valid.mp hread, rfl⟩
    · cases h
  · rintro ⟨raw, hholds, rfl⟩
    rw [read_eq_valid.mpr hholds]

theorem ofSpec_trustJoins (spec : ReportSpec) : ofSpec spec.trustJoins = ofSpec spec := by
  have hjoins : (spec.joins.map fun join => { join with on := join.on.trust }).map JoinSpec.form =
      spec.joins.map JoinSpec.form := by
    rw [List.map_map]
    exact List.map_congr_left fun join _ => JoinSpec.form_trust join
  unfold ofSpec ReportSpec.trustJoins
  dsimp only
  rw [hjoins]

/-- What a document reads as is written to a document that reads as the same. -/
theorem Holds.ofSpec {document : SpecDocument} {spec : ReportSpec} (h : document.Holds spec) :
    (SpecDocument.ofSpec spec).Holds spec :=
  ⟨Read.rereads_texts _ _ h.dataSources, JoinSpec.rereads.list _ _ h.joins,
    SelectedColumn.rereads.list _ _ h.selectedColumns, FilterSpec.rereads.list _ _ h.filters,
    Read.rereads_texts _ _ h.groupBy, OrderSpec.rereads.list _ _ h.orderBy⟩

/-- What was read from a request is written to a document that reads as the same. -/
theorem holds_of_readFields {given : Entries} {spec : ReportSpec}
    (h : ReportSpec.readFields given = .valid spec) : (ofSpec spec).Holds spec := by
  obtain ⟨g₅, orderBy, h₅, horder, rfl⟩ := seq_eq_valid.mp h
  obtain ⟨g₄, groupBy, h₄, hgroup, rfl⟩ := seq_eq_valid.mp h₅
  obtain ⟨g₃, filters, h₃, hfilters, rfl⟩ := seq_eq_valid.mp h₄
  obtain ⟨g₂, selectedColumns, h₂, hselected, rfl⟩ := seq_eq_valid.mp h₃
  obtain ⟨g₁, joins, h₁, hjoins, rfl⟩ := seq_eq_valid.mp h₂
  obtain ⟨dataSources, hsources, rfl⟩ := map_eq_valid.mp h₁
  exact ⟨Read.rereads_texts.required hsources, JoinSpec.rereads.list.optional rfl hjoins,
    SelectedColumn.rereads.list.required hselected, FilterSpec.rereads.list.optional rfl hfilters,
    Read.rereads_texts.optional rfl hgroup, OrderSpec.rereads.list.optional rfl horder⟩

theorem toSpec_ofSpec {given : Entries} {spec : ReportSpec}
    (h : ReportSpec.readFields given = .valid spec) : (ofSpec spec).toSpec = .ok spec.trustJoins :=
  toSpec_eq_ok.mpr ⟨spec, holds_of_readFields h, rfl⟩

theorem toSpec_of_draft {v : Value} {draft : CustomReportDraft}
    (h : CustomReportDraft.read v = .valid draft) :
    (ofSpec draft.spec).toSpec = .ok draft.spec.trustJoins := by
  obtain ⟨given, h⟩ := record_eq_valid h
  obtain ⟨g₅, isShared, h₅, -, rfl⟩ := seq_eq_valid.mp h
  obtain ⟨g₄, roles, h₄, -, rfl⟩ := seq_eq_valid.mp h₅
  obtain ⟨g₃, visualization, h₃, -, rfl⟩ := seq_eq_valid.mp h₄
  obtain ⟨g₂, description, h₂, -, rfl⟩ := seq_eq_valid.mp h₃
  obtain ⟨g₁, name, h₁, -, rfl⟩ := seq_eq_valid.mp h₂
  obtain ⟨spec, hspec, rfl⟩ := map_eq_valid.mp h₁
  exact toSpec_ofSpec hspec

/-- A part that is changed reads the same in all documents, and one that is not reads as before. -/
theorem read_documentColumn {α : Type} {reader : Reader α} {changes : Entries} {name : String}
    {old other : Value} {a b : α} (hold : reader old = .valid a) (hother : reader other = .valid a)
    (h : reader (Change.documentColumn changes name other) = .valid b) :
    reader (Change.documentColumn changes name old) = .valid b := by
  unfold Change.documentColumn at h ⊢
  cases hchange : changes.field? name with
  | some v =>
      rw [hchange] at h
      exact h
  | none =>
      rw [hchange] at h
      exact hold.trans (hother.symm.trans h)

/-- A stored document that is changed in part is the specification that was checked, which came
from its own specification by the same changes. -/
theorem toSpec_change {document : SpecDocument} {old spec : ReportSpec} {changes : Entries}
    (hold : document.toSpec = .ok old) (h : ((ofSpec old).change changes).toSpec = .ok spec) :
    (document.change changes).toSpec = .ok spec := by
  obtain ⟨raw, hraw, rfl⟩ := toSpec_eq_ok.mp hold
  rw [ofSpec_trustJoins] at h
  obtain ⟨changed, hchanged, rfl⟩ := toSpec_eq_ok.mp h
  have hsame := hraw.ofSpec
  refine toSpec_eq_ok.mpr ⟨changed, ⟨?_, ?_, ?_, ?_, ?_, ?_⟩, rfl⟩
  · exact hraw.dataSources.trans (hsame.dataSources.symm.trans hchanged.dataSources)
  · exact hraw.joins.trans (hsame.joins.symm.trans hchanged.joins)
  · exact read_documentColumn hraw.selectedColumns hsame.selectedColumns hchanged.selectedColumns
  · exact read_documentColumn hraw.filters hsame.filters hchanged.filters
  · exact read_documentColumn hraw.groupBy hsame.groupBy hchanged.groupBy
  · exact read_documentColumn hraw.orderBy hsame.orderBy hchanged.orderBy

/-- Changes that touch no part leave the document as it is. -/
theorem change_of_not_isChangedBy {document : SpecDocument} {changes : Entries}
    (h : isChangedBy changes = false) : document.change changes = document := by
  have hnone : ∀ name ∈ changeable, changes.field? name = none := by
    intro name hname
    simpa using List.any_eq_false.mp h name hname
  unfold change Change.documentColumn
  rw [hnone "selected_columns" (by decide), hnone "filters" (by decide),
    hnone "group_by" (by decide), hnone "order_by" (by decide)]
  rfl

end SpecDocument

end TenantReports
