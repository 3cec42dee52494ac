import TenantReports.Proofs.Tenant.Provisioning

/-!
Schema names made from the names of schools. Each of them is an identifier of one form, which tells
the runs of letters and digits in the name of the school and nothing else. Requests could ask for it
by name as long as it is not too long for them, as those of short names never are.
-/

namespace TenantReports

/-- Where none of the parts is empty, single separators at most double the length. -/
theorem length_intercalate_le {α : Type} (separator : α) {parts : List (List α)}
    (h : ∀ part ∈ parts, part ≠ []) :
    ([separator].intercalate parts).length ≤ 2 * parts.flatten.length := by
  induction parts with
  | nil => exact Nat.le_refl 0
  | cons first rest ih =>
      rw [List.forall_mem_cons] at h
      have hfirst := List.length_pos_iff.mpr h.1
      cases rest with
      | nil =>
          rw [List.intercalate_singleton, List.flatten_singleton]
          omega
      | cons second rest =>
          have hrest := ih h.2
          rw [List.intercalate_cons_cons, List.flatten_cons]
          simp only [List.length_append, List.length_singleton]
          omega

namespace Slug

theorem length_filter_lower_le (c : Char) : ((lower c).filter isSlugChar).length ≤ 1 := by
  unfold lower
  split
  · decide
  · split
    · decide
    · exact List.length_filter_le _ _

/-- A character makes at most one letter or digit, and at most one underscore stands before it. -/
theorem length_body_le (name : List Char) : (body name).length ≤ 2 * name.length := by
  have hkept : ((name.flatMap lower).filter isSlugChar).length ≤ name.length := by
    induction name with
    | nil => exact Nat.le_refl 0
    | cons c name ih =>
        have hfirst := length_filter_lower_le c
        rw [List.flatMap_cons, List.filter_append, List.length_append, List.length_cons]
        omega
  calc (body name).length
      ≤ 2 * (Text.runs isSlugChar (name.flatMap lower)).flatten.length :=
        length_intercalate_le '_' fun _ => Text.ne_nil_of_mem_runs
    _ = 2 * ((name.flatMap lower).filter isSlugChar).length := by rw [Text.flatten_runs]
    _ ≤ 2 * name.length := Nat.mul_le_mul_left 2 hkept

theorem isNameChar_of_isSlugChar {c : Char} (h : isSlugChar c = true) :
    Sql.isNameChar c = true := by
  apply Bool.or_eq_true_iff.mpr
  left
  apply Bool.or_eq_true_iff.mpr
  rcases Bool.or_eq_true_iff.mp h with hletter | hdigit
  · left
    have hlower : c.isLower = true := hletter
    exact Bool.or_eq_true_iff.mpr (.inr hlower)
  · right
    exact hdigit

theorem isNameChar_of_mem_body {name : List Char} {c : Char} (h : c ∈ body name) :
    Sql.isNameChar c = true := by
  rcases (isSeparated_body name).chars c h with hkept | rfl
  · exact isNameChar_of_isSlugChar hkept
  · decide

end Slug

theorem toList_schemaSlug (name : String) :
    (schemaSlug name).toList = "tenant_".toList ++ Slug.body name.toList := by
  unfold schemaSlug
  rw [String.toList_append]
  exact congrArg ("tenant_".toList ++ ·) String.toList_ofList

theorem isIdentifier_schemaSlug (name : String) : Sql.isIdentifier (schemaSlug name) = true := by
  have hfront : ∀ c ∈ "tenant_".toList, Sql.isNameChar c = true :=
    List.all_eq_true.mp (by decide)
  rw [Sql.isIdentifier_iff]
  constructor
  · intro hnil
    have hlist := toList_schemaSlug name
    rw [hnil] at hlist
    cases hlist
  · intro c hc
    rw [toList_schemaSlug] at hc
    rcases List.mem_append.mp hc with hc | hc
    · exact hfront c hc
    · exact Slug.isNameChar_of_mem_body hc

theorem length_schemaSlug_le (name : String) :
    (schemaSlug name).length ≤ 2 * name.length + 7 := by
  have hbody := Slug.length_body_le name.toList
  have hfront : "tenant_".toList.length = 7 := by decide
  rw [← String.length_toList, ← String.length_toList, toList_schemaSlug, List.length_append]
  omega

/-! Small forms -/

namespace Slug

variable {c : Char} {name small form : List Char}

/-- What can stand for a character in small letters. ASCII characters have one small form, and so
have the dotted capital I and the Kelvin sign, as theirs hold ASCII letters. The small form of any
other character holds none; which one it is may depend on the text around it, as for the Greek
sigma. -/
def IsSmallOf (c : Char) (form : List Char) : Prop :=
  if c.toNat < 128 ∨ c = '\u0130' ∨ c = '\u212a' then form = lower c
  else form ≠ [] ∧ ∀ d ∈ form, 128 ≤ d.toNat

instance (c : Char) (form : List Char) : Decidable (IsSmallOf c form) :=
  have : Decidable (∀ d ∈ form, 128 ≤ d.toNat) := List.decidableBAll _ form
  inferInstanceAs (Decidable (ite _ _ _))

/-- A text in small letters, character by character. -/
def IsSmallForm (name small : List Char) : Prop :=
  ∃ forms, List.Forall₂ IsSmallOf name forms ∧ small = forms.flatten

theorem isSlugChar_of_le_toNat (h : 128 ≤ c.toNat) : isSlugChar c = false := by
  refine Bool.eq_false_iff.mpr fun hc => Nat.not_lt.mpr h ?_
  simp only [isSlugChar, Bool.or_eq_true, Bool.and_eq_true, decide_eq_true_eq] at hc
  rcases hc with ⟨-, hc⟩ | ⟨-, hc⟩
  · exact Nat.lt_of_le_of_lt hc (by decide)
  · exact Nat.lt_of_le_of_lt hc (by decide)

theorem isUpper_of_le_toNat (h : 128 ≤ c.toNat) : c.isUpper = false := by
  refine Bool.eq_false_iff.mpr fun hc => Nat.not_lt.mpr h ?_
  exact Nat.lt_of_le_of_lt (of_decide_eq_true hc).2 (by decide)

theorem isAlphanum_of_not_isUpper (h : c.isUpper = false) : c.isAlphanum = isSlugChar c := by
  unfold Char.isAlphanum Char.isAlpha
  rw [h, Bool.false_or]
  rfl

theorem isUpper_toLower (c : Char) : c.toLower.isUpper = false := by
  refine decide_eq_false ?_
  unfold Char.toLower
  split
  · next h =>
      simp only [ge_iff_le, UInt32.le_iff_toNat_le] at h ⊢
      rw [UInt32.toNat_add]
      grind
  · next h => exact h

theorem isUpper_of_mem_lower {d : Char} (h : d ∈ lower c) : d.isUpper = false := by
  unfold lower at h
  split at h
  · rw [List.mem_pair] at h
    rcases h with rfl | rfl
    · rfl
    · rfl
  · split at h
    · rw [List.mem_singleton.mp h]
      rfl
    · rw [List.mem_singleton.mp h]
      exact isUpper_toLower c

theorem lower_of_le_toNat (h : 128 ≤ c.toNat) (hdotted : c ≠ '\u0130') (hkelvin : c ≠ '\u212a') :
    lower c = [c] := by
  have hsmall : c.toLower = c := dif_neg (of_decide_eq_false (isUpper_of_le_toNat h))
  unfold lower
  rw [if_neg hdotted, if_neg hkelvin, hsmall]

theorem lower_of_isSlugChar (h : isSlugChar c = true) : lower c = [c] := by
  unfold lower
  rw [if_neg, if_neg, toLower_of_isSlugChar h]
  · rintro rfl
    exact absurd h (by decide)
  · rintro rfl
    exact absurd h (by decide)

theorem isSmallOf_lower (c : Char) : IsSmallOf c (lower c) := by
  unfold IsSmallOf
  split
  · rfl
  · next h =>
      simp only [not_or, Nat.not_lt] at h
      rw [lower_of_le_toNat h.1 h.2.1 h.2.2]
      exact ⟨List.cons_ne_nil c [], List.forall_mem_singleton.mpr h.1⟩

/-- Every text can be written in small letters. -/
theorem isSmallForm_lower (name : List Char) : IsSmallForm name (name.flatMap lower) := by
  refine ⟨name.map lower, ?_, List.flatMap_def⟩
  rw [List.forall₂_map_right_iff, List.forall₂_same]
  exact fun c _ => isSmallOf_lower c

theorem IsSmallOf.isUpper {d : Char} (h : IsSmallOf c form) (hd : d ∈ form) :
    d.isUpper = false := by
  unfold IsSmallOf at h
  split at h
  · exact isUpper_of_mem_lower (h ▸ hd)
  · exact isUpper_of_le_toNat (h.2 d hd)

/-- No letters and digits are in a form that is not the only one. -/
theorem IsSmallOf.eq_lower_or_isGap (h : IsSmallOf c form) :
    form = lower c ∨ Text.IsGap isSlugChar form ∧ Text.IsGap isSlugChar (lower c) := by
  unfold IsSmallOf at h
  split at h
  · exact .inl h
  · next hbeyond =>
      simp only [not_or, Nat.not_lt] at hbeyond
      rw [lower_of_le_toNat hbeyond.1 hbeyond.2.1 hbeyond.2.2]
      exact .inr ⟨⟨h.1, fun d hd => isSlugChar_of_le_toNat (h.2 d hd)⟩,
        Text.isGap_singleton (isSlugChar_of_le_toNat hbeyond.1)⟩

theorem IsSmallForm.alike (h : IsSmallForm name small) :
    Text.Alike isSlugChar (name.flatMap lower) small := by
  obtain ⟨forms, hforms, rfl⟩ := h
  induction hforms with
  | nil => exact ⟨rfl, rfl⟩
  | cons hform _ ih =>
      rw [List.flatMap_cons, List.flatten_cons]
      rcases hform.eq_lower_or_isGap with rfl | ⟨hgap, hgap'⟩
      · exact ih.append_left _
      · exact ih.gap hgap' hgap

theorem IsSmallForm.isUpper (h : IsSmallForm name small) : ∀ d ∈ small, d.isUpper = false := by
  obtain ⟨forms, hforms, rfl⟩ := h
  induction hforms with
  | nil => exact List.forall_mem_nil _
  | cons hform _ ih =>
      rw [List.flatten_cons, List.forall_mem_append]
      exact ⟨fun d hd => hform.isUpper hd, ih⟩

/-- The runs of letters and digits do not depend on the small forms of other characters. -/
theorem IsSmallForm.runs_eq (h : IsSmallForm name small) :
    Text.runs isSlugChar (name.flatMap lower) = Text.runs Char.isAlphanum small := by
  rw [h.alike.runs_eq]
  exact Text.runs_congr fun d hd => (isAlphanum_of_not_isUpper (h.isUpper d hd)).symm

/-! The form of names -/

/-- Letters and digits in small form with single underscores between them are left as they are. -/
theorem body_of_isSeparated (h : Text.IsSeparated isSlugChar '_' name) : body name = name := by
  have hlower : name.flatMap lower = name := by
    have hkept : ∀ c ∈ name, lower c = [c] := by
      intro c hc
      rcases h.chars c hc with hkept | rfl
      · exact lower_of_isSlugChar hkept
      · decide
    rw [List.flatMap_congr hkept, List.flatMap_singleton']
  unfold body
  rw [hlower, h.intercalate_runs isSlugChar_underscore]

theorem body_eq_iff {other : List Char} : body name = body other ↔
    Text.runs isSlugChar (name.flatMap lower) = Text.runs isSlugChar (other.flatMap lower) := by
  have hruns : ∀ cs, Text.runs isSlugChar (body cs) = Text.runs isSlugChar (cs.flatMap lower) :=
    fun _ => Text.runs_intercalate isSlugChar_underscore fun _ => Text.isRun_of_mem_runs
  constructor
  · intro h
    rw [← hruns name, ← hruns other, h]
  · intro h
    unfold body
    rw [h]

end Slug

/-- Behind the front stands what is left of the name in small letters when an underscore replaces
whatever stands between letters and digits, and underscores at the ends are dropped. -/
theorem schemaSlug_eq_strip {name : String} {small : List Char}
    (h : Slug.IsSmallForm name.toList small) :
    schemaSlug name = "tenant_" ++
      String.ofList (Text.strip (· == '_') (Text.separate Slug.isSlugChar '_' small)) := by
  rw [Text.strip_separate Slug.isSlugChar_underscore, ← h.alike.runs_eq]
  rfl

theorem schemaSlug_eq_iff {name other : String} :
    schemaSlug name = schemaSlug other ↔ Slug.body name.toList = Slug.body other.toList := by
  rw [← String.toList_inj, toList_schemaSlug, toList_schemaSlug, List.append_cancel_left_eq]

/-- Schema names have one form: behind the front there are letters and digits in small form, with
single underscores between them, and from these the same schema name is made again. They are
identifiers. Two names of schools lead to the same one exactly when they have, in small letters,
the same runs of letters and digits. -/
theorem schemaSlug_canonical (name : String) :
    (∃ body : String, schemaSlug name = "tenant_" ++ body ∧
      Text.IsSeparated Slug.isSlugChar '_' body.toList ∧ schemaSlug body = schemaSlug name) ∧
    Sql.requireIdentifier (schemaSlug name) = .ok () ∧
    (∃ small, Slug.IsSmallForm name.toList small) ∧
    ∀ (other : String) (small small' : List Char),
      Slug.IsSmallForm name.toList small → Slug.IsSmallForm other.toList small' →
      (schemaSlug name = schemaSlug other ↔
        Text.runs Char.isAlphanum small = Text.runs Char.isAlphanum small') := by
  refine ⟨⟨String.ofList (Slug.body name.toList), rfl, ?_, ?_⟩,
    if_pos (isIdentifier_schemaSlug name), ⟨_, Slug.isSmallForm_lower name.toList⟩, ?_⟩
  · rw [String.toList_ofList]
    exact Slug.isSeparated_body name.toList
  · rw [schemaSlug_eq_iff, String.toList_ofList]
    exact Slug.body_of_isSeparated (Slug.isSeparated_body name.toList)
  · intro other small small' hsmall hsmall'
    rw [schemaSlug_eq_iff, Slug.body_eq_iff, hsmall.runs_eq, hsmall'.runs_eq]

/-- The Kelvin sign is read as the letter, and a letter with an accent as no letter at all. -/
theorem schemaSlug_canonical_of_accent :
    Slug.IsSmallForm "\u212A.\u00C9C".toList "k.\u00E9c".toList ∧
      Slug.IsSmallForm "_K c".toList "_k c".toList ∧
      schemaSlug "\u212A.\u00C9C" = schemaSlug "_K c" := by
  have hsmall : Slug.IsSmallForm "\u212A.\u00C9C".toList "k.\u00E9c".toList :=
    ⟨[['k'], ['.'], ['\u00E9'], ['c']],
      .cons (by decide) (.cons (by decide) (.cons (by decide) (.cons (by decide) .nil))), rfl⟩
  have hother : Slug.IsSmallForm "_K c".toList "_k c".toList :=
    ⟨[['_'], ['k'], [' '], ['c']],
      .cons (by decide) (.cons (by decide) (.cons (by decide) (.cons (by decide) .nil))), rfl⟩
  obtain ⟨-, -, -, hsame⟩ := schemaSlug_canonical "\u212A.\u00C9C"
  exact ⟨hsmall, hother, (hsame "_K c" _ _ hsmall hother).mpr (by decide +kernel)⟩

/-! Names that requests could ask for -/

theorem Read.ruledText_text (rule : TextRule) (s : String) :
    ruledText rule (.text s) =
      if s.length < rule.minLength then Validated.issue .textTooShort
      else if rule.maxLength.any fun limit => limit < s.length then Validated.issue .textTooLong
      else if rule.pattern s.toList then .valid s
      else Validated.issue .textPattern := by
  rfl

namespace TenantDraft

/-- Whether requests may ask for a schema by a name. -/
def MayAskFor (schemaName : String) : Prop :=
  Read.ruledText schemaRule (.text schemaName) = .valid schemaName

theorem mayAskFor_iff {schemaName : String} :
    MayAskFor schemaName ↔ Sql.isIdentifier schemaName = true ∧ schemaName.length ≤ 63 := by
  have hpattern : schemaRule.pattern schemaName.toList = true ↔
      Sql.isIdentifier schemaName = true := by
    rw [Sql.isIdentifier_iff]
    simp [schemaRule]
  have hlong : (schemaRule.maxLength.any fun limit => limit < schemaName.length) = true ↔
      63 < schemaName.length := decide_eq_true_iff
  have hleast : ¬ schemaName.length < schemaRule.minLength := Nat.not_lt_zero _
  unfold MayAskFor
  rw [Read.ruledText_text, if_neg hleast, ← hpattern]
  split
  · next h =>
      have hlength := hlong.mp h
      constructor
      · intro hvalid
        cases hvalid
      · rintro ⟨-, hfits⟩
        omega
  · next h =>
      rw [hlong, Nat.not_lt] at h
      split
      · next hnamed => exact ⟨fun _ => ⟨hnamed, h⟩, fun _ => rfl⟩
      · next hunnamed =>
          constructor
          · intro hvalid
            cases hvalid
          · rintro ⟨hnamed, -⟩
            exact absurd hnamed hunnamed

end TenantDraft

namespace Exchange

variable {settings : Settings} {before : List Exchange} {e : Exchange} {draft : TenantDraft}

theorem ProvisionEnds.row_of_enters (h : e.ProvisionEnds)
    (written : e.request.readBody TenantDraft.read = .valid draft)
    (enters : draft.MayEnter e.met.database) :
    ∃ row, e.left.database.tenants = e.met.database.tenants ++ [row] ∧
      row.schemaName = draft.schemaFor := by
  cases h with
  | refused barred _ _ => exact absurd enters (barred draft written)
  | ready written' _ _ isReady entered =>
      cases written.symm.trans written'
      exact ⟨_, entered, isReady ▸ rfl⟩
  | failed written' _ _ _ isFailed entered =>
      cases written.symm.trans written'
      exact ⟨_, entered, isFailed ▸ rfl⟩

/-- A new tenant that asks for no schema by name is stored with the name that is made from its own,
or not at all. The name is an identifier, and requests could ask for it unless it has more than 63
characters, which those of at most 28 characters never lead to. -/
theorem derived_schemaName (h : History settings before e.met.database)
    (asks : e.request.Asks .provisionTenant)
    (written : e.request.readBody TenantDraft.read = .valid draft)
    (derived : draft.schemaName = none) :
    (draft.MayEnter e.met.database →
      ∃ row, e.left.database.tenants = e.met.database.tenants ++ [row] ∧
        row.schemaName = schemaSlug draft.name) ∧
    (¬ draft.MayEnter e.met.database → e.left.database.tenants = e.met.database.tenants) ∧
    schemaSlug draft.name ≠ "" ∧
    (∀ c ∈ (schemaSlug draft.name).toList, Sql.isNameChar c = true) ∧
    (TenantDraft.MayAskFor (schemaSlug draft.name) ↔ (schemaSlug draft.name).length ≤ 63) ∧
    (draft.name.length ≤ 28 → (schemaSlug draft.name).length ≤ 63) := by
  have hends := e.provisionEnds asks h.schemasApart.numbered
  have hname : draft.schemaFor = schemaSlug draft.name := by
    unfold TenantDraft.schemaFor Directory.schemaNameFor
    rw [derived]
    rfl
  obtain ⟨hne, hchars⟩ := Sql.isIdentifier_iff.mp (isIdentifier_schemaSlug draft.name)
  refine ⟨fun henters => ?_, fun hbarred => ?_, hne, hchars, ?_, fun hshort => ?_⟩
  · rw [← hname]
    exact hends.row_of_enters written henters
  · exact hends.kept_of_barred written hbarred
  · rw [TenantDraft.mayAskFor_iff]
    exact and_iff_right (isIdentifier_schemaSlug draft.name)
  · have hlength := length_schemaSlug_le draft.name
    omega

theorem readBody_toProvision {name : String} (hleast : 1 ≤ name.length)
    (hmost : name.length ≤ 200) :
    (ApiRequest.toProvision name).readBody TenantDraft.read = .valid ⟨name, none, none⟩ := by
  have hname : Read.ruledText { minLength := 1, maxLength := some 200 } (.text name) =
      .valid name := by
    rw [Read.ruledText_text, if_neg (Nat.not_lt.mpr hleast), if_neg, if_pos rfl]
    simpa using hmost
  have hread : TenantDraft.read (.record [("name", .text name)]) = .valid ⟨name, none, none⟩ := by
    change Validated.seq (Validated.seq (Validated.map _ (Validated.under _
      (Read.ruledText _ _))) _) _ = _
    rw [hname]
    rfl
  unfold ApiRequest.readBody ApiRequest.toProvision
  dsimp only
  rw [hread]

/-- A school is provisioned under a name that is made from its own, and by which requests could have
asked for it. -/
theorem derived_schemaName_of_kelvin :
    let start := Platform.new (.ofMigrations "migrations") ⟨⟨2024, 5, 1⟩, ⟨9, 0, 0, 0⟩, .offset 0⟩
    let e : Exchange := ⟨.toProvision "Lord \u212Aelvin's", start⟩
    (∃ row, e.left.database.tenants = [row] ∧ row.schemaName = "tenant_lord_kelvin_s") ∧
      TenantDraft.MayAskFor "tenant_lord_kelvin_s" := by
  intro start e
  let draft : TenantDraft := ⟨"Lord \u212Aelvin's", none, none⟩
  have hwritten : e.request.readBody TenantDraft.read = .valid draft :=
    readBody_toProvision (by decide) (by decide)
  have hname : schemaSlug draft.name = "tenant_lord_kelvin_s" := by decide +kernel
  obtain ⟨hstored, -, -, -, hasked, hshort⟩ :=
    @derived_schemaName (.ofMigrations "migrations") [] e draft .start ⟨"", by decide +kernel⟩
      hwritten rfl
  rw [hname] at hstored hasked hshort
  refine ⟨hstored (.of_empty ?_), hasked.mpr (hshort (by decide))⟩
  exact isIdentifier_schemaSlug draft.name

/-- A name of 57 letters is accepted, and leads to the name of a schema that requests could not ask
for. -/
theorem derived_schemaName_too_long :
    let name := "aaaaaaaaaaaaaaaaaaaaaaaaaaaaaaaaaaaaaaaaaaaaaaaaaaaaaaaaa"
    let start := Platform.new (.ofMigrations "migrations") ⟨⟨2024, 5, 1⟩, ⟨9, 0, 0, 0⟩, .offset 0⟩
    let e : Exchange := ⟨.toProvision name, start⟩
    e.request.Asks .provisionTenant ∧
      e.request.readBody TenantDraft.read = .valid ⟨name, none, none⟩ ∧
      e.left.database.tenants.map (·.schemaName) = [schemaSlug name] ∧
      (schemaSlug name).length = 64 ∧ ¬ TenantDraft.MayAskFor (schemaSlug name) := by
  intro name start e
  have hlength : (schemaSlug name).length = 64 := by decide +kernel
  refine ⟨⟨"", by decide +kernel⟩, readBody_toProvision (by decide) (by decide),
    by decide +kernel, hlength, fun hasked => ?_⟩
  have hfits := (TenantDraft.mayAskFor_iff.mp hasked).2
  omega

end Exchange

end TenantReports
