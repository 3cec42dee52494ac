import Mathlib.Data.List.Chain
import Mathlib.Data.List.DropRight
import Mathlib.Data.List.TakeWhile
import TenantReports.Text.Basic

/-!
Runs of characters of one class. A run ends before the first character of another class. A text of
runs with single separators between them is determined by its runs, and every text becomes one with
the same runs when a separator takes the place of all that stands between two runs, and nothing is
left in front of the first one and behind the last.
-/

namespace TenantReports.Text

variable {p : Char → Bool} {run rest : List Char}

/-- What follows a run does not belong to it. -/
def Stops (p : Char → Bool) (rest : List Char) : Prop := ∀ c ∈ rest.head?, p c = false

theorem stops_nil (p : Char → Bool) : Stops p [] := fun _ hc => nomatch hc

theorem stops_cons {c : Char} (h : p c = false) (cs : List Char) : Stops p (c :: cs) := by
  intro d hd
  rw [List.head?_cons, Option.mem_some_iff] at hd
  rwa [← hd]

theorem stops_append {cs : List Char} (hcs : ∀ c ∈ cs, p c = false) (h : Stops p rest) :
    Stops p (cs ++ rest) := by
  cases cs with
  | nil => exact h
  | cons c cs => exact stops_cons (hcs c List.mem_cons_self) _

theorem Stops.takeWhile_eq (h : Stops p rest) : rest.takeWhile p = [] := by
  cases rest with
  | nil => rfl
  | cons c cs => exact List.takeWhile_cons_of_neg (Bool.eq_false_iff.mp (h c rfl))

theorem Stops.dropWhile_eq (h : Stops p rest) : rest.dropWhile p = rest := by
  cases rest with
  | nil => rfl
  | cons c cs => exact List.dropWhile_cons_of_neg (Bool.eq_false_iff.mp (h c rfl))

theorem stops_dropWhile (p : Char → Bool) (cs : List Char) : Stops p (cs.dropWhile p) := by
  induction cs with
  | nil => exact fun _ hc => nomatch hc
  | cons c cs ih =>
      rw [List.dropWhile_cons]
      split
      · exact ih
      · next hc => exact stops_cons (Bool.not_eq_true _ ▸ hc) cs

theorem takeWhile_run (hrun : ∀ c ∈ run, p c = true) (h : Stops p rest) :
    (run ++ rest).takeWhile p = run := by
  rw [List.takeWhile_append_of_pos hrun, h.takeWhile_eq, List.append_nil]

theorem dropWhile_run (hrun : ∀ c ∈ run, p c = true) (h : Stops p rest) :
    (run ++ rest).dropWhile p = rest := by
  rw [List.dropWhile_append_of_pos hrun, h.dropWhile_eq]

/-! Stripping -/

/-- Drops the characters of a class at both ends. -/
def strip (p : Char → Bool) (cs : List Char) : List Char := (cs.dropWhile p).rdropWhile p

theorem exists_eq_strip (p : Char → Bool) (cs : List Char) :
    ∃ before behind, cs = before ++ (strip p cs ++ behind) ∧ (∀ c ∈ before, p c = true) ∧
      ∀ c ∈ behind, p c = true := by
  refine ⟨cs.takeWhile p, (cs.dropWhile p).rtakeWhile p, ?_, fun c hc => ?_, fun c hc => ?_⟩
  · rw [strip, List.rdropWhile_append_rtakeWhile, List.takeWhile_append_dropWhile]
  · exact List.mem_takeWhile_imp hc
  · exact List.mem_rtakeWhile_imp hc

theorem stops_strip (p : Char → Bool) (cs : List Char) : Stops p (strip p cs) := by
  intro c hc
  obtain ⟨behind, hbehind⟩ := List.rdropWhile_prefix p (cs.dropWhile p)
  apply stops_dropWhile p cs c
  rw [← hbehind]
  exact List.mem_head?_append_of_mem_head? hc

theorem not_of_mem_getLast?_strip (p : Char → Bool) (cs : List Char) :
    ∀ c ∈ (strip p cs).getLast?, p c = false := by
  intro c hc
  unfold strip List.rdropWhile at hc
  rw [List.getLast?_reverse] at hc
  exact stops_dropWhile p _ c hc

/-! Maximal runs -/

variable {keep : Char → Bool} {separator c : Char} {cs ds : List Char} {parts : List (List Char)}

theorem flatten_runs (keep : Char → Bool) (cs : List Char) :
    (runs keep cs).flatten = cs.filter keep := by
  induction cs with
  | nil => rfl
  | cons c cs ih =>
      unfold runs
      split
      · next hkept =>
          rw [List.filter_cons_of_pos hkept, ← ih]
          split
          · next hruns =>
              rw [hruns]
              split
              · rfl
              · rfl
          · rfl
      · next hdropped => rw [List.filter_cons_of_neg hdropped, ih]

theorem ne_nil_of_mem_runs (h : run ∈ runs keep cs) : run ≠ [] := by
  induction cs generalizing run with
  | nil => exact nomatch h
  | cons c cs ih =>
      unfold runs at h
      split at h
      · split at h
        · next hruns =>
            split at h
            · rcases List.mem_cons.mp h with rfl | hrest
              · exact List.cons_ne_nil _ _
              · exact ih (hruns ▸ List.mem_cons_of_mem _ hrest)
            · rcases List.mem_cons.mp h with rfl | hrest
              · exact List.cons_ne_nil _ _
              · exact ih (hruns ▸ hrest)
        · rcases List.mem_cons.mp h with rfl | hrest
          · exact List.cons_ne_nil _ _
          · exact ih hrest
      · exact ih h

/-- Characters of one class, at least one of them. -/
structure IsRun (keep : Char → Bool) (run : List Char) : Prop where
  ne_nil : run ≠ []
  kept : ∀ c ∈ run, keep c = true

/-- Characters of other classes, at least one of them. -/
structure IsGap (keep : Char → Bool) (gap : List Char) : Prop where
  ne_nil : gap ≠ []
  dropped : ∀ c ∈ gap, keep c = false

theorem isGap_singleton (h : keep c = false) : IsGap keep [c] :=
  ⟨List.cons_ne_nil c [], List.forall_mem_singleton.mpr h⟩

theorem IsGap.stops_append {gap : List Char} (h : IsGap keep gap) (cs : List Char) :
    Stops keep (gap ++ cs) := by
  obtain ⟨c, gap, rfl⟩ := List.exists_cons_of_ne_nil h.ne_nil
  exact stops_cons (h.dropped c List.mem_cons_self) _

theorem isRun_of_mem_runs (h : run ∈ runs keep cs) : IsRun keep run where
  ne_nil := ne_nil_of_mem_runs h
  kept := by
    intro c hc
    have hmem : c ∈ (runs keep cs).flatten := List.mem_flatten_of_mem h hc
    rw [flatten_runs] at hmem
    exact (List.mem_filter.mp hmem).2

theorem runs_cons_of_neg (h : keep c = false) (cs : List Char) :
    runs keep (c :: cs) = runs keep cs :=
  if_neg (Bool.eq_false_iff.mp h)

theorem runs_gap_append {gap : List Char} (hgap : ∀ c ∈ gap, keep c = false) (cs : List Char) :
    runs keep (gap ++ cs) = runs keep cs := by
  induction gap with
  | nil => rfl
  | cons c gap ih =>
      rw [List.forall_mem_cons] at hgap
      rw [List.cons_append, runs_cons_of_neg hgap.1, ih hgap.2]

theorem runs_cons_of_stops (hc : keep c = true) (hrest : Stops keep rest) :
    runs keep (c :: rest) = [c] :: runs keep rest := by
  refine (if_pos hc).trans ?_
  cases rest with
  | nil => rfl
  | cons d rest =>
      split
      · next heq hruns =>
          cases heq
          rw [hruns]
          exact if_neg (Bool.eq_false_iff.mp (hrest d rfl))
      · rfl

theorem runs_cons_of_run {d : Char} (hc : keep c = true) (hd : keep d = true)
    (hruns : runs keep (d :: cs) = run :: parts) :
    runs keep (c :: d :: cs) = (c :: run) :: parts := by
  refine (if_pos hc).trans ?_
  rw [hruns]
  exact if_pos hd

/-- What stands in front of a character that ends it is one run. -/
theorem runs_run_append (hrun : IsRun keep run) (hrest : Stops keep rest) :
    runs keep (run ++ rest) = run :: runs keep rest := by
  obtain ⟨hne, hkept⟩ := hrun
  induction run with
  | nil => exact absurd rfl hne
  | cons c run ih =>
      rw [List.forall_mem_cons] at hkept
      cases run with
      | nil => exact runs_cons_of_stops hkept.1 hrest
      | cons d run =>
          have hd := hkept.2 d List.mem_cons_self
          exact runs_cons_of_run hkept.1 hd (ih (List.cons_ne_nil d run) hkept.2)

theorem runs_of_isRun (h : IsRun keep run) : runs keep run = [run] := by
  have hruns := runs_run_append h (stops_nil keep)
  rw [List.append_nil] at hruns
  exact hruns

theorem runs_congr {keep' : Char → Bool} (h : ∀ c ∈ cs, keep c = keep' c) :
    runs keep cs = runs keep' cs := by
  induction cs with
  | nil => rfl
  | cons c cs ih =>
      rw [List.forall_mem_cons] at h
      unfold runs
      rw [ih h.2, h.1]
      cases cs with
      | nil => rfl
      | cons d cs =>
          have hd := h.2 d List.mem_cons_self
          cases runs keep' (d :: cs) with
          | nil => rfl
          | cons run parts =>
              dsimp only
              rw [hd]

/-! Single separators -/

/-- Characters that `keep` accepts, and separators that stand singly and between them. -/
structure IsSeparated (keep : Char → Bool) (separator : Char) (cs : List Char) : Prop where
  chars : ∀ c ∈ cs, keep c = true ∨ c = separator
  single : cs.IsChain fun c d => c ≠ separator ∨ d ≠ separator
  first : separator ∉ cs.head?
  last : separator ∉ cs.getLast?

theorem ne_separator (hseparator : keep separator = false) (hc : keep c = true) :
    c ≠ separator := by
  rintro rfl
  exact Bool.eq_false_iff.mp hseparator hc

theorem isSeparated_nil : IsSeparated keep separator [] :=
  ⟨List.forall_mem_nil _, .nil, nofun, nofun⟩

theorem IsRun.isSeparated (h : IsRun keep run) (hseparator : keep separator = false) :
    IsSeparated keep separator run := by
  have hne : ∀ c ∈ run, c ≠ separator := fun c hc => ne_separator hseparator (h.kept c hc)
  refine ⟨fun c hc => .inl (h.kept c hc), ?_, fun hmem => ?_, fun hmem => ?_⟩
  · exact (List.pairwise_of_forall_mem_list fun c hc _ _ => .inl (hne c hc)).isChain
  · exact hne separator (List.mem_of_head? hmem) rfl
  · exact hne separator (List.mem_of_getLast? hmem) rfl

/-- A separator may stand between two texts that have none at their ends. -/
theorem IsSeparated.append (hcs : IsSeparated keep separator cs) (hcs_ne : cs ≠ [])
    (hds : IsSeparated keep separator ds) (hds_ne : ds ≠ []) :
    IsSeparated keep separator (cs ++ separator :: ds) where
  chars := by
    rw [List.forall_mem_append, List.forall_mem_cons]
    exact ⟨hcs.chars, .inr rfl, hds.chars⟩
  single := by
    rw [List.isChain_append, List.isChain_cons]
    refine ⟨hcs.single, ⟨fun d hd => .inr ?_, hds.single⟩, fun c hc _ _ => .inl ?_⟩
    · rintro rfl
      exact hds.first hd
    · rintro rfl
      exact hcs.last hc
  first := by
    rw [List.head?_append_of_ne_nil _ hcs_ne]
    exact hcs.first
  last := by
    rw [List.append_cons, List.getLast?_append_of_ne_nil _ hds_ne]
    exact hds.last

/-- A text is one run, or its first run is followed by a single separator. -/
theorem IsSeparated.exists_run (h : IsSeparated keep separator cs) (hne : cs ≠ []) :
    IsRun keep cs ∨ ∃ run ds, cs = run ++ separator :: ds ∧ IsRun keep run ∧ ds ≠ [] ∧
      IsSeparated keep separator ds := by
  have hsplit : cs.takeWhile keep ++ cs.dropWhile keep = cs := List.takeWhile_append_dropWhile
  have hrun : IsRun keep (cs.takeWhile keep) := by
    refine ⟨?_, fun c hc => List.mem_takeWhile_imp hc⟩
    obtain ⟨c, rest, rfl⟩ := List.exists_cons_of_ne_nil hne
    have hc := (h.chars c List.mem_cons_self).resolve_right fun hc => h.first (hc ▸ rfl)
    rw [List.takeWhile_cons_of_pos hc]
    exact List.cons_ne_nil c _
  have hstops := stops_dropWhile keep cs
  generalize cs.takeWhile keep = run at hsplit hrun
  cases hrest : cs.dropWhile keep with
  | nil =>
      rw [hrest, List.append_nil] at hsplit
      exact .inl (hsplit ▸ hrun)
  | cons d ds =>
      rw [hrest] at hsplit hstops
      subst hsplit
      obtain ⟨hchars, hsingle, -, hlast⟩ := h
      rw [List.forall_mem_append, List.forall_mem_cons] at hchars
      obtain rfl : d = separator :=
        hchars.2.1.resolve_left (Bool.eq_false_iff.mp (hstops d rfl))
      rw [List.isChain_append, List.isChain_cons] at hsingle
      have hds : ds ≠ [] := by
        rintro rfl
        exact hlast (by rw [List.getLast?_concat]; rfl)
      rw [List.append_cons, List.getLast?_append_of_ne_nil _ hds] at hlast
      refine .inr ⟨run, ds, rfl, hrun, hds, hchars.2.2, hsingle.2.1.2, fun hfirst => ?_, hlast⟩
      exact (hsingle.2.1.1 d hfirst).elim (absurd rfl) (absurd rfl)

/-! Joined runs -/

theorem runs_intercalate (hseparator : keep separator = false)
    (h : ∀ part ∈ parts, IsRun keep part) : runs keep ([separator].intercalate parts) = parts := by
  induction parts with
  | nil => rfl
  | cons first rest ih =>
      rw [List.forall_mem_cons] at h
      cases rest with
      | nil =>
          rw [List.intercalate_singleton]
          exact runs_of_isRun h.1
      | cons second rest =>
          rw [List.intercalate_cons_cons, List.append_assoc, List.singleton_append,
            runs_run_append h.1 (stops_cons hseparator _), runs_cons_of_neg hseparator, ih h.2]

theorem isSeparated_intercalate (hseparator : keep separator = false)
    (h : ∀ part ∈ parts, IsRun keep part) :
    IsSeparated keep separator ([separator].intercalate parts) := by
  induction parts with
  | nil => exact isSeparated_nil
  | cons first rest ih =>
      rw [List.forall_mem_cons] at h
      cases rest with
      | nil =>
          rw [List.intercalate_singleton]
          exact h.1.isSeparated hseparator
      | cons second rest =>
          have hruns := runs_intercalate hseparator h.2
          have hrest : [separator].intercalate (second :: rest) ≠ [] := by
            intro hnil
            rw [hnil] at hruns
            cases hruns
          rw [List.intercalate_cons_cons, List.append_assoc, List.singleton_append]
          exact (h.1.isSeparated hseparator).append h.1.ne_nil (ih h.2) hrest

/-- The runs with separators between them are the text again. -/
theorem IsSeparated.intercalate_runs (h : IsSeparated keep separator cs)
    (hseparator : keep separator = false) : [separator].intercalate (runs keep cs) = cs := by
  -- On the length, as the first run goes at once, and the separator behind it with it.
  induction hn : cs.length using Nat.strong_induction_on generalizing cs with
  | _ n ih =>
      subst hn
      by_cases hne : cs = []
      · subst hne
        rfl
      rcases h.exists_run hne with hrun | ⟨run, ds, rfl, hrun, hds_ne, hds⟩
      · rw [runs_of_isRun hrun, List.intercalate_singleton]
      · have hlength : ds.length < (run ++ separator :: ds).length := by
          simp only [List.length_append, List.length_cons]
          omega
        have hrest := ih ds.length hlength hds rfl
        rw [runs_run_append hrun (stops_cons hseparator ds), runs_cons_of_neg hseparator]
        cases hruns : runs keep ds with
        | nil =>
            rw [hruns] at hrest
            exact absurd hrest.symm hds_ne
        | cons second rest =>
            rw [hruns] at hrest
            rw [List.intercalate_cons_cons, List.append_assoc, hrest]
            rfl

/-! Texts with the same runs -/

/-- Two texts with the same runs, the first of which starts both texts or neither. Unlike equal runs
alone, this stays so when a character is put in front of both: where one is kept, it is a run of its
own or belongs to the first one. -/
structure Alike (keep : Char → Bool) (cs ds : List Char) : Prop where
  first : cs.takeWhile keep = ds.takeWhile keep
  rest : runs keep (cs.dropWhile keep) = runs keep (ds.dropWhile keep)

namespace Alike

theorem runs_eq (h : Alike keep cs ds) : runs keep cs = runs keep ds := by
  have hruns : ∀ es, runs keep es =
      if es.takeWhile keep = [] then runs keep (es.dropWhile keep)
      else es.takeWhile keep :: runs keep (es.dropWhile keep) := by
    intro es
    conv_lhs => rw [← @List.takeWhile_append_dropWhile _ keep es]
    split
    · next hnil => rw [hnil, List.nil_append]
    · next hne =>
        exact runs_run_append ⟨hne, fun c hc => List.mem_takeWhile_imp hc⟩ (stops_dropWhile keep es)
  rw [hruns cs, hruns ds, h.first, h.rest]

theorem cons (h : Alike keep cs ds) (hc : keep c = true) : Alike keep (c :: cs) (c :: ds) where
  first := by
    rw [List.takeWhile_cons_of_pos hc, List.takeWhile_cons_of_pos hc, h.first]
  rest := by
    rw [List.dropWhile_cons_of_pos hc, List.dropWhile_cons_of_pos hc, h.rest]

theorem of_dropped {gap : List Char} (hgap : ∀ c ∈ gap, keep c = false) : Alike keep gap [] := by
  have hstops := stops_append hgap (stops_nil keep)
  have hruns := runs_gap_append hgap []
  rw [List.append_nil] at hstops hruns
  constructor
  · rw [hstops.takeWhile_eq, List.takeWhile_nil]
  · rw [hstops.dropWhile_eq, hruns, List.dropWhile_nil]

/-- Between runs it does not matter which characters stand there, nor how many. -/
theorem gap {gap gap' : List Char} (h : Alike keep cs ds) (hgap : IsGap keep gap)
    (hgap' : IsGap keep gap') : Alike keep (gap ++ cs) (gap' ++ ds) := by
  have hcs := hgap.stops_append cs
  have hds := hgap'.stops_append ds
  constructor
  · rw [hcs.takeWhile_eq, hds.takeWhile_eq]
  · rw [hcs.dropWhile_eq, hds.dropWhile_eq, runs_gap_append hgap.dropped,
      runs_gap_append hgap'.dropped, h.runs_eq]

theorem append_left (h : Alike keep cs ds) (front : List Char) :
    Alike keep (front ++ cs) (front ++ ds) := by
  induction front with
  | nil => exact h
  | cons c front ih =>
      cases hc : keep c with
      | true => exact ih.cons hc
      | false => exact ih.gap (isGap_singleton hc) (isGap_singleton hc)

end Alike

/-! Replacing what stands between runs -/

/-- A separator in the place of every maximal run of characters that `keep` does not accept. -/
def separate (keep : Char → Bool) (separator : Char) (cs : List Char) : List Char :=
  match cs with
  | [] => []
  | c :: cs =>
      if keep c then c :: separate keep separator cs
      else separator :: separate keep separator (cs.dropWhile (!keep ·))
termination_by cs.length
decreasing_by
  · exact Nat.lt_succ_self _
  · exact Nat.lt_succ_of_le (List.dropWhile_sublist _).length_le

theorem alike_separate (hseparator : keep separator = false) (cs : List Char) :
    Alike keep (separate keep separator cs) cs := by
  fun_induction separate keep separator cs with
  | case1 => exact ⟨rfl, rfl⟩
  | case2 c cs hc ih => exact ih.cons hc
  | case3 c cs hc ih =>
      have hgap : IsGap keep (c :: cs.takeWhile (!keep ·)) := by
        refine ⟨List.cons_ne_nil c _, List.forall_mem_cons.mpr ⟨Bool.eq_false_iff.mpr hc, ?_⟩⟩
        intro d hd
        simpa using List.mem_takeWhile_imp hd
      have hreplaced : Alike keep (separator :: separate keep separator (cs.dropWhile (!keep ·)))
          (c :: (cs.takeWhile (!keep ·) ++ cs.dropWhile (!keep ·))) :=
        ih.gap (isGap_singleton hseparator) hgap
      rwa [List.takeWhile_append_dropWhile] at hreplaced

theorem separator_not_mem_head?_separate (hseparator : keep separator = false)
    (h : ∀ c ∈ cs.head?, keep c = true) : separator ∉ (separate keep separator cs).head? := by
  cases cs with
  | nil =>
      rw [separate]
      exact nofun
  | cons c cs =>
      have hc := h c rfl
      rw [separate, if_pos hc, List.head?_cons, Option.mem_some_iff]
      exact ne_separator hseparator hc

theorem separate_chars (cs : List Char) :
    ∀ c ∈ separate keep separator cs, keep c = true ∨ c = separator := by
  fun_induction separate keep separator cs with
  | case1 => exact List.forall_mem_nil _
  | case2 c cs hc ih => exact List.forall_mem_cons.mpr ⟨.inl hc, ih⟩
  | case3 c cs _ ih => exact List.forall_mem_cons.mpr ⟨.inr rfl, ih⟩

theorem separate_single (hseparator : keep separator = false) (cs : List Char) :
    (separate keep separator cs).IsChain fun c d => c ≠ separator ∨ d ≠ separator := by
  fun_induction separate keep separator cs with
  | case1 => exact .nil
  | case2 c cs hc ih =>
      exact List.isChain_cons.mpr ⟨fun _ _ => .inl (ne_separator hseparator hc), ih⟩
  | case3 c cs _ ih =>
      refine List.isChain_cons.mpr ⟨fun d hd => .inr ?_, ih⟩
      rintro rfl
      refine separator_not_mem_head?_separate hseparator (fun e he => ?_) hd
      simpa using stops_dropWhile (!keep ·) cs e he

theorem isSeparated_strip_separate (hseparator : keep separator = false) (cs : List Char) :
    IsSeparated keep separator (strip (· == separator) (separate keep separator cs)) := by
  obtain ⟨before, behind, heq, -, -⟩ :=
    exists_eq_strip (· == separator) (separate keep separator cs)
  have hsingle := separate_single hseparator cs
  rw [heq] at hsingle
  refine ⟨fun c hc => separate_chars cs c ?_, hsingle.right_of_append.left_of_append,
    fun hfirst => ?_, fun hlast => ?_⟩
  · rw [heq]
    exact List.mem_append_right _ (List.mem_append_left _ hc)
  · simpa using stops_strip _ _ separator hfirst
  · simpa using not_of_mem_getLast?_strip _ _ separator hlast

theorem runs_strip (hp : ∀ c, p c = true → keep c = false) (cs : List Char) :
    runs keep (strip p cs) = runs keep cs := by
  obtain ⟨before, behind, heq, hbefore, hbehind⟩ := exists_eq_strip p cs
  have hdropped : ∀ {gap : List Char}, (∀ c ∈ gap, p c = true) → ∀ c ∈ gap, keep c = false :=
    fun hgap c hc => hp c (hgap c hc)
  have halike := (Alike.of_dropped (hdropped hbehind)).append_left (strip p cs)
  rw [List.append_nil] at halike
  conv_rhs => rw [heq]
  rw [runs_gap_append (hdropped hbefore), halike.runs_eq]

/-- Replacing what stands between runs by separators, and dropping those at the ends, leaves the
runs with single separators between them. -/
theorem strip_separate (hseparator : keep separator = false) (cs : List Char) :
    strip (· == separator) (separate keep separator cs) =
      [separator].intercalate (runs keep cs) := by
  have hdropped : ∀ c, (c == separator) = true → keep c = false :=
    fun c hc => beq_iff_eq.mp hc ▸ hseparator
  rw [← (isSeparated_strip_separate hseparator cs).intercalate_runs hseparator,
    runs_strip hdropped, (alike_separate hseparator cs).runs_eq]

end TenantReports.Text
