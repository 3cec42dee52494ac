import TenantReports.Proofs.Sql.Script
import TenantReports.Proofs.Text.Runs

/-!
Splitting a script against joining its statements. A script consists of its statements, a separator
between any two of them, and blanks and further separators around them; splitting finds those
statements, and there are no others.
-/

namespace TenantReports

namespace Text

variable {p : Char → Bool} {cs ds : List Char} {c : Char}

theorem mem_takeWhile_append (h : c ∈ cs.takeWhile p) (ds : List Char) :
    c ∈ (cs ++ ds).takeWhile p := by
  rw [List.takeWhile_append]
  split
  · exact List.mem_append_left _ ((List.takeWhile_sublist p).mem h)
  · exact h

theorem Stops.takeWhile_append (h : Stops p ds) (cs : List Char) :
    (cs ++ ds).takeWhile p = cs.takeWhile p := by
  rw [List.takeWhile_append, h.takeWhile_eq, List.append_nil]
  split
  · next hall => exact ((List.takeWhile_prefix p).eq_of_length hall).symm
  · rfl

/-! Trimming -/

/-- Text without blanks at its ends. -/
structure IsTrimmed (cs : List Char) : Prop where
  ne_nil : cs ≠ []
  first : ∀ c ∈ cs.head?, isBlank c = false
  last : ∀ c ∈ cs.getLast?, isBlank c = false

theorem IsTrimmed.trim_append (h : IsTrimmed cs) {blanks : List Char}
    (hblanks : ∀ c ∈ blanks, isBlank c = true) : trim (cs ++ blanks) = cs := by
  obtain ⟨c, rest, rfl⟩ := List.exists_cons_of_ne_nil h.ne_nil
  have hfirst : Stops isBlank (c :: rest ++ blanks) := stops_cons (h.first c rfl) _
  have hlast : Stops isBlank (c :: rest).reverse := by
    intro d hd
    rw [List.head?_reverse] at hd
    exact h.last d hd
  have hbehind : ∀ d ∈ blanks.reverse, isBlank d = true := by
    intro d hd
    exact hblanks d (List.mem_reverse.mp hd)
  unfold trim
  rw [hfirst.dropWhile_eq, List.reverse_append, dropWhile_run hbehind hlast, List.reverse_reverse]

theorem trim_cons (h : isBlank c = true) (cs : List Char) : trim (c :: cs) = trim cs := by
  unfold trim
  rw [List.dropWhile_cons_of_pos h]

/-- What trimming takes off are the blanks on both sides. -/
theorem exists_eq_trim (cs : List Char) :
    ∃ before behind, cs = before ++ trim cs ++ behind ∧ (∀ c ∈ before, isBlank c = true) ∧
      (∀ c ∈ behind, isBlank c = true) ∧ (trim cs ≠ [] → IsTrimmed (trim cs)) := by
  obtain ⟨before, behind, heq, hbefore, hbehind⟩ := exists_eq_strip isBlank cs
  refine ⟨before, behind, ?_, hbefore, hbehind, fun hne => ⟨hne, ?_, ?_⟩⟩
  · rw [List.append_assoc]
    exact heq
  · exact stops_strip isBlank cs
  · exact not_of_mem_getLast?_strip isBlank cs

end Text

namespace Sql

open Text

/-! Separators -/

/-- What stands between statements: a semicolon, blanks, and a line feed. -/
def IsSeparator (cs : List Char) : Prop :=
  ∃ blanks, cs = ';' :: (blanks ++ ['\n']) ∧ ∀ c ∈ blanks, isBlank c = true

/-- Whether a separator stands anywhere in a text. -/
def HasSeparator (cs : List Char) : Prop :=
  ∃ separator, IsSeparator separator ∧ separator <:+: cs

variable {c : Char} {cs rest : List Char}

theorem IsSeparator.forall_isBlank {blanks : List Char} (h : ∀ c ∈ blanks, isBlank c = true) :
    ∀ c ∈ blanks ++ ['\n'], isBlank c = true := by
  intro c hc
  rcases List.mem_append.mp hc with hc | hc
  · exact h c hc
  · rw [List.mem_singleton.mp hc]
    decide

theorem IsSeparator.mem_takeWhile {blanks : List Char} (h : ∀ c ∈ blanks, isBlank c = true)
    (rest : List Char) : '\n' ∈ (blanks ++ ['\n'] ++ rest).takeWhile isBlank := by
  rw [List.takeWhile_append_of_pos (forall_isBlank h)]
  simp

theorem exists_isSeparator_prefix :
    (∃ separator, IsSeparator separator ∧ separator <+: c :: rest) ↔
      c = ';' ∧ '\n' ∈ rest.takeWhile isBlank := by
  constructor
  · rintro ⟨_, ⟨blanks, rfl, hblanks⟩, hfront⟩
    obtain ⟨rfl, behind, rfl⟩ := List.cons_prefix_cons.mp hfront
    exact ⟨rfl, IsSeparator.mem_takeWhile hblanks behind⟩
  · rintro ⟨rfl, hends⟩
    obtain ⟨blanks, behind, hrun⟩ := List.append_of_mem hends
    refine ⟨';' :: (blanks ++ ['\n']), ⟨blanks, rfl, fun c hc => ?_⟩, ?_⟩
    · have hmem : c ∈ rest.takeWhile isBlank := hrun ▸ List.mem_append_left _ hc
      exact List.mem_takeWhile_imp hmem
    · apply List.cons_prefix_cons.mpr ⟨rfl, List.IsPrefix.trans ?_ (List.takeWhile_prefix isBlank)⟩
      exact ⟨behind, by rw [hrun, List.append_assoc]; rfl⟩

theorem not_hasSeparator_nil : ¬ HasSeparator [] := by
  rintro ⟨_, ⟨blanks, rfl, -⟩, hwithin⟩
  exact nomatch List.infix_nil.mp hwithin

theorem hasSeparator_cons :
    HasSeparator (c :: rest) ↔ c = ';' ∧ '\n' ∈ rest.takeWhile isBlank ∨ HasSeparator rest := by
  rw [← exists_isSeparator_prefix]
  simp only [HasSeparator, List.infix_cons_iff, and_or_left, exists_or]

/-- Whether a text holds a separator is decided from its front. -/
instance decidableHasSeparator : (cs : List Char) → Decidable (HasSeparator cs)
  | [] => isFalse not_hasSeparator_nil
  | _ :: rest =>
      have := decidableHasSeparator rest
      decidable_of_iff _ hasSeparator_cons.symm

theorem HasSeparator.mono {ds : List Char} (h : HasSeparator cs) (hwithin : cs <:+: ds) :
    HasSeparator ds := by
  obtain ⟨separator, hseparator, hcs⟩ := h
  exact ⟨separator, hseparator, hcs.trans hwithin⟩

/-- A text with separators has a first one. -/
theorem exists_first_separator (h : HasSeparator cs) :
    ∃ part separator rest, cs = part ++ separator ++ rest ∧ ¬ HasSeparator part ∧
      IsSeparator separator := by
  induction cs with
  | nil => exact absurd h not_hasSeparator_nil
  | cons c cs ih =>
      by_cases hends : c = ';' ∧ '\n' ∈ cs.takeWhile isBlank
      · obtain ⟨separator, hseparator, rest, heq⟩ := exists_isSeparator_prefix.mpr hends
        exact ⟨[], separator, rest, heq.symm, not_hasSeparator_nil, hseparator⟩
      · have hrest := (hasSeparator_cons.mp h).resolve_left hends
        obtain ⟨part, separator, rest, rfl, hwhole, hseparator⟩ := ih hrest
        refine ⟨c :: part, separator, rest, rfl, ?_, hseparator⟩
        rw [hasSeparator_cons]
        refine not_or.mpr ⟨fun hfirst => hends ?_, hwhole⟩
        rw [List.append_assoc]
        exact ⟨hfirst.1, mem_takeWhile_append hfirst.2 _⟩

/-! The parts of a script -/

/-- Text without separators goes to the first part, where no blanks follow that could end it. -/
theorem scriptParts_append_of_stops (hwhole : ¬ HasSeparator cs) (hrest : Stops isBlank rest) :
    scriptParts (cs ++ rest) = (scriptParts rest).modifyHead (cs ++ ·) := by
  induction cs with
  | nil =>
      rw [List.nil_append]
      cases scriptParts rest <;> rfl
  | cons c cs ih =>
      rw [hasSeparator_cons, not_or, ← hrest.takeWhile_append cs] at hwhole
      rw [List.cons_append, scriptParts_cons hwhole.1, ih hwhole.2, List.modifyHead_modifyHead]
      rfl

theorem scriptParts_of_whole (hwhole : ¬ HasSeparator cs) : scriptParts cs = [cs] := by
  have hparts := @scriptParts_append_of_stops cs [] hwhole fun _ hc => nomatch hc
  rw [List.append_nil, scriptParts_nil, List.modifyHead_cons, List.append_nil] at hparts
  exact hparts

/-- Text without separators is the part in front of a separator, which takes the blanks behind it
along. -/
theorem scriptParts_append_separator {part separator : List Char} (hwhole : ¬ HasSeparator part)
    (hseparator : IsSeparator separator) (rest : List Char) :
    scriptParts (part ++ separator ++ rest) = part :: scriptParts (rest.dropWhile isBlank) := by
  obtain ⟨blanks, rfl, hblanks⟩ := hseparator
  rw [List.append_assoc, List.cons_append,
    scriptParts_append_of_stops hwhole (stops_cons (by decide) _),
    scriptParts_cons_of_ends ⟨rfl, IsSeparator.mem_takeWhile hblanks rest⟩,
    List.dropWhile_append_of_pos (IsSeparator.forall_isBlank hblanks)]
  exact congrArg (· :: _) (List.append_nil part)

/-- The parts of a script without the blanks around them; of parts that are blank nothing is
left. -/
def trimmedParts (cs : List Char) : List (List Char) :=
  ((scriptParts cs).map trim).filter (· ≠ [])

theorem trimmedParts_cons_of_isBlank (h : isBlank c = true) (cs : List Char) :
    trimmedParts (c :: cs) = trimmedParts cs := by
  have hnot : ¬ (c = ';' ∧ '\n' ∈ cs.takeWhile isBlank) := by
    rintro ⟨rfl, -⟩
    exact absurd h (by decide)
  obtain ⟨part, parts, hparts⟩ := List.exists_cons_of_ne_nil (scriptParts_ne_nil cs)
  unfold trimmedParts
  rw [scriptParts_cons hnot, hparts, List.modifyHead_cons, List.map_cons, List.map_cons,
    trim_cons h]

/-- Blanks in front of a script belong to none of its statements. -/
theorem trimmedParts_dropWhile (cs : List Char) :
    trimmedParts (cs.dropWhile isBlank) = trimmedParts cs := by
  induction cs with
  | nil => rfl
  | cons c cs ih =>
      rw [List.dropWhile_cons]
      split
      · next h => rw [ih, trimmedParts_cons_of_isBlank h]
      · rfl

theorem trimmedParts_append_separator {part separator : List Char} (hwhole : ¬ HasSeparator part)
    (hseparator : IsSeparator separator) (rest : List Char) :
    trimmedParts (part ++ separator ++ rest) =
      [trim part].filter (· ≠ []) ++ trimmedParts rest := by
  rw [← trimmedParts_dropWhile rest]
  unfold trimmedParts
  rw [scriptParts_append_separator hwhole hseparator, List.map_cons, ← List.singleton_append,
    List.filter_append]

/-! Statements -/

/-- What can be one statement of a script: text that is trimmed and holds no separator. -/
structure IsStatement (cs : List Char) : Prop extends IsTrimmed cs where
  whole : ¬ HasSeparator cs

/-- A part of a script that is a statement with blanks behind it. -/
structure IsPart (part statement : List Char) : Prop where
  trimmed : IsTrimmed statement
  behind : ∃ blanks, part = statement ++ blanks ∧ ∀ c ∈ blanks, isBlank c = true
  whole : ¬ HasSeparator part

/-- How a script consists of its statements: each is followed by a separator, but for the last one,
and apart from them there are only blanks and further separators. -/
inductive IsCut : (script : List Char) → (statements : List (List Char)) → Prop
  | nil : IsCut [] []
  | blank {c : Char} {rest : List Char} {statements : List (List Char)} (isBlank : isBlank c = true)
      (isCut : IsCut rest statements) : IsCut (c :: rest) statements
  | separator {separator rest : List Char} {statements : List (List Char)}
      (isSeparator : IsSeparator separator) (isCut : IsCut rest statements) :
      IsCut (separator ++ rest) statements
  | last {part statement : List Char} (isPart : IsPart part statement) : IsCut part [statement]
  | cons {part statement separator rest : List Char} {statements : List (List Char)}
      (isPart : IsPart part statement) (isSeparator : IsSeparator separator)
      (isCut : IsCut rest statements) :
      IsCut (part ++ separator ++ rest) (statement :: statements)

variable {part statement separator : List Char} {statements : List (List Char)}

theorem IsStatement.isPart (h : IsStatement cs) : IsPart cs cs :=
  ⟨h.toIsTrimmed, ⟨[], (List.append_nil cs).symm, List.forall_mem_nil _⟩, h.whole⟩

theorem IsPart.filter_trim (h : IsPart part statement) :
    [trim part].filter (· ≠ []) = [statement] := by
  obtain ⟨htrimmed, ⟨blanks, rfl, hblanks⟩, -⟩ := h
  rw [htrimmed.trim_append hblanks]
  exact List.filter_cons_of_pos (decide_eq_true htrimmed.ne_nil)

theorem IsPart.isStatement (h : IsPart part statement) : IsStatement statement := by
  obtain ⟨htrimmed, ⟨blanks, rfl, -⟩, hwhole⟩ := h
  refine ⟨htrimmed, fun hseparator => hwhole ?_⟩
  exact hseparator.mono (List.prefix_append statement blanks).isInfix

theorem IsCut.isStatement (h : IsCut cs statements) :
    ∀ statement ∈ statements, IsStatement statement := by
  induction h with
  | nil => exact List.forall_mem_nil _
  | blank _ _ ih => exact ih
  | separator _ _ ih => exact ih
  | last isPart => exact List.forall_mem_singleton.mpr isPart.isStatement
  | cons isPart _ _ ih => exact List.forall_mem_cons.mpr ⟨isPart.isStatement, ih⟩

theorem IsCut.blanks {blanks : List Char} (h : IsCut cs statements)
    (hblanks : ∀ c ∈ blanks, isBlank c = true) : IsCut (blanks ++ cs) statements := by
  induction blanks with
  | nil => exact h
  | cons c blanks ih =>
      rw [List.forall_mem_cons] at hblanks
      exact .blank hblanks.1 (ih hblanks.2)

/-- Splitting finds the statements of which a script consists. -/
theorem IsCut.trimmedParts_eq (h : IsCut cs statements) : trimmedParts cs = statements := by
  induction h with
  | nil => simp [trimmedParts, scriptParts_nil, trim]
  | blank isBlank _ ih => rw [trimmedParts_cons_of_isBlank isBlank, ih]
  | separator isSeparator _ ih =>
      have hparts := trimmedParts_append_separator not_hasSeparator_nil isSeparator
      rw [← List.nil_append (_ ++ _), ← List.append_assoc, hparts, ih]
      rfl
  | last isPart =>
      unfold trimmedParts
      rw [scriptParts_of_whole isPart.whole, List.map_singleton, isPart.filter_trim]
  | cons isPart isSeparator _ ih =>
      rw [trimmedParts_append_separator isPart.whole isSeparator, isPart.filter_trim, ih]
      rfl

/-- Behind blanks, a part is over or a statement with blanks behind it. -/
theorem exists_isPart (hwhole : ¬ HasSeparator part) :
    ∃ before core, part = before ++ core ∧ (∀ c ∈ before, isBlank c = true) ∧
      (core = [] ∧ [trim part].filter (· ≠ []) = [] ∨
        ∃ statement, [trim part].filter (· ≠ []) = [statement] ∧ IsPart core statement) := by
  obtain ⟨before, behind, heq, hbefore, hbehind, htrimmed⟩ := exists_eq_trim part
  by_cases hblank : trim part = []
  · refine ⟨part, [], (List.append_nil part).symm, ?_, .inl ⟨rfl, by simp [hblank]⟩⟩
    rw [heq, hblank, List.append_nil]
    exact List.forall_mem_append.mpr ⟨hbefore, hbehind⟩
  · rw [List.append_assoc] at heq
    refine ⟨before, trim part ++ behind, heq, hbefore, .inr ⟨trim part, ?_, ?_⟩⟩
    · exact List.filter_cons_of_pos (decide_eq_true hblank)
    · refine ⟨htrimmed hblank, ⟨behind, rfl, hbehind⟩, fun hseparator => hwhole ?_⟩
      exact hseparator.mono ⟨before, [], by rw [List.append_nil, ← heq]⟩

/-- Every script consists of the statements that splitting finds. -/
theorem isCut_trimmedParts (cs : List Char) : IsCut cs (trimmedParts cs) := by
  induction hn : cs.length using Nat.strong_induction_on generalizing cs with
  | _ n ih =>
      subst hn
      by_cases hseparated : HasSeparator cs
      · obtain ⟨part, separator, rest, rfl, hwhole, hseparator⟩ := exists_first_separator hseparated
        have hlength : rest.length < (part ++ separator ++ rest).length := by
          obtain ⟨blanks, rfl, -⟩ := hseparator
          simp only [List.length_append, List.length_cons]
          omega
        have hrest := ih rest.length hlength rest rfl
        rw [trimmedParts_append_separator hwhole hseparator]
        obtain ⟨before, core, rfl, hbefore, ⟨rfl, hparts⟩ | ⟨statement, hparts, hpart⟩⟩ :=
          exists_isPart hwhole
        · rw [hparts, List.append_nil, List.append_assoc]
          exact (IsCut.separator hseparator hrest).blanks hbefore
        · rw [hparts, List.append_assoc before, List.append_assoc before]
          exact (IsCut.cons hpart hseparator hrest).blanks hbefore
      · unfold trimmedParts
        rw [scriptParts_of_whole hseparated, List.map_singleton]
        obtain ⟨before, core, rfl, hbefore, ⟨rfl, hparts⟩ | ⟨statement, hparts, hpart⟩⟩ :=
          exists_isPart hseparated
        · rw [hparts]
          exact IsCut.nil.blanks hbefore
        · rw [hparts]
          exact (IsCut.last hpart).blanks hbefore

theorem isCut_iff : IsCut cs statements ↔ trimmedParts cs = statements := by
  constructor
  · exact IsCut.trimmedParts_eq
  · rintro rfl
    exact isCut_trimmedParts cs

/-! Joining -/

/-- Statements, each with its separator behind it. -/
def joined (pairs : List (String × String)) : String :=
  String.join (pairs.map fun pair => pair.1 ++ pair.2)

theorem isCut_joined {pairs : List (String × String)}
    (h : ∀ pair ∈ pairs, IsStatement pair.1.toList ∧ IsSeparator pair.2.toList)
    (hcut : IsCut cs statements) :
    IsCut ((joined pairs).toList ++ cs) (pairs.map (·.1.toList) ++ statements) := by
  unfold joined
  induction pairs with
  | nil => exact hcut
  | cons pair pairs ih =>
      rw [List.forall_mem_cons] at h
      rw [List.map_cons, String.join_cons, String.toList_append, String.toList_append,
        List.append_assoc]
      exact .cons h.1.1.isPart h.1.2 (ih h.2)

theorem splitStatements_eq_iff {script : String} {found : List String} :
    splitStatements script = found ↔ IsCut script.toList (found.map String.toList) := by
  have hback : (String.toList ∘ String.ofList) = id := funext fun _ => String.toList_ofList
  have hforth : (String.ofList ∘ String.toList) = id := funext fun _ => String.ofList_toList
  rw [isCut_iff]
  change (trimmedParts script.toList).map String.ofList = found ↔ _
  constructor
  · rintro rfl
    rw [List.map_map, hback, List.map_id]
  · intro h
    rw [h, List.map_map, hforth, List.map_id]

/-- Splitting finds again the statements that were joined, whatever separators were chosen and
whether or not one stands behind the last. The statements of any script are such statements
themselves, and the script consists of them and of no others. -/
theorem splitStatements_inverts_joined :
    (∀ pairs : List (String × String),
      (∀ pair ∈ pairs, IsStatement pair.1.toList ∧ IsSeparator pair.2.toList) →
      splitStatements (joined pairs) = pairs.map (·.1) ∧
      ∀ last : String, IsStatement last.toList →
        splitStatements (joined pairs ++ last) = pairs.map (·.1) ++ [last]) ∧
    ∀ script : String,
      (∀ statement ∈ splitStatements script,
        IsStatement statement.toList ∧ splitStatements statement = [statement]) ∧
      ∀ statements : List String,
        splitStatements script = statements ↔
          IsCut script.toList (statements.map String.toList) := by
  refine ⟨fun pairs hpairs => ⟨?_, fun last hlast => ?_⟩, fun script => ⟨?_, ?_⟩⟩
  · have hcut := isCut_joined hpairs .nil
    rw [List.append_nil, List.append_nil] at hcut
    rw [splitStatements_eq_iff, List.map_map]
    exact hcut
  · have hcut := isCut_joined hpairs (.last hlast.isPart)
    rw [splitStatements_eq_iff, String.toList_append, List.map_append, List.map_map]
    exact hcut
  · intro statement hstatement
    have hcut := splitStatements_eq_iff.mp (Eq.refl (splitStatements script))
    have hisStatement := hcut.isStatement _ (List.mem_map_of_mem hstatement)
    exact ⟨hisStatement, splitStatements_eq_iff.mpr (.last hisStatement.isPart)⟩
  · intro statements
    exact splitStatements_eq_iff

/-- A statement may end in a semicolon, and hold one with blanks behind it. -/
theorem splitStatements_inverts_joined_of_semicolons :
    splitStatements (joined [("SELECT 1;", ";\n"), ("a; b", "; \r\n\n")] ++ "c ;") =
      ["SELECT 1;", "a; b", "c ;"] := by
  have hpairs : ∀ pair ∈ [("SELECT 1;", ";\n"), ("a; b", "; \r\n\n")],
      IsStatement pair.1.toList ∧ IsSeparator pair.2.toList := by
    rw [List.forall_mem_cons, List.forall_mem_singleton]
    constructor
    · refine ⟨⟨⟨by decide, ?_, ?_⟩, by decide⟩, [], rfl, List.forall_mem_nil _⟩
      · rintro _ ⟨⟩
        rfl
      · rintro _ ⟨⟩
        rfl
    · refine ⟨⟨⟨by decide, ?_, ?_⟩, by decide⟩, [' ', '\r', '\n'], rfl, ?_⟩
      · rintro _ ⟨⟩
        rfl
      · rintro _ ⟨⟩
        rfl
      · exact List.all_eq_true.mp (by decide)
  have hlast : IsStatement "c ;".toList := by
    refine ⟨⟨by decide, ?_, ?_⟩, by decide⟩
    · rintro _ ⟨⟩
      rfl
    · rintro _ ⟨⟩
      rfl
  exact (splitStatements_inverts_joined.1 _ hpairs).2 "c ;" hlast

end Sql

end TenantReports
