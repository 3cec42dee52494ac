import TenantReports.Proofs.Report.ColumnName
import TenantReports.Proofs.Text.Runs
import TenantReports.Proofs.Value.Mapping
import TenantReports.Report.Template

/-!
Filling in a template in one pass. A template splits in one way into plain texts and placeholders,
the leftmost placeholders first; the query is the plain texts with one text for each placeholder,
and nothing in those texts is looked at again.
-/

namespace TenantReports

open Text (isBlank Stops)

theorem Sql.code_of_isNameChar {c : Char} (h : isNameChar c = true) :
    ((65 ≤ c.toNat ∧ c.toNat ≤ 90 ∨ 97 ≤ c.toNat ∧ c.toNat ≤ 122) ∨
      48 ≤ c.toNat ∧ c.toNat ≤ 57) ∨ c = '_' := by
  change (((decide ('A'.toNat ≤ c.toNat ∧ c.toNat ≤ 'Z'.toNat) ||
    decide ('a'.toNat ≤ c.toNat) && decide (c.toNat ≤ 'z'.toNat)) ||
    decide ('0'.toNat ≤ c.toNat) && decide (c.toNat ≤ '9'.toNat)) || c == '_') = true at h
  simpa using h

/-- A character of a name is not blank. -/
theorem Sql.isBlank_of_isNameChar {c : Char} (h : isNameChar c = true) : isBlank c = false := by
  rcases code_of_isNameChar h with hcode | rfl
  · have hranges : ∀ range ∈ Text.blankRanges, range.2 < 48 ∨ 122 < range.1 := by decide
    rw [Bool.eq_false_iff]
    intro hblank
    obtain ⟨range, hrange, hlow, hhigh⟩ := Text.Ranges.has_iff.mp hblank
    have hapart := hranges range hrange
    omega
  · decide

/-! Placeholders -/

/-- A placeholder as it is written: a name between two pairs of braces, with blanks around it. -/
structure Placeholder where
  before : List Char
  name : String
  after : List Char
  isBlank_before : ∀ c ∈ before, isBlank c = true
  isIdentifier_name : Sql.isIdentifier name = true
  isBlank_after : ∀ c ∈ after, isBlank c = true

namespace Placeholder

def closing : List Char := ['\x7d', '\x7d']

/-- What stands behind the opening braces. -/
def inner (hole : Placeholder) : List Char :=
  hole.before ++ (hole.name.toList ++ (hole.after ++ closing))

def chars (hole : Placeholder) : List Char := '\x7b' :: '\x7b' :: hole.inner

/-- Whether a text begins with a placeholder. -/
def Begins (cs : List Char) : Prop :=
  ∃ (hole : Placeholder) (rest : List Char), cs = hole.chars ++ rest

variable (hole : Placeholder) {cs rest rest' : List Char} {name : String}

theorem name_eq_cons : ∃ c cs, hole.name.toList = c :: cs ∧ Sql.isNameChar c = true := by
  obtain ⟨hne, hall⟩ := Sql.isIdentifier_iff.mp hole.isIdentifier_name
  cases hcs : hole.name.toList with
  | nil => exact absurd (String.toList_eq_nil_iff.mp hcs) hne
  | cons c cs => exact ⟨c, cs, rfl, hall c (hcs ▸ List.mem_cons_self)⟩

theorem stops_name (rest : List Char) : Stops isBlank (hole.name.toList ++ rest) := by
  obtain ⟨c, cs, hcs, hc⟩ := hole.name_eq_cons
  rw [hcs]
  exact Text.stops_cons (Sql.isBlank_of_isNameChar hc) _

theorem stops_after (rest : List Char) :
    Stops Sql.isNameChar (hole.after ++ (closing ++ rest)) := by
  refine Text.stops_append (fun c hc => ?_) (Text.stops_cons (by decide) _)
  rw [Bool.eq_false_iff]
  intro hname
  exact Bool.eq_false_iff.mp (Sql.isBlank_of_isNameChar hname) (hole.isBlank_after c hc)

theorem inner_append (rest : List Char) :
    hole.inner ++ rest =
      hole.before ++ (hole.name.toList ++ (hole.after ++ (closing ++ rest))) := by
  simp only [inner, List.append_assoc]

theorem takeWhile_inner (rest : List Char) :
    (hole.inner ++ rest).takeWhile isBlank = hole.before := by
  rw [inner_append, Text.takeWhile_run hole.isBlank_before (hole.stops_name _)]

theorem dropWhile_inner (rest : List Char) :
    (hole.inner ++ rest).dropWhile isBlank =
      hole.name.toList ++ (hole.after ++ (closing ++ rest)) := by
  rw [inner_append, Text.dropWhile_run hole.isBlank_before (hole.stops_name _)]

/-- A placeholder is found where it begins. -/
theorem hole?_chars (rest : List Char) :
    Template.hole? (hole.chars ++ rest) = some (hole.name, rest) := by
  have hname : ∀ c ∈ hole.name.toList, Sql.isNameChar c = true := fun c =>
    Sql.isNameChar_of_mem hole.isIdentifier_name
  have hbehind : ((hole.name.toList ++ (hole.after ++ (closing ++ rest))).dropWhile
      Sql.isNameChar).dropWhile isBlank = '\x7d' :: '\x7d' :: rest := by
    rw [Text.dropWhile_run hname (hole.stops_after rest)]
    exact Text.dropWhile_run hole.isBlank_after (Text.stops_cons (by decide) _)
  obtain ⟨c, cs, hcs, -⟩ := hole.name_eq_cons
  change Template.hole? ('\x7b' :: '\x7b' :: (hole.inner ++ rest)) = _
  rw [Template.hole?, dropWhile_inner, Text.takeWhile_run hname (hole.stops_after rest), hbehind]
  simp only [hcs]
  rw [← hcs, String.ofList_toList]

/-- What is found is a placeholder. -/
theorem exists_of_hole? (h : Template.hole? cs = some (name, rest)) :
    ∃ hole : Placeholder, hole.name = name ∧ cs = hole.chars ++ rest := by
  unfold Template.hole? at h
  split at h
  · next tail =>
      dsimp only at h
      split at h
      · next c name' behind hname hbehind =>
          simp only [Option.some.injEq, Prod.mk.injEq] at h
          obtain ⟨rfl, rfl⟩ := h
          have hcs : c :: name' ++ (((tail.dropWhile isBlank).dropWhile Sql.isNameChar).takeWhile
              isBlank ++ (closing ++ behind)) = tail.dropWhile isBlank := by
            have hclosing : closing ++ behind = '\x7d' :: '\x7d' :: behind := rfl
            rw [hclosing, ← hbehind, List.takeWhile_append_dropWhile, ← hname,
              List.takeWhile_append_dropWhile]
          have hidentifier : Sql.isIdentifier (String.ofList (c :: name')) = true := by
            rw [Sql.isIdentifier_iff, String.toList_ofList]
            exact ⟨by simp, fun d hd => List.mem_takeWhile_imp (hname ▸ hd)⟩
          refine ⟨⟨tail.takeWhile isBlank, String.ofList (c :: name'),
            ((tail.dropWhile isBlank).dropWhile Sql.isNameChar).takeWhile isBlank,
            fun d => List.mem_takeWhile_imp, hidentifier, fun d => List.mem_takeWhile_imp⟩, ?_, ?_⟩
          · rw [hname]
          · rw [chars, List.cons_append, List.cons_append, inner_append, String.toList_ofList, hcs,
              List.takeWhile_append_dropWhile]
      · cases h
  · cases h

theorem begins_iff : Begins cs ↔ (Template.hole? cs).isSome = true := by
  rw [Option.isSome_iff_exists]
  constructor
  · rintro ⟨hole, rest, rfl⟩
    exact ⟨_, hole.hole?_chars rest⟩
  · rintro ⟨⟨name, rest⟩, h⟩
    obtain ⟨hole, -, rfl⟩ := exists_of_hole? h
    exact ⟨hole, rest, rfl⟩

instance (cs : List Char) : Decidable (Begins cs) := decidable_of_iff _ begins_iff.symm

/-- At one place at most one placeholder begins. -/
theorem eq_of_chars_append {hole hole' : Placeholder}
    (h : hole.chars ++ rest = hole'.chars ++ rest') : hole = hole' ∧ rest = rest' := by
  have hfound : some (hole.name, rest) = some (hole'.name, rest') := by
    rw [← hole.hole?_chars rest, ← hole'.hole?_chars rest', h]
  simp only [Option.some.injEq, Prod.mk.injEq] at hfound
  obtain ⟨hname, rfl⟩ := hfound
  have hinner : hole.inner ++ rest = hole'.inner ++ rest := by
    simpa [chars] using h
  have hbefore : hole.before = hole'.before := by
    rw [← hole.takeWhile_inner rest, hinner, hole'.takeWhile_inner]
  have hafter : hole.after = hole'.after := by
    have hdrop := congrArg (List.dropWhile isBlank) hinner
    rw [dropWhile_inner, dropWhile_inner, hname] at hdrop
    exact List.append_cancel_right (List.append_cancel_left hdrop)
  refine ⟨?_, rfl⟩
  cases hole
  cases hole'
  cases hname
  cases hbefore
  cases hafter
  rfl

theorem length_lt (rest : List Char) : rest.length < (hole.chars ++ rest).length :=
  Template.hole?_length_lt (hole.hole?_chars rest)

end Placeholder

namespace Template

open Placeholder (Begins)

/-- Induction along the reading of a text from the left: a placeholder is passed as a whole, any
other character by itself. -/
@[elab_as_elim]
theorem scan_induction {P : List Char → Prop} (nil : P [])
    (hole : ∀ (hole : Placeholder) rest, P rest → P (hole.chars ++ rest))
    (char : ∀ c rest, ¬ Begins (c :: rest) → P rest → P (c :: rest)) (cs : List Char) : P cs := by
  induction hn : cs.length using Nat.strongRecOn generalizing cs with
  | ind n ih =>
      subst hn
      by_cases hbegins : Begins cs
      · obtain ⟨first, rest, rfl⟩ := hbegins
        exact hole first rest (ih _ (first.length_lt rest) rest rfl)
      · cases cs with
        | nil => exact nil
        | cons c rest => exact char c rest hbegins (ih _ (Nat.lt_succ_self _) rest rfl)

theorem parts_nil : parts [] = [] := by
  rw [parts]
  rfl

theorem parts_hole (hole : Placeholder) (rest : List Char) :
    parts (hole.chars ++ rest) = .hole hole.name :: parts rest := by
  rw [parts]
  split
  · next name rest' hfound =>
      rw [hole.hole?_chars] at hfound
      cases hfound
      rfl
  · next hnone =>
      rw [hole.hole?_chars] at hnone
      cases hnone

theorem parts_char {c : Char} {rest : List Char} (h : ¬ Begins (c :: rest)) :
    parts (c :: rest) = .char c :: parts rest := by
  rw [Placeholder.begins_iff, Option.not_isSome_iff_eq_none] at h
  rw [parts]
  split
  · next hfound =>
      rw [h] at hfound
      cases hfound
  · rfl

end Template

/-! Splitting a template -/

/-- A text as plain texts and the placeholders between them. -/
inductive Splitting
  | last (plain : List Char)
  | next (plain : List Char) (hole : Placeholder) (rest : Splitting)

namespace Splitting

open Placeholder (Begins)

def chars : Splitting → List Char
  | last plain => plain
  | next plain hole rest => plain ++ (hole.chars ++ rest.chars)

/-- The names of the placeholders, in order. -/
def names : Splitting → List String
  | last _ => []
  | next _ hole rest => hole.name :: rest.names

/-- The text with others in the places of the placeholders. -/
def filled (text : String → List Char) : Splitting → List Char
  | last plain => plain
  | next plain hole rest => plain ++ (text hole.name ++ rest.filled text)

/-- No placeholder begins in a plain text with `behind` behind it. -/
def HoldsNone (plain behind : List Char) : Prop :=
  ∀ k < plain.length, ¬ Begins ((plain ++ behind).drop k)

instance (plain behind : List Char) : Decidable (HoldsNone plain behind) :=
  inferInstanceAs (Decidable (∀ k < plain.length, _))

/-- The placeholders are those that come first from the left: none begins before them. -/
def IsLeftmost : Splitting → Prop
  | last plain => HoldsNone plain []
  | next plain hole rest => HoldsNone plain (hole.chars ++ rest.chars) ∧ rest.IsLeftmost

instance decidableIsLeftmost : (s : Splitting) → Decidable s.IsLeftmost
  | last plain => inferInstanceAs (Decidable (HoldsNone plain []))
  | next plain hole rest =>
      have := decidableIsLeftmost rest
      inferInstanceAs (Decidable (HoldsNone plain (hole.chars ++ rest.chars) ∧ rest.IsLeftmost))

/-- One more character in front. -/
def cons (c : Char) : Splitting → Splitting
  | last plain => last (c :: plain)
  | next plain hole rest => next (c :: plain) hole rest

variable {s t : Splitting} {c : Char} {plain behind : List Char}

theorem chars_cons (c : Char) (s : Splitting) : (s.cons c).chars = c :: s.chars := by
  cases s <;> rfl

theorem holdsNone_nil : HoldsNone [] behind := fun _ hk => absurd hk (Nat.not_lt_zero _)

theorem holdsNone_cons :
    HoldsNone (c :: plain) behind ↔ ¬ Begins (c :: (plain ++ behind)) ∧ HoldsNone plain behind := by
  constructor
  · intro h
    exact ⟨h 0 (Nat.zero_lt_succ _), fun k hk => h (k + 1) (Nat.succ_lt_succ hk)⟩
  · rintro ⟨hfirst, hrest⟩ k hk
    cases k with
    | zero => exact hfirst
    | succ k => exact hrest k (Nat.lt_of_succ_lt_succ hk)

theorem isLeftmost_cons :
    (s.cons c).IsLeftmost ↔ ¬ Begins (c :: s.chars) ∧ s.IsLeftmost := by
  cases s with
  | last plain =>
      unfold cons IsLeftmost chars
      rw [holdsNone_cons, List.append_nil]
  | next plain hole rest =>
      change HoldsNone (c :: plain) (hole.chars ++ rest.chars) ∧ rest.IsLeftmost ↔ _
      rw [holdsNone_cons, and_assoc]
      rfl

/-- A splitting is empty, or begins with a placeholder or with a character of a plain text. -/
theorem cases_first (s : Splitting) :
    s = last [] ∨ (∃ hole rest, s = next [] hole rest) ∨ ∃ c rest, s = cons c rest := by
  rcases s with (_ | ⟨c, plain⟩) | ⟨_ | ⟨c, plain⟩, hole, rest⟩
  · exact .inl rfl
  · exact .inr (.inr ⟨c, last plain, rfl⟩)
  · exact .inr (.inl ⟨hole, rest, rfl⟩)
  · exact .inr (.inr ⟨c, next plain hole rest, rfl⟩)

/-- Every text can be split so that the placeholders come first from the left. -/
theorem exists_isLeftmost (cs : List Char) : ∃ s : Splitting, s.IsLeftmost ∧ s.chars = cs := by
  induction cs using Template.scan_induction with
  | nil => exact ⟨last [], holdsNone_nil, rfl⟩
  | hole hole rest ih =>
      obtain ⟨s, hs, rfl⟩ := ih
      exact ⟨next [] hole s, ⟨holdsNone_nil, hs⟩, rfl⟩
  | char c rest hnone ih =>
      obtain ⟨s, hs, rfl⟩ := ih
      exact ⟨s.cons c, isLeftmost_cons.mpr ⟨hnone, hs⟩, chars_cons c s⟩

/-- What stands first in a text tells what a splitting of it begins with. -/
theorem eq_nil_of_chars (h : s.chars = []) : s = last [] := by
  rcases s.cases_first with rfl | ⟨hole, rest, rfl⟩ | ⟨c, rest, rfl⟩
  · rfl
  · cases h
  · rw [chars_cons] at h
    cases h

theorem IsLeftmost.eq_next_of_chars {hole : Placeholder} {rest : List Char} (hs : s.IsLeftmost)
    (h : s.chars = hole.chars ++ rest) :
    ∃ s' : Splitting, s = next [] hole s' ∧ s'.IsLeftmost ∧ s'.chars = rest := by
  rcases s.cases_first with rfl | ⟨hole', s', rfl⟩ | ⟨c, s', rfl⟩
  · cases h
  · obtain ⟨rfl, rfl⟩ := Placeholder.eq_of_chars_append h
    exact ⟨s', rfl, hs.2, rfl⟩
  · rw [chars_cons] at h
    exact absurd ⟨hole, rest, h⟩ (isLeftmost_cons.mp hs).1

theorem IsLeftmost.eq_cons_of_chars {rest : List Char} (hs : s.IsLeftmost)
    (hnone : ¬ Begins (c :: rest)) (h : s.chars = c :: rest) :
    ∃ s' : Splitting, s = s'.cons c ∧ s'.IsLeftmost ∧ s'.chars = rest := by
  rcases s.cases_first with rfl | ⟨hole, s', rfl⟩ | ⟨d, s', rfl⟩
  · cases h
  · exact absurd ⟨hole, s'.chars, h.symm⟩ hnone
  · rw [chars_cons] at h
    cases h
    exact ⟨s', rfl, (isLeftmost_cons.mp hs).2, rfl⟩

/-- There is one way to split a text so that the placeholders come first from the left. -/
theorem IsLeftmost.eq_of_chars_eq (hs : s.IsLeftmost) (ht : t.IsLeftmost)
    (h : s.chars = t.chars) : s = t := by
  generalize hcs : t.chars = cs at h
  induction cs using Template.scan_induction generalizing s t with
  | nil => rw [eq_nil_of_chars h, eq_nil_of_chars hcs]
  | hole hole rest ih =>
      obtain ⟨s', rfl, hs', h'⟩ := hs.eq_next_of_chars h
      obtain ⟨t', rfl, ht', hcs'⟩ := ht.eq_next_of_chars hcs
      rw [ih hs' ht' hcs' h']
  | char c rest hnone ih =>
      obtain ⟨s', rfl, hs', h'⟩ := hs.eq_cons_of_chars hnone h
      obtain ⟨t', rfl, ht', hcs'⟩ := ht.eq_cons_of_chars hnone hcs
      rw [ih hs' ht' hcs' h']

/-- The parts of a splitting: the characters of the plain texts, and the placeholders. -/
def parts : Splitting → List TemplatePart
  | last plain => plain.map .char
  | next plain hole rest => plain.map .char ++ .hole hole.name :: rest.parts

theorem parts_cons (c : Char) (s : Splitting) : (s.cons c).parts = .char c :: s.parts := by
  cases s <;> rfl

theorem IsLeftmost.parts_eq (hs : s.IsLeftmost) : Template.parts s.chars = s.parts := by
  generalize hcs : s.chars = cs
  induction cs using Template.scan_induction generalizing s with
  | nil =>
      rw [eq_nil_of_chars hcs, Template.parts_nil]
      rfl
  | hole hole rest ih =>
      obtain ⟨s', rfl, hs', hcs'⟩ := hs.eq_next_of_chars hcs
      rw [Template.parts_hole, ih hs' hcs']
      rfl
  | char c rest hnone ih =>
      obtain ⟨s', rfl, hs', hcs'⟩ := hs.eq_cons_of_chars hnone hcs
      rw [Template.parts_char hnone, ih hs' hcs', parts_cons]

/-! Filling in -/

section Filling

variable {schemaName : String} {parameters other : Entries} {text : String → List Char}

theorem filled_cons (text : String → List Char) (c : Char) (s : Splitting) :
    (s.cons c).filled text = c :: s.filled text := by
  cases s <;> rfl

theorem names_cons (c : Char) (s : Splitting) : (s.cons c).names = s.names := by
  cases s <;> rfl

/-- Induction along a splitting, the plain texts character by character. -/
@[elab_as_elim]
theorem first_induction {P : Splitting → Prop} (nil : P (last []))
    (hole : ∀ hole rest, P rest → P (next [] hole rest))
    (char : ∀ c rest, P rest → P (cons c rest)) (s : Splitting) : P s := by
  induction s with
  | last plain =>
      induction plain with
      | nil => exact nil
      | cons c plain ih => exact char c _ ih
  | next plain first rest ih =>
      induction plain with
      | nil => exact hole first rest ih
      | cons c plain ih => exact char c _ ih

theorem intercalate_append (separator front first : List Char) (pieces : List (List Char)) :
    separator.intercalate ((front ++ first) :: pieces) =
      front ++ separator.intercalate (first :: pieces) := by
  cases pieces with
  | nil => rw [List.intercalate_singleton, List.intercalate_singleton]
  | cons second pieces =>
      rw [List.intercalate_cons_cons, List.intercalate_cons_cons]
      simp only [List.append_assoc]

/-- Other texts in the places of one name change nothing between these places. -/
theorem exists_filled_eq_intercalate (name : String) (text : String → List Char)
    (s : Splitting) : ∃ first pieces, ∀ text' : String → List Char,
      (∀ other, other ≠ name → text' other = text other) →
        s.filled text' = (text' name).intercalate (first :: pieces) := by
  induction s using first_induction with
  | nil => exact ⟨[], [], fun text' _ => (List.intercalate_singleton ..).symm⟩
  | hole hole rest ih =>
      obtain ⟨first, pieces, h⟩ := ih
      by_cases hname : hole.name = name
      · refine ⟨[], first :: pieces, fun text' htext => ?_⟩
        rw [List.intercalate_cons_cons, ← h text' htext, ← hname]
        rfl
      · refine ⟨text hole.name ++ first, pieces, fun text' htext => ?_⟩
        rw [intercalate_append, ← h text' htext, ← htext _ hname]
        rfl
  | char c rest ih =>
      obtain ⟨first, pieces, h⟩ := ih
      refine ⟨c :: first, pieces, fun text' htext => ?_⟩
      rw [filled_cons, h text' htext]
      exact (intercalate_append _ [c] first pieces).symm

end Filling

end Splitting

namespace Template

/-- What the placeholders of a name stand for: the schema, or the value of the parameter with that
name, which is null where it is missing. -/
def standIn (schemaName : String) (parameters : Entries) (name : String) : Result String :=
  if name = "schema" then .ok schemaName
  else
    match parameters.field? name with
    | none | some .null => .ok "NULL"
    | some value => Parameter.render value

variable {schemaName : String} {parameters other : Entries} {name : String} {fault : Fault}

theorem standIn_parameter (h : name ≠ "schema") :
    standIn schemaName parameters name = Parameter.render (parameters.field name) := by
  unfold standIn Entries.field
  rw [if_neg h]
  split
  · next heq => rw [heq]; rfl
  · next heq => rw [heq]; rfl
  · next heq => rw [heq]; rfl

theorem fill_hole : fill schemaName parameters (.hole name) =
    (standIn schemaName parameters name).map String.toList := by
  unfold fill
  by_cases hname : name = "schema"
  · subst hname
    rfl
  · dsimp only
    rw [if_neg hname, standIn_parameter hname]
    cases Parameter.render (parameters.field name) <;> rfl

theorem standIn_eq_error : standIn schemaName parameters name = .error fault ↔
    name ≠ "schema" ∧ ∃ value, parameters.field? name = some value ∧
      Parameter.render value = .error fault := by
  by_cases hname : name = "schema"
  · subst hname
    exact ⟨fun h => (nomatch h), fun h => absurd rfl h.1⟩
  · rw [standIn_parameter hname]
    unfold Entries.field
    cases hfound : parameters.field? name with
    | none => exact ⟨fun h => (nomatch h), fun ⟨_, _, h, _⟩ => (nomatch h)⟩
    | some value =>
        constructor
        · exact fun h => ⟨hname, value, rfl, h⟩
        · rintro ⟨-, _, ⟨⟩, h⟩
          exact h

theorem standIn_congr (h : name ≠ "schema" → other.field? name = parameters.field? name) :
    standIn schemaName other name = standIn schemaName parameters name := by
  unfold standIn
  split
  · rfl
  · next hname => rw [h hname]

end Template

namespace Splitting

open Template (standIn fill)

variable {s : Splitting} {schemaName : String} {parameters other : Entries}

/-- With a text for every name, a splitting is filled in. -/
theorem mapM_fill_eq_ok {texts : String → String}
    (h : ∀ name ∈ s.names, standIn schemaName parameters name = .ok (texts name)) :
    ∃ filled, s.parts.mapM (fill schemaName parameters) = .ok filled ∧
      filled.flatten = s.filled fun name => (texts name).toList := by
  induction s using first_induction with
  | nil => exact ⟨[], rfl, rfl⟩
  | hole hole rest ih =>
      obtain ⟨filled, hfilled, hflatten⟩ :=
        ih fun name hname => h name (List.mem_cons_of_mem _ hname)
      refine ⟨(texts hole.name).toList :: filled, ?_, ?_⟩
      · refine mapM_eq_ok.mpr (.cons ?_ (mapM_eq_ok.mp hfilled))
        rw [Template.fill_hole, h hole.name List.mem_cons_self]
        rfl
      · rw [List.flatten_cons, hflatten]
        rfl
  | char c rest ih =>
      rw [names_cons] at h
      obtain ⟨filled, hfilled, hflatten⟩ := ih h
      refine ⟨[c] :: filled, ?_, ?_⟩
      · rw [parts_cons]
        exact mapM_eq_ok.mpr (.cons rfl (mapM_eq_ok.mp hfilled))
      · rw [List.flatten_cons, hflatten, filled_cons]
        rfl

theorem hole_mem_parts {name : String} (h : name ∈ s.names) : TemplatePart.hole name ∈ s.parts := by
  induction s using first_induction with
  | nil => cases h
  | hole hole rest ih =>
      rcases List.mem_cons.mp h with rfl | h
      · exact List.mem_cons_self
      · exact List.mem_cons_of_mem _ (ih h)
  | char c rest ih =>
      rw [names_cons] at h
      rw [parts_cons]
      exact List.mem_cons_of_mem _ (ih h)

theorem exists_texts (h : ∀ name ∈ s.names, ∃ text,
    standIn schemaName parameters name = .ok text) :
    ∃ texts : String → String, ∀ name ∈ s.names,
      standIn schemaName parameters name = .ok (texts name) := by
  refine ⟨fun name => (standIn schemaName parameters name).toOption.getD "", fun name hname => ?_⟩
  obtain ⟨text, htext⟩ := h name hname
  dsimp only
  rw [htext]
  rfl

/-- A splitting that is filled in has a text for every name. -/
theorem exists_standIn {filled : List (List Char)}
    (h : s.parts.mapM (fill schemaName parameters) = .ok filled) :
    ∀ name ∈ s.names, ∃ text, standIn schemaName parameters name = .ok text := by
  intro name hname
  obtain ⟨cs, hcs⟩ := exists_mapM_eq_ok.mp ⟨filled, h⟩ _ (hole_mem_parts hname)
  rw [Template.fill_hole] at hcs
  cases hstands : standIn schemaName parameters name with
  | error fault =>
      rw [hstands] at hcs
      cases hcs
  | ok text => exact ⟨text, rfl⟩

theorem mapM_fill_congr (h : ∀ name ∈ s.names,
      standIn schemaName other name = standIn schemaName parameters name) :
    s.parts.mapM (fill schemaName other) = s.parts.mapM (fill schemaName parameters) := by
  induction s using first_induction with
  | nil => rfl
  | hole hole rest ih =>
      have hrest := ih fun name hname => h name (List.mem_cons_of_mem _ hname)
      change (TemplatePart.hole hole.name :: rest.parts).mapM _ =
        (TemplatePart.hole hole.name :: rest.parts).mapM _
      rw [List.mapM_cons, List.mapM_cons, Template.fill_hole, Template.fill_hole,
        h hole.name List.mem_cons_self, hrest]
  | char c rest ih =>
      rw [names_cons] at h
      rw [parts_cons, List.mapM_cons, List.mapM_cons, ih h]
      rfl

theorem IsLeftmost.render_eq {template : String} (hs : s.IsLeftmost)
    (hchars : s.chars = template.toList) (hschema : Sql.isIdentifier schemaName = true)
    (parameters : Entries) :
    Template.render (.trusted template) parameters (.text schemaName) =
      (do return String.ofList (← s.parts.mapM (fill schemaName parameters)).flatten) := by
  unfold Template.render
  rw [Sql.identifierOf_text hschema, ← hs.parts_eq, hchars]
  rfl

end Splitting

namespace Template

open Splitting

/-- What a template that splits in one way is filled in to. -/
structure OnePass (split : Splitting) (template schemaName : String) (parameters : Entries) :
    Prop where
  /-- The query is the plain texts, with what every placeholder stands for in its place. -/
  filled : ∀ sql, render (.trusted template) parameters (.text schemaName) = .ok sql ↔
    ∃ texts : String → String,
      (∀ name ∈ split.names, standIn schemaName parameters name = .ok (texts name)) ∧
        sql.toList = split.filled fun name => (texts name).toList
  /-- There is no query exactly if some placeholder names a parameter that has no literal. -/
  fails : (∃ fault, render (.trusted template) parameters (.text schemaName) = .error fault) ↔
    ∃ name ∈ split.names, name ≠ "schema" ∧ ∃ value fault,
      parameters.field? name = some value ∧ Parameter.render value = .error fault
  /-- A text that is the value of a parameter stands in its places as a literal, whatever it
  holds; nothing else of the query depends on it. -/
  verbatim : ∀ name, name ≠ "schema" → ∀ s sql,
    render (.trusted template) (parameters.put (.text name) (.text s)) (.text schemaName) =
      .ok sql → ∃ pieces, ∀ s',
        render (.trusted template) (parameters.put (.text name) (.text s')) (.text schemaName) =
          .ok (String.ofList ((Sql.literalChars s'.toList).intercalate pieces))
  /-- Only the parameters that placeholders name count, and the schema is none of them. -/
  unaware : ∀ other : Entries,
    (∀ name ∈ split.names, name ≠ "schema" → other.field? name = parameters.field? name) →
      render (.trusted template) other (.text schemaName) =
        render (.trusted template) parameters (.text schemaName)

section

variable {split : Splitting} {template schemaName : String} {parameters : Entries}

theorem render_eq_ok_iff (hs : split.IsLeftmost) (hchars : split.chars = template.toList)
    (hschema : Sql.isIdentifier schemaName = true) {sql : String} :
    render (.trusted template) parameters (.text schemaName) = .ok sql ↔
      ∃ texts : String → String,
        (∀ name ∈ split.names, standIn schemaName parameters name = .ok (texts name)) ∧
          sql.toList = split.filled fun name => (texts name).toList := by
  rw [hs.render_eq hchars hschema, bind_eq_ok]
  constructor
  · rintro ⟨filled, hfilled, hsql⟩
    cases hsql
    obtain ⟨texts, htexts⟩ := exists_texts (exists_standIn hfilled)
    obtain ⟨filled', hfilled', hflatten⟩ := mapM_fill_eq_ok htexts
    cases hfilled.symm.trans hfilled'
    exact ⟨texts, htexts, by rw [String.toList_ofList, hflatten]⟩
  · rintro ⟨texts, htexts, hsql⟩
    obtain ⟨filled, hfilled, hflatten⟩ := mapM_fill_eq_ok htexts
    refine ⟨filled, hfilled, ?_⟩
    rw [hflatten, ← hsql, String.ofList_toList]
    rfl

theorem render_eq_error_iff (hs : split.IsLeftmost) (hchars : split.chars = template.toList)
    (hschema : Sql.isIdentifier schemaName = true) :
    (∃ fault, render (.trusted template) parameters (.text schemaName) = .error fault) ↔
      ∃ name ∈ split.names, ∃ fault, standIn schemaName parameters name = .error fault := by
  constructor
  · rintro ⟨fault, hfault⟩
    by_contra! hnone
    have hstands : ∀ name ∈ split.names, ∃ text, standIn schemaName parameters name = .ok text := by
      intro name hname
      cases hstands : standIn schemaName parameters name with
      | error fault => exact absurd hstands (hnone name hname fault)
      | ok text => exact ⟨text, rfl⟩
    obtain ⟨texts, htexts⟩ := exists_texts hstands
    have hok := (render_eq_ok_iff hs hchars hschema).mpr ⟨texts, htexts, String.toList_ofList⟩
    cases hok.symm.trans hfault
  · rintro ⟨name, hname, fault, hstands⟩
    cases hrender : render (.trusted template) parameters (.text schemaName) with
    | error fault => exact ⟨fault, rfl⟩
    | ok sql =>
        obtain ⟨texts, htexts, -⟩ := (render_eq_ok_iff hs hchars hschema).mp hrender
        cases hstands.symm.trans (htexts name hname)

/-- The literals of texts in the places of a parameter are all that tells queries apart in which
it has different texts. -/
theorem render_put_text (hs : split.IsLeftmost) (hchars : split.chars = template.toList)
    (hschema : Sql.isIdentifier schemaName = true) {name s sql : String} (hname : name ≠ "schema")
    (h : render (.trusted template) (parameters.put (.text name) (.text s)) (.text schemaName) =
      .ok sql) :
    ∃ pieces, ∀ s',
      render (.trusted template) (parameters.put (.text name) (.text s')) (.text schemaName) =
        .ok (String.ofList ((Sql.literalChars s'.toList).intercalate pieces)) := by
  obtain ⟨texts, htexts, -⟩ := (render_eq_ok_iff hs hchars hschema).mp h
  obtain ⟨first, pieces, hpieces⟩ :=
    split.exists_filled_eq_intercalate name fun other => (texts other).toList
  refine ⟨first :: pieces, fun s' => ?_⟩
  have hliteral : (Sql.quoteLiteral (.text s')).toList = Sql.literalChars s'.toList :=
    String.toList_ofList
  let texts' (other : String) : String :=
    if other = name then Sql.quoteLiteral (.text s') else texts other
  have htexts' : ∀ other, other ≠ name → texts' other = texts other := fun other hother =>
    if_neg hother
  have hsame : texts' name = Sql.quoteLiteral (.text s') := if_pos rfl
  refine (render_eq_ok_iff hs hchars hschema).mpr ⟨texts', fun other hother => ?_, ?_⟩
  · by_cases heq : other = name
    · rw [heq, hsame, standIn_parameter hname, Entries.field, Entries.field?_put, if_pos rfl]
      rfl
    · rw [htexts' other heq, ← htexts other hother]
      refine standIn_congr fun _ => ?_
      rw [Entries.field?_put, Entries.field?_put, if_neg (Ne.symm heq), if_neg (Ne.symm heq)]
  · have hothers : ∀ other, other ≠ name → (texts' other).toList = (texts other).toList := by
      intro other hother
      rw [htexts' other hother]
    rw [hpieces (fun other => (texts' other).toList) hothers, String.toList_ofList, hsame, hliteral]

end

/-- A template in a schema splits in one way so that its placeholders come first from the left,
and is filled in in one pass. -/
theorem render_onePass {template schemaName : String}
    (hschema : Sql.isIdentifier schemaName = true) :
    ∃ split : Splitting,
      (∀ s : Splitting, s.IsLeftmost ∧ s.chars = template.toList ↔ s = split) ∧
        ∀ parameters, OnePass split template schemaName parameters := by
  obtain ⟨split, hsplit, hchars⟩ := exists_isLeftmost template.toList
  refine ⟨split, fun s => ⟨fun ⟨hs, hcs⟩ => ?_, ?_⟩, fun parameters => ⟨?_, ?_, ?_, ?_⟩⟩
  · exact hs.eq_of_chars_eq hsplit (hcs.trans hchars.symm)
  · rintro rfl
    exact ⟨hsplit, hchars⟩
  · intro sql
    exact render_eq_ok_iff hsplit hchars hschema
  · rw [render_eq_error_iff hsplit hchars hschema]
    simp only [standIn_eq_error, exists_and_left, exists_comm]
  · intro name hname s sql h
    exact render_put_text hsplit hchars hschema hname h
  · intro other hother
    rw [hsplit.render_eq hchars hschema, hsplit.render_eq hchars hschema,
      mapM_fill_congr fun name hname => standIn_congr (hother name hname)]

/-- Braces around a placeholder stay, and braces in a value are part of the value. -/
theorem render_onePass_of_nested :
    Sql.isIdentifier "tenant_a" = true ∧ ∃ split : Splitting,
      split.chars = "\x7b\x7b\x7b\x7ba\x7d\x7d\x7d\x7d \x7b\x7bschema\x7d\x7d".toList ∧
      split.names = ["a", "schema"] ∧
      render (.trusted "\x7b\x7b\x7b\x7ba\x7d\x7d\x7d\x7d \x7b\x7bschema\x7d\x7d")
          [(.text "a", .text "\x7b\x7bschema\x7d\x7d"), (.text "schema", .list [])]
          (.text "tenant_a") =
        .ok "\x7b\x7b'\x7b\x7bschema\x7d\x7d'\x7d\x7d tenant_a" := by
  refine ⟨by decide, ?_⟩
  obtain ⟨split, hsplit, hpass⟩ := @render_onePass
    "\x7b\x7b\x7b\x7ba\x7d\x7d\x7d\x7d \x7b\x7bschema\x7d\x7d" "tenant_a" (by decide)
  let found : Splitting := .next "\x7b\x7b".toList ⟨[], "a", [], by simp, by decide, by simp⟩
    (.next "\x7d\x7d ".toList ⟨[], "schema", [], by simp, by decide, by simp⟩ (.last []))
  have hfound : found = split := (hsplit found).mp (by decide +kernel)
  subst hfound
  refine ⟨found, rfl, rfl, ((hpass _).filled _).mpr
    ⟨fun name => if name = "a" then "'\x7b\x7bschema\x7d\x7d'" else "tenant_a", ?_, ?_⟩⟩
  · change ∀ name ∈ ["a", "schema"], _
    rw [List.forall_mem_cons, List.forall_mem_singleton]
    exact ⟨rfl, rfl⟩
  · rfl

end Template

end TenantReports
