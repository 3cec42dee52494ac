import TenantReports.Proofs.Json.Scalars
import TenantReports.Proofs.Value.Settled

/-!
JSON text reads back, by the standard's rules, as the plain value that it was written for.
-/

namespace TenantReports.Json

open TenantReports.Text
open TenantReports.Decimal

/-! Fixed words -/

theorem word?_append (word : String) (rest : List Char) :
    word? word (word.toList ++ rest) = some rest := by
  unfold word?
  rw [if_pos (List.isPrefixOf_iff_prefix.mpr (List.prefix_append _ _)), ← String.length_toList,
    List.drop_left]

theorem word?_eq_none {word : String} {c d : Char} {letters rest : List Char}
    (hword : word.toList = d :: letters) (h : d ≠ c) : word? word (c :: rest) = none := by
  unfold word?
  rw [if_neg]
  rw [hword, List.isPrefixOf_iff_prefix, List.cons_prefix_cons]
  exact fun hprefix => h hprefix.1

/-! Values -/

section Leaves

variable (fuel : Nat) {rest : List Char}

/-- What begins neither a string nor a list nor a mapping is a word or a number. -/
theorem value?_leaf {c : Char} (hc : c ≠ '"' ∧ c ≠ '[' ∧ c ≠ '\x7b') (cs : List Char) :
    value? standardRules (fuel + 1) (c :: cs) =
      (((word? "null" (c :: cs)).map (Value.null, ·)) <|>
        ((word? "true" (c :: cs)).map (Value.bool true, ·)) <|>
        ((word? "false" (c :: cs)).map (Value.bool false, ·)) <|>
        number? standardRules (c :: cs)) := by
  rw [value?]
  · rfl
  · simp [hc.1]
  · simp [hc.2.1]
  · simp [hc.2.2]

theorem value?_null : value? standardRules (fuel + 1) (chars .null ++ rest) =
    some (.null, rest) := by
  have hword := word?_append "null" rest
  have hletters : "null".toList = ['n', 'u', 'l', 'l'] := rfl
  rw [hletters, List.cons_append] at hword
  rw [chars, hletters, List.cons_append, value?_leaf fuel (by decide), hword]
  rfl

theorem value?_true : value? standardRules (fuel + 1) (chars (.bool true) ++ rest) =
    some (.bool true, rest) := by
  have hword := word?_append "true" rest
  have hletters : "true".toList = ['t', 'r', 'u', 'e'] := rfl
  rw [hletters, List.cons_append] at hword
  rw [chars, if_pos rfl, hletters, List.cons_append, value?_leaf fuel (by decide), hword,
    word?_eq_none (d := 'n') rfl (by decide)]
  rfl

theorem value?_false : value? standardRules (fuel + 1) (chars (.bool false) ++ rest) =
    some (.bool false, rest) := by
  have hword := word?_append "false" rest
  have hletters : "false".toList = ['f', 'a', 'l', 's', 'e'] := rfl
  rw [hletters, List.cons_append] at hword
  rw [chars, if_neg (by decide), hletters, List.cons_append, value?_leaf fuel (by decide), hword,
    word?_eq_none (d := 'n') rfl (by decide), word?_eq_none (d := 't') rfl (by decide)]
  rfl

theorem value?_int (n : Int) (h : Stops continuesNumber rest) :
    value? standardRules (fuel + 1) (chars (.int n) ++ rest) = some (.int n, rest) := by
  have hnumber := number?_intDigits h n
  obtain ⟨c, cs, hcs, hc⟩ := exists_intDigits_eq_cons n
  have hother : ∀ d, opensNumber d = false → d ≠ c := by
    rintro d hd rfl
    rw [hd] at hc
    cases hc
  rw [hcs, List.cons_append] at hnumber
  rw [chars, hcs, List.cons_append, value?_leaf, hnumber,
    word?_eq_none rfl (hother 'n' (by decide)), word?_eq_none rfl (hother 't' (by decide)),
    word?_eq_none rfl (hother 'f' (by decide))]
  · rfl
  · exact ⟨(hother '"' (by decide)).symm, (hother '[' (by decide)).symm,
      (hother '\x7b' (by decide)).symm⟩

theorem value?_text (s : String) :
    value? standardRules (fuel + 1) (chars (.text s) ++ rest) = some (.text s, rest) := by
  rw [chars, textChars_append, value?, textBody?_string]
  change some (textOf _, rest) = _
  rw [textOf_map_some, String.ofList_toList]

end Leaves

/-- What does not begin with a blank, nor as a list or a mapping ends. -/
def Opens (cs : List Char) : Prop :=
  ∃ c rest, cs = c :: rest ∧ isSpace c = false ∧ c ≠ ']' ∧ c ≠ '\x7d'

theorem Opens.append {cs : List Char} (h : Opens cs) (rest : List Char) : Opens (cs ++ rest) := by
  obtain ⟨c, cs, rfl, hc⟩ := h
  exact ⟨c, cs ++ rest, rfl, hc⟩

theorem Opens.skipSpace_eq {cs : List Char} (h : Opens cs) : skipSpace cs = cs := by
  obtain ⟨c, cs, rfl, hspace, -⟩ := h
  exact (stops_cons hspace cs).dropWhile_eq

/-- A value whose text is ASCII and is read back, whatever follows that does not continue a
number. -/
structure RoundTrips (v : Value) : Prop where
  opens : Opens (chars v)
  ascii : ∀ c ∈ chars v, c.toNat < 128
  read : ∀ (fuel : Nat) (rest : List Char), (chars v).length ≤ fuel + 1 →
    Stops continuesNumber rest → value? standardRules (fuel + 1) (chars v ++ rest) = some (v, rest)

theorem RoundTrips.value?_chars {v : Value} (h : RoundTrips v) {fuel : Nat} {rest : List Char}
    (hfuel : (chars v).length ≤ fuel) (hrest : Stops continuesNumber rest) :
    value? standardRules fuel (chars v ++ rest) = some (v, rest) := by
  obtain ⟨c, cs, hcs, -⟩ := h.opens
  cases fuel with
  | zero =>
      rw [hcs] at hfuel
      cases hfuel
  | succ fuel => exact h.read fuel rest hfuel hrest

theorem roundTrips_null : RoundTrips .null where
  opens := ⟨'n', _, by rw [chars]; rfl, by decide⟩
  ascii := by
    rw [chars]
    exact ascii_of_all (by decide)
  read := fun fuel _ _ _ => value?_null fuel

theorem roundTrips_bool (b : Bool) : RoundTrips (.bool b) where
  opens := by
    cases b with
    | true => exact ⟨'t', _, by rw [chars]; rfl, by decide⟩
    | false => exact ⟨'f', _, by rw [chars]; rfl, by decide⟩
  ascii := by
    rw [chars]
    cases b <;> exact ascii_of_all (by decide)
  read := by
    intro fuel rest _ _
    cases b with
    | true => exact value?_true fuel
    | false => exact value?_false fuel

theorem opens_intDigits (n : Int) : Opens (intDigits n) := by
  obtain ⟨c, cs, hcs, hc⟩ := exists_intDigits_eq_cons n
  have hspace : isSpace c = false := by
    refine Bool.eq_false_iff.mpr fun hspace => ?_
    simp only [isSpace, Bool.or_eq_true, beq_iff_eq] at hspace
    obtain ((rfl | rfl) | rfl) | rfl := hspace
    all_goals exact absurd hc (by decide)
  refine ⟨c, cs, hcs, hspace, ?_, ?_⟩
  · rintro rfl
    exact absurd hc (by decide)
  · rintro rfl
    exact absurd hc (by decide)

theorem roundTrips_int (n : Int) : RoundTrips (.int n) where
  opens := by
    rw [chars]
    exact opens_intDigits n
  ascii := by
    rw [chars]
    exact ascii_intDigits n
  read := fun fuel _ _ hrest => value?_int fuel n hrest

theorem roundTrips_text (s : String) : RoundTrips (.text s) where
  opens := ⟨'"', _, by rw [chars]; rfl, by decide⟩
  ascii := by
    rw [chars]
    exact ascii_textChars _
  read := fun fuel _ _ _ => value?_text fuel s

/-! Parts behind one another -/

theorem joined_cons_cons (first second : List Char) (parts : List (List Char)) :
    List.intercalate separator (first :: second :: parts) =
      first ++ ',' :: ' ' :: List.intercalate separator (second :: parts) := by
  rw [List.intercalate_cons_cons, List.append_assoc]
  rfl

theorem opens_joined {first : List Char} (h : Opens first) (parts : List (List Char)) :
    Opens (List.intercalate separator (first :: parts)) := by
  cases parts with
  | nil =>
      rw [List.intercalate_singleton]
      exact h
  | cons second parts =>
      rw [joined_cons_cons]
      exact h.append _

theorem ascii_joined {parts : List (List Char)} (h : ∀ part ∈ parts, ∀ c ∈ part, c.toNat < 128) :
    ∀ c ∈ List.intercalate separator parts, c.toNat < 128 := by
  induction parts with
  | nil => exact List.forall_mem_nil _
  | cons first parts ih =>
      obtain ⟨hfirst, hparts⟩ := List.forall_mem_cons.mp h
      cases parts with
      | nil =>
          rw [List.intercalate_singleton]
          exact hfirst
      | cons second parts =>
          rw [joined_cons_cons, List.forall_mem_append, List.forall_mem_cons, List.forall_mem_cons]
          exact ⟨hfirst, by decide, by decide, ih hparts⟩

/-! Lists -/

section Lists

variable {fuel : Nat} {cs rest : List Char} {item : Value}

theorem value?_list (hopens : Opens cs) {items : List Value}
    (h : items? standardRules fuel cs = some (items, rest)) :
    value? standardRules (fuel + 1) ('[' :: cs) = some (.list items, rest) := by
  obtain ⟨c, cs', rfl, -, hc, -⟩ := id hopens
  rw [value?, hopens.skipSpace_eq]
  split
  · next hclose => exact absurd (List.cons.inj hclose).1 hc
  · rw [h]
    rfl

theorem items?_close (h : value? standardRules fuel cs = some (item, ']' :: rest)) :
    items? standardRules (fuel + 1) cs = some ([item], rest) := by
  rw [items?, h]
  rfl

theorem items?_comma (h : value? standardRules fuel cs = some (item, ',' :: rest))
    {items : List Value} {rest' : List Char}
    (hitems : items? standardRules fuel (skipSpace rest) = some (items, rest')) :
    items? standardRules (fuel + 1) cs = some (item :: items, rest') := by
  rw [items?, h]
  change (items? standardRules fuel (skipSpace rest)).bind _ = _
  rw [hitems]
  rfl

end Lists

theorem itemChars_eq_map (items : List Value) : itemChars items = items.map chars := by
  induction items with
  | nil => rfl
  | cons item items ih => rw [itemChars, ih, List.map_cons]

theorem items?_joined {items : List Value} (h : ∀ item ∈ items, RoundTrips item)
    (hne : items ≠ []) {fuel : Nat}
    (hfuel : (List.intercalate separator (items.map chars)).length < fuel) (rest : List Char) :
    items? standardRules fuel (List.intercalate separator (items.map chars) ++ ']' :: rest) =
      some (items, rest) := by
  induction items generalizing fuel with
  | nil => exact absurd rfl hne
  | cons item items ih =>
      obtain ⟨fuel, rfl⟩ := Nat.exists_eq_add_one.mpr (Nat.zero_lt_of_lt hfuel)
      obtain ⟨hitem, hitems⟩ := List.forall_mem_cons.mp h
      cases items with
      | nil =>
          rw [List.map_singleton, List.intercalate_singleton] at hfuel ⊢
          exact items?_close (hitem.value?_chars (Nat.le_of_lt_succ hfuel) (stops_cons rfl _))
      | cons second items =>
          have hsecond := (List.forall_mem_cons.mp hitems).1.opens
          rw [List.map_cons, List.map_cons, joined_cons_cons, ← List.map_cons] at hfuel ⊢
          rw [List.length_append, List.length_cons, List.length_cons] at hfuel
          rw [List.append_assoc, List.cons_append, List.cons_append]
          refine items?_comma (hitem.value?_chars (by omega) (stops_cons rfl _)) ?_
          change items? standardRules fuel (skipSpace (List.intercalate _ _ ++ _)) = _
          rw [List.map_cons, ((opens_joined hsecond _).append _).skipSpace_eq, ← List.map_cons]
          exact ih hitems (List.cons_ne_nil _ _) (by omega)

theorem roundTrips_list {items : List Value} (h : ∀ item ∈ items, RoundTrips item) :
    RoundTrips (.list items) where
  opens := ⟨'[', _, by rw [chars]; rfl, by decide⟩
  ascii := by
    rw [chars, itemChars_eq_map, List.cons_append, List.forall_mem_cons, List.forall_mem_append,
      List.forall_mem_singleton]
    refine ⟨by decide, ascii_joined ?_, by decide⟩
    exact List.forall_mem_map.mpr fun item hitem => (h item hitem).ascii
  read := by
    intro fuel rest hfuel _
    rw [chars, itemChars_eq_map] at hfuel ⊢
    rw [List.length_append, List.length_cons, List.length_singleton] at hfuel
    rw [List.cons_append, List.cons_append, List.append_assoc, List.singleton_append]
    cases items with
    | nil => rfl
    | cons first items =>
        have hfirst := (List.forall_mem_cons.mp h).1.opens
        exact value?_list ((opens_joined hfirst _).append _)
          (items?_joined h (List.cons_ne_nil _ _) (Nat.le_of_succ_le_succ hfuel) rest)

/-! Mappings -/

section Mappings

variable {fuel : Nat} {cs rest : List Char} {v : Value}

theorem value?_mapping (hopens : Opens cs) {entries : List (Value × Value)}
    (h : entries? standardRules fuel cs = some (entries, rest)) :
    value? standardRules (fuel + 1) ('\x7b' :: cs) =
      some (.mapping (Entries.ofPairs entries), rest) := by
  obtain ⟨c, cs', rfl, -, -, hc⟩ := id hopens
  rw [value?, hopens.skipSpace_eq]
  split
  · next hclose => exact absurd (List.cons.inj hclose).1 hc
  · rw [h]
    rfl

theorem entries?_close (key : String) (hopens : Opens cs)
    (h : value? standardRules fuel cs = some (v, '\x7d' :: rest)) :
    entries? standardRules (fuel + 1) (textChars key.toList ++ ':' :: ' ' :: cs) =
      some ([(.text key, v)], rest) := by
  rw [textChars_append, entries?, textBody?_string]
  change (value? standardRules fuel (skipSpace cs)).bind _ = _
  rw [hopens.skipSpace_eq, h, textOf_map_some, String.ofList_toList]
  rfl

theorem entries?_comma (key : String) (hopens : Opens cs)
    (h : value? standardRules fuel cs = some (v, ',' :: rest))
    {entries : List (Value × Value)} {rest' : List Char}
    (hentries : entries? standardRules fuel (skipSpace rest) = some (entries, rest')) :
    entries? standardRules (fuel + 1) (textChars key.toList ++ ':' :: ' ' :: cs) =
      some ((.text key, v) :: entries, rest') := by
  rw [textChars_append, entries?, textBody?_string]
  change (value? standardRules fuel (skipSpace cs)).bind _ = _
  rw [hopens.skipSpace_eq, h, textOf_map_some, String.ofList_toList]
  change (entries? standardRules fuel (skipSpace rest)).bind _ = _
  rw [hentries]
  rfl

end Mappings

/-- The text of an entry. -/
def entryText (entry : Value × Value) : List Char :=
  textChars entry.1.plainChars ++ ':' :: ' ' :: chars entry.2

theorem entryChars_eq_map (entries : Entries) : entryChars entries = entries.map entryText := by
  induction entries with
  | nil => rfl
  | cons entry entries ih =>
      rw [entryChars, ih, List.map_cons]
      rfl

theorem entryText_append (key : String) (v : Value) (rest : List Char) :
    entryText (.text key, v) ++ rest =
      textChars key.toList ++ ':' :: ' ' :: (chars v ++ rest) := by
  unfold entryText
  rw [List.append_assoc, List.cons_append, List.cons_append]
  rfl

theorem length_chars_lt (entry : Value × Value) :
    (chars entry.2).length < (entryText entry).length := by
  unfold entryText
  rw [List.length_append, List.length_cons, List.length_cons]
  omega

theorem opens_entryText (entry : Value × Value) : Opens (entryText entry) :=
  ⟨'"', _, rfl, by decide⟩

theorem ascii_entryText {entry : Value × Value} (h : RoundTrips entry.2) :
    ∀ c ∈ entryText entry, c.toNat < 128 := by
  unfold entryText
  rw [List.forall_mem_append, List.forall_mem_cons, List.forall_mem_cons]
  exact ⟨ascii_textChars _, by decide, by decide, h.ascii⟩

theorem entries?_joined {entries : Entries} (htexts : entries.HasTextKeys)
    (h : ∀ entry ∈ entries, RoundTrips entry.2) (hne : entries ≠ []) {fuel : Nat}
    (hfuel : (List.intercalate separator (entries.map entryText)).length < fuel)
    (rest : List Char) :
    entries? standardRules fuel
        (List.intercalate separator (entries.map entryText) ++ '\x7d' :: rest) =
      some (entries, rest) := by
  induction entries generalizing fuel with
  | nil => exact absurd rfl hne
  | cons entry entries ih =>
      obtain ⟨fuel, rfl⟩ := Nat.exists_eq_add_one.mpr (Nat.zero_lt_of_lt hfuel)
      obtain ⟨_, v⟩ := entry
      obtain ⟨⟨key, rfl⟩, hothers⟩ := List.forall_mem_cons.mp htexts
      obtain ⟨hvalue, hvalues⟩ := List.forall_mem_cons.mp h
      dsimp only at hvalue
      have hlength : (chars v).length < (entryText (.text key, v)).length :=
        length_chars_lt (.text key, v)
      cases entries with
      | nil =>
          rw [List.map_singleton, List.intercalate_singleton] at hfuel ⊢
          rw [entryText_append]
          exact entries?_close key (hvalue.opens.append _)
            (hvalue.value?_chars (by omega) (stops_cons rfl _))
      | cons second entries =>
          rw [List.map_cons, List.map_cons, joined_cons_cons, ← List.map_cons] at hfuel ⊢
          rw [List.length_append, List.length_cons, List.length_cons] at hfuel
          rw [List.append_assoc, entryText_append, List.cons_append, List.cons_append]
          refine entries?_comma key (hvalue.opens.append _)
            (hvalue.value?_chars (by omega) (stops_cons rfl _)) ?_
          change entries? standardRules fuel (skipSpace (List.intercalate _ _ ++ _)) = _
          rw [List.map_cons, ((opens_joined (opens_entryText second) _).append _).skipSpace_eq,
            ← List.map_cons]
          exact ih hothers hvalues (List.cons_ne_nil _ _) (by omega)

theorem roundTrips_mapping {entries : Entries} (htexts : entries.HasTextKeys)
    (hdistinct : (entries.map (·.1)).Nodup) (h : ∀ entry ∈ entries, RoundTrips entry.2) :
    RoundTrips (.mapping entries) where
  opens := ⟨'\x7b', _, by rw [chars]; rfl, by decide⟩
  ascii := by
    rw [chars, entryChars_eq_map, List.cons_append, List.forall_mem_cons, List.forall_mem_append,
      List.forall_mem_singleton]
    refine ⟨by decide, ascii_joined ?_, by decide⟩
    exact List.forall_mem_map.mpr fun entry hentry => ascii_entryText (h entry hentry)
  read := by
    intro fuel rest hfuel _
    rw [chars, entryChars_eq_map] at hfuel ⊢
    rw [List.length_append, List.length_cons, List.length_singleton] at hfuel
    rw [List.cons_append, List.cons_append, List.append_assoc, List.singleton_append]
    cases entries with
    | nil => rfl
    | cons first entries =>
        have hopens := (opens_joined (opens_entryText first) (entries.map entryText)).append
          ('\x7d' :: rest)
        have hentries := entries?_joined htexts h (List.cons_ne_nil _ _)
          (Nat.le_of_succ_le_succ hfuel) rest
        rw [List.map_cons] at hentries ⊢
        rw [value?_mapping hopens hentries, Entries.ofPairs_eq_self htexts hdistinct]

/-! Every plain value without fractions -/

mutual

theorem roundTrips : ∀ {v : Value}, v.isSettled = true → v.isDiscrete = true → RoundTrips v
  | .null, _, _ => roundTrips_null
  | .bool b, _, _ => roundTrips_bool b
  | .int n, _, _ => roundTrips_int n
  | .text s, _, _ => roundTrips_text s
  | .list items, hsettled, hdiscrete => by
      rw [Value.isSettled] at hsettled
      rw [Value.isDiscrete] at hdiscrete
      exact roundTrips_list (roundTrips_items hsettled hdiscrete)
  | .mapping entries, hsettled, hdiscrete => by
      rw [Value.isSettled] at hsettled
      rw [Value.isDiscrete] at hdiscrete
      obtain ⟨htexts, hdistinct, -⟩ := Value.entriesSettled_iff.mp hsettled
      exact roundTrips_mapping htexts hdistinct (roundTrips_entries hsettled hdiscrete)

theorem roundTrips_items : ∀ {items : List Value}, Value.allSettled items = true →
    Value.allDiscrete items = true → ∀ item ∈ items, RoundTrips item
  | [], _, _ => List.forall_mem_nil _
  | item :: items, hsettled, hdiscrete => by
      rw [Value.allSettled, Bool.and_eq_true] at hsettled
      rw [Value.allDiscrete, Bool.and_eq_true] at hdiscrete
      exact List.forall_mem_cons.mpr
        ⟨roundTrips hsettled.1 hdiscrete.1, roundTrips_items hsettled.2 hdiscrete.2⟩

theorem roundTrips_entries : ∀ {entries : List (Value × Value)},
    Value.entriesSettled entries = true → Value.entriesDiscrete entries = true →
      ∀ entry ∈ entries, RoundTrips entry.2
  | [], _, _ => List.forall_mem_nil _
  | (.text key, v) :: entries, hsettled, hdiscrete => by
      simp only [Value.entriesSettled, Bool.and_eq_true] at hsettled
      rw [Value.entriesDiscrete, Bool.and_eq_true] at hdiscrete
      exact List.forall_mem_cons.mpr
        ⟨roundTrips hsettled.1.2 hdiscrete.1, roundTrips_entries hsettled.2 hdiscrete.2⟩

end

/-- The text of a plain value without fractions is read as that value. -/
theorem readBy?_write {v : Value} (hsettled : v.isSettled = true)
    (hdiscrete : v.isDiscrete = true) : readBy? standardRules (write v) = some v := by
  have htrips := roundTrips hsettled hdiscrete
  have hread : value? standardRules (2 * (chars v).length + 1) (chars v ++ []) = some (v, []) :=
    htrips.value?_chars (by omega) fun _ hc => nomatch hc
  rw [List.append_nil] at hread
  unfold readBy? write
  rw [String.toList_ofList, htrips.opens.skipSpace_eq]
  dsimp only
  rw [hread]
  rfl

end TenantReports.Json
