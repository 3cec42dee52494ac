import TenantReports.Proofs.Result
import TenantReports.Proofs.Sql.Lexing
import TenantReports.Report.Template

/-!
What parameters can do to the tokens of a query template. A template has tokens of its own, whatever
its parameters are; in the query that it is filled in to, each parameter adds the tokens of its
value where it stands, as long as it stands apart and no sign in front of it meets another one.
-/

namespace TenantReports

open Sql (Dialect Token Lexing Ends Separates)

/-- A token of a template: one of its text, or a parameter. -/
inductive TemplateToken
  | fixed (token : Token)
  | parameter (name : String)
deriving DecidableEq, Repr

/-- The tokens that stand for a token of a template. -/
def TemplateToken.filled (contribution : String → List Token) : TemplateToken → List Token
  | fixed token => [token]
  | parameter name => contribution name

/-- Whether a part of a template joins nothing that stands next to it. -/
def TemplatePart.Separates (d : Dialect) : TemplatePart → Prop
  | char c => d.joins c = false
  | hole _ => False

namespace Parameter

/-- The tokens of a value's text. -/
def tokens (d : Dialect) (v : Value) : List Token :=
  match render v with
  | .ok text => Sql.tokens d text.toList
  | .error _ => []

/-- A constant, one quoted text, or one number with or without a minus sign. -/
inductive IsScalar : List Token → Prop
  | null : IsScalar [.word "NULL".toList]
  | yes : IsScalar [.word "TRUE".toList]
  | no : IsScalar [.word "FALSE".toList]
  | literal (content : List Char) : IsScalar [.quoted .single content]
  | number (digits : List Char) : IsScalar [.number digits]
  | negative (digits : List Char) : IsScalar [.symbol '-', .number digits]

variable {d : Dialect}

/-- A text that is read as one value, whatever joins nothing behind it. -/
structure IsRead (d : Dialect) (cs : List Char) : Prop where
  first : ∃ c rest, cs = c :: rest ∧ c ≠ '*'
  whole : (Sql.run d .between cs).2.IsWhole
  scalar : IsScalar (Sql.tokens d cs)

theorem isRead_literal (cs : List Char) : IsRead d (Sql.literalChars cs) := by
  have hrun := Sql.run_literal (d := d) cs
  refine ⟨⟨'\'', _, rfl, by decide⟩, ?_, ?_⟩
  · rw [hrun]
    trivial
  · unfold Sql.tokens Sql.tokensFrom
    rw [hrun]
    exact .literal cs

theorem isRead_signed {cs : List Char} (h : Decimal.IsSigned cs) : IsRead d cs := by
  rcases h with h | ⟨unsigned, rfl, h⟩
  · obtain ⟨s, hrun, hwhole, hflush⟩ := Sql.run_unsigned (d := d) h
    obtain ⟨c, rest, rfl, hdigit⟩ := h.first
    refine ⟨⟨c, rest, rfl, ?_⟩, ?_, ?_⟩
    · rintro rfl
      exact nomatch hdigit
    · rw [hrun]
      exact hwhole
    · unfold Sql.tokens Sql.tokensFrom
      rw [hrun]
      dsimp only
      rw [hflush]
      exact .number _
  · obtain ⟨s, hrun, hwhole, hflush⟩ := Sql.run_unsigned (d := d) h
    obtain ⟨c, rest, rfl, hdigit⟩ := h.first
    have hends : Ends d (.symbol '-') c := Sql.ends_symbol
      (fun _ hc => nomatch (hc ▸ hdigit)) (fun h => absurd h (by decide))
    have hminus : Sql.run d .between ('-' :: c :: rest) = ([.symbol '-'], s) := by
      rw [Sql.run, Sql.ends_between, Sql.start_minus]
      dsimp only
      rw [hends.run_cons, hrun]
      rfl
    refine ⟨⟨'-', _, rfl, by decide⟩, ?_, ?_⟩
    · rw [hminus]
      exact hwhole
    · unfold Sql.tokens Sql.tokensFrom
      rw [hminus]
      dsimp only
      rw [hflush]
      exact .negative _

/-- The text of a parameter is read as one value. -/
theorem isRead_render {v : Value} {text : String} (h : render v = .ok text) :
    IsRead d text.toList := by
  have hliteral : ∀ v : Value, IsRead d (Sql.quoteLiteral v).toList := by
    intro v
    unfold Sql.quoteLiteral
    rw [String.toList_ofList]
    exact isRead_literal _
  cases v with
  | null =>
      cases h
      exact ⟨⟨'N', _, rfl, by decide⟩, trivial, .null⟩
  | bool b =>
      cases b with
      | true =>
          cases h
          exact ⟨⟨'T', _, rfl, by decide⟩, trivial, .yes⟩
      | false =>
          cases h
          exact ⟨⟨'F', _, rfl, by decide⟩, trivial, .no⟩
  | text s =>
      rw [← Except.ok.inj h]
      exact hliteral _
  | int n =>
      rw [← Except.ok.inj h]
      unfold Decimal.intText
      rw [String.toList_ofList]
      exact isRead_signed (Decimal.isSigned_intDigits n)
  | float x =>
      unfold render at h
      dsimp only at h
      split at h
      · next hfinite =>
          rw [← Except.ok.inj h]
          unfold Decimal.floatText
          rw [String.toList_ofList]
          exact isRead_signed (Decimal.isSigned_floatChars _ hfinite)
      · cases h
  | numeric n =>
      unfold render at h
      dsimp only at h
      split at h
      · next hfinite =>
          rw [← Except.ok.inj h]
          unfold Decimal.Numeric.toText
          rw [String.toList_ofList]
          exact isRead_signed (Decimal.Numeric.isSigned_toChars hfinite)
      · cases h
  | date day =>
      rw [← Except.ok.inj h]
      exact hliteral _
  | dateTime t =>
      rw [← Except.ok.inj h]
      exact hliteral _
  | uuid id =>
      rw [← Except.ok.inj h]
      exact hliteral _
  | _ => cases h

theorem tokens_of_render {v : Value} {text : String} (h : render v = .ok text) :
    tokens d v = Sql.tokens d text.toList := by
  unfold tokens
  rw [h]

end Parameter

namespace Template

variable (d : Dialect) (schemaName : String)

/-- Reads a template with the schema filled in. What is being read ends where a parameter stands. -/
def read (s : Lexing) : List TemplatePart → List TemplateToken × Lexing
  | [] => ([], s)
  | .char c :: parts =>
      let (ended, s') := Sql.step d s c
      let (tokens, s'') := read s' parts
      (ended.map .fixed ++ tokens, s'')
  | .hole name :: parts =>
      if name = "schema" then
        let (ended, s') := Sql.run d s schemaName.toList
        let (tokens, s'') := read s' parts
        (ended.map .fixed ++ tokens, s'')
      else
        let (tokens, s'') := read .between parts
        (s.flush.map .fixed ++ .parameter name :: tokens, s'')

def tokensFrom (s : Lexing) (parts : List TemplatePart) : List TemplateToken :=
  (read d schemaName s parts).1 ++ (read d schemaName s parts).2.flush.map .fixed

/-- The tokens of a template with the schema filled in. -/
def tokens (template : String) : List TemplateToken :=
  tokensFrom d schemaName .between (parts template.toList)

/-- What is being read behind parts of a template. -/
def readTo (before : List TemplatePart) : Lexing := (read d schemaName .between before).2

/-- A parameter between parts of a template stands outside quoted texts and comments, and not next
to a letter, a digit, an underscore, a point, a quote or another placeholder. -/
structure StandsApart (before after : List TemplatePart) : Prop where
  outside : (readTo d schemaName before).isOutside = true
  behind : ∀ part ∈ before.getLast?, part.Separates d
  ahead : ∀ part ∈ after.head?, part.Separates d

/-- A sign in front of a parameter makes nothing else of its value: a minus sign is not in front of
a negative number, and no sign is that of an exponent without digits. -/
structure SignApart (before : List TemplatePart) (value : Value) : Prop where
  minus : readTo d schemaName before = .symbol '-' →
    ∀ text, Parameter.render value = .ok text → text.toList.head? ≠ some '-'
  exponent : ∀ digits letter sign, readTo d schemaName before ≠ .signed digits letter sign

/-- The places where the parameters of a template stand. -/
def HasParameter (template : String) (before : List TemplatePart) (name : String)
    (after : List TemplatePart) : Prop :=
  parts template.toList = before ++ .hole name :: after ∧ name ≠ "schema"

section Filling

variable {d : Dialect} {schemaName : String} {parameters : Entries} {done todo : List TemplatePart}
  {filled : List (List Char)}

theorem tokensFrom_char (s : Lexing) (c : Char) (parts : List TemplatePart) :
    tokensFrom d schemaName s (.char c :: parts) =
      (Sql.step d s c).1.map .fixed ++ tokensFrom d schemaName (Sql.step d s c).2 parts :=
  List.append_assoc _ _ _

theorem tokensFrom_schema (s : Lexing) (parts : List TemplatePart) :
    tokensFrom d schemaName s (.hole "schema" :: parts) =
      (Sql.run d s schemaName.toList).1.map .fixed ++
        tokensFrom d schemaName (Sql.run d s schemaName.toList).2 parts :=
  List.append_assoc _ _ _

theorem tokensFrom_parameter {name : String} (hname : name ≠ "schema") (s : Lexing)
    (parts : List TemplatePart) :
    tokensFrom d schemaName s (.hole name :: parts) =
      s.flush.map .fixed ++ .parameter name :: tokensFrom d schemaName .between parts := by
  unfold tokensFrom
  rw [read, if_neg hname]
  exact List.append_assoc _ _ _

theorem readTo_append (before behind : List TemplatePart) :
    readTo d schemaName (before ++ behind) =
      (read d schemaName (readTo d schemaName before) behind).2 := by
  unfold readTo
  generalize Lexing.between = s
  induction before generalizing s with
  | nil => rfl
  | cons part before ih =>
      cases part with
      | char c => exact ih _
      | hole name =>
          rw [List.cons_append, read, read]
          split
          · exact ih _
          · exact ih _

/-- What is being read where a parameter stands apart. -/
theorem StandsApart.rests {after : List TemplatePart} (h : StandsApart d schemaName done after) :
    (readTo d schemaName done).Rests := by
  rcases List.eq_nil_or_concat done with rfl | ⟨before, part, rfl⟩
  · exact .inl rfl
  · have houtside := h.outside
    have hbehind := h.behind part (by simp)
    rw [List.concat_eq_append, readTo_append] at houtside ⊢
    cases part with
    | hole name => exact hbehind.elim
    | char c => exact Sql.step_rests (Sql.separates_of_joins hbehind) houtside

/-- The text of a parameter that stands apart begins something of its own. -/
theorem StandsApart.ends {after : List TemplatePart} {value : Value} {text : String} {c : Char}
    {rest : List Char} (h : StandsApart d schemaName done after)
    (hsign : SignApart d schemaName done value) (hrender : Parameter.render value = .ok text)
    (htext : text.toList = c :: rest) (hstar : c ≠ '*') :
    Ends d (readTo d schemaName done) c := by
  rcases h.rests with hs | ⟨x, hs⟩ | ⟨cs, hs⟩ | ⟨cs, letter, sign, hs⟩
  · rw [hs]
    exact Sql.ends_between
  · rw [hs]
    refine Sql.ends_symbol (fun hminus hc => ?_) fun _ => hstar
    refine hsign.minus (hminus ▸ hs) text hrender ?_
    rw [htext, hc]
    rfl
  · rw [hs]
    exact Sql.ends_commented cs
  · exact absurd hs (hsign.exponent cs letter sign)

theorem fill_parameter {name : String} {cs : List Char} (hname : name ≠ "schema")
    (h : fill schemaName parameters (.hole name) = .ok cs) :
    ∃ text, Parameter.render (parameters.field name) = .ok text ∧ cs = text.toList := by
  unfold fill at h
  dsimp only at h
  rw [if_neg hname] at h
  obtain ⟨text, htext, hcs⟩ := bind_eq_ok.mp h
  exact ⟨text, htext, (Except.ok.inj hcs).symm⟩

/-- What is read whole ends before text that begins with no joining character. -/
theorem tokensFrom_whole {s : Lexing} (h : s.IsWhole)
    (hahead : ∀ part ∈ todo.head?, part.Separates d)
    (hfilled : List.Forall₂ (fun part cs => fill schemaName parameters part = .ok cs) todo filled) :
    Sql.tokensFrom d s filled.flatten = s.flush ++ Sql.tokensFrom d .between filled.flatten := by
  cases hfilled with
  | nil => exact (List.append_nil _).symm
  | @cons part cs todo filled hpart _ =>
      have hseparates := hahead part (by rw [List.head?_cons]; rfl)
      cases part with
      | hole name => exact hseparates.elim
      | char c =>
          cases hpart
          have hends : Ends d s c := Sql.ends_of_isWhole h (Sql.separates_of_joins hseparates)
          exact hends.tokensFrom_cons _

theorem flatMap_fixed (contribution : String → List Token) (ts : List Token) :
    (ts.map TemplateToken.fixed).flatMap (·.filled contribution) = ts := by
  induction ts with
  | nil => rfl
  | cons t ts ih => rw [List.map_cons, List.flatMap_cons, ih]; rfl

/-- From any place of a template on, what it is filled in to has the tokens of the template, with
those of the values where the parameters stand. -/
theorem tokensFrom_filled
    (h : ∀ before name after, done ++ todo = before ++ .hole name :: after → name ≠ "schema" →
      StandsApart d schemaName before after ∧
        SignApart d schemaName before (parameters.field name))
    (hfilled : List.Forall₂ (fun part cs => fill schemaName parameters part = .ok cs) todo filled) :
    Sql.tokensFrom d (readTo d schemaName done) filled.flatten =
      (tokensFrom d schemaName (readTo d schemaName done) todo).flatMap
        (·.filled fun name => Parameter.tokens d (parameters.field name)) := by
  induction hfilled generalizing done with
  | nil => exact (flatMap_fixed _ _).symm
  | @cons part cs todo filled hpart hrest ih =>
      have hnext := @ih (done ++ [part]) (by rwa [List.append_assoc])
      rw [readTo_append] at hnext
      cases part with
      | char c =>
          cases hpart
          rw [tokensFrom_char, List.flatMap_append, flatMap_fixed]
          exact (Sql.tokensFrom_cons _ _ _).trans (congrArg _ hnext)
      | hole name =>
          by_cases hname : name = "schema"
          · subst hname
            cases hpart
            rw [tokensFrom_schema, List.flatMap_append, flatMap_fixed, List.flatten_cons,
              Sql.tokensFrom_append]
            exact congrArg _ hnext
          · obtain ⟨hapart, hsign⟩ := h done name todo rfl hname
            obtain ⟨text, htext, rfl⟩ := fill_parameter hname hpart
            have hread := Parameter.isRead_render (d := d) htext
            obtain ⟨c, rest, hfirst, hstar⟩ := hread.first
            have hends := hapart.ends hsign htext hfirst hstar
            have hbehind := tokensFrom_whole hread.whole hapart.ahead hrest
            have hhole :
                (read d schemaName (readTo d schemaName done) [.hole name]).2 = .between := by
              rw [read, if_neg hname]
              rfl
            rw [hhole] at hnext
            rw [tokensFrom_parameter hname, List.flatMap_append, flatMap_fixed, List.flatMap_cons,
              ← hnext, List.flatten_cons]
            calc Sql.tokensFrom d (readTo d schemaName done) (text.toList ++ filled.flatten)
                = (readTo d schemaName done).flush ++
                    Sql.tokensFrom d .between (text.toList ++ filled.flatten) := by
                  rw [hfirst]
                  exact hends.tokensFrom_cons _
              _ = (readTo d schemaName done).flush ++ (Sql.tokens d text.toList ++
                    Sql.tokensFrom d .between filled.flatten) := by
                  rw [Sql.tokensFrom_append, hbehind]
                  exact congrArg _ (List.append_assoc _ _ _).symm
              _ = _ := by
                  rw [← Parameter.tokens_of_render htext]
                  rfl

/-- What a query keeps of its template: it has the tokens of the template, and each parameter adds
the tokens of one value, which are its own. -/
structure Keeps (d : Dialect) (schemaName template : String) (parameters : Entries) (sql : String) :
    Prop where
  tokens : Sql.tokens d sql.toList = (tokens d schemaName template).flatMap
    (·.filled fun name => Parameter.tokens d (parameters.field name))
  scalars : ∀ before name after, HasParameter template before name after →
    Parameter.IsScalar (Parameter.tokens d (parameters.field name))

theorem keeps_of_render {template sql : String}
    (hapart : ∀ before name after, HasParameter template before name after →
      StandsApart d schemaName before after)
    (hsign : ∀ before name after, HasParameter template before name after →
      SignApart d schemaName before (parameters.field name))
    (hrender : render (.trusted template) parameters (.text schemaName) = .ok sql) :
    Keeps d schemaName template parameters sql := by
  obtain ⟨text, htext, hrender⟩ := bind_eq_ok.mp hrender
  obtain ⟨schema, hschema, hrender⟩ := bind_eq_ok.mp hrender
  obtain ⟨filled, hfilled, hsql⟩ := bind_eq_ok.mp hrender
  cases htext
  cases hsql
  obtain ⟨-, -, hschema⟩ := bind_eq_ok.mp hschema
  cases hschema
  have hparts := mapM_eq_ok.mp hfilled
  refine ⟨?_, fun before name after hplace => ?_⟩
  · rw [String.toList_ofList]
    refine @tokensFrom_filled _ _ _ [] _ _ (fun before name after hsplit hname => ?_) hparts
    exact ⟨hapart before name after ⟨hsplit, hname⟩, hsign before name after ⟨hsplit, hname⟩⟩
  · obtain ⟨hsplit, hname⟩ := hplace
    have hmem : TemplatePart.hole name ∈ parts template.toList := by
      rw [hsplit]
      exact List.mem_append_right _ List.mem_cons_self
    obtain ⟨cs, -, hfill⟩ := exists_of_mem_right hparts.flip hmem
    obtain ⟨text, htext, -⟩ := fill_parameter hname hfill
    rw [Parameter.tokens_of_render htext]
    exact (Parameter.isRead_render htext).scalar

end Filling

/-! Checking a template -/

/-- What holds wherever a parameter stands in the rest of a template. -/
def Everywhere (P : List TemplatePart → String → List TemplatePart → Prop)
    (done : List TemplatePart) : List TemplatePart → Prop
  | [] => True
  | .char c :: parts => Everywhere P (done ++ [.char c]) parts
  | .hole name :: parts =>
      (name ≠ "schema" → P done name parts) ∧ Everywhere P (done ++ [.hole name]) parts

instance decidableEverywhere (P : List TemplatePart → String → List TemplatePart → Prop)
    [∀ before name after, Decidable (P before name after)] (done : List TemplatePart) :
    (todo : List TemplatePart) → Decidable (Everywhere P done todo)
  | [] => inferInstanceAs (Decidable True)
  | .char c :: parts => decidableEverywhere P (done ++ [.char c]) parts
  | .hole name :: parts =>
      have : Decidable (Everywhere P (done ++ [.hole name]) parts) :=
        decidableEverywhere P (done ++ [.hole name]) parts
      @instDecidableAnd (name ≠ "schema" → P done name parts) _ inferInstance this

theorem everywhere_iff {P : List TemplatePart → String → List TemplatePart → Prop}
    {done todo : List TemplatePart} :
    Everywhere P done todo ↔ ∀ before name after, todo = before ++ .hole name :: after →
      name ≠ "schema" → P (done ++ before) name after := by
  induction todo generalizing done with
  | nil => exact ⟨fun _ before name after h => absurd h (by simp), fun _ => trivial⟩
  | cons part todo ih =>
      constructor
      · intro h before name after hsplit hname
        cases before with
        | nil =>
            obtain ⟨rfl, rfl⟩ := List.cons.inj hsplit
            rw [List.append_nil]
            exact h.1 hname
        | cons first before =>
            obtain ⟨rfl, hrest⟩ := List.cons.inj hsplit
            rw [List.append_cons]
            cases part with
            | char c => exact ih.mp h before name after hrest hname
            | hole _ => exact ih.mp h.2 before name after hrest hname
      · intro h
        have hrest : Everywhere P (done ++ [part]) todo := by
          refine ih.mpr fun before name after hsplit hname => ?_
          rw [List.append_assoc]
          exact h (part :: before) name after (congrArg _ hsplit) hname
        cases part with
        | char c => exact hrest
        | hole name =>
            refine ⟨fun hname => ?_, hrest⟩
            have hhere := h [] name todo rfl hname
            rwa [List.append_nil] at hhere

theorem forall_parameter_iff {P : List TemplatePart → String → List TemplatePart → Prop}
    {template : String} :
    (∀ before name after, HasParameter template before name after → P before name after) ↔
      Everywhere P [] (parts template.toList) :=
  ⟨fun h => everywhere_iff.mpr fun before name after hsplit hname =>
      h before name after ⟨hsplit, hname⟩,
    fun h before name after hplace => everywhere_iff.mp h before name after hplace.1 hplace.2⟩

instance (d : Dialect) (part : TemplatePart) : Decidable (part.Separates d) := by
  cases part with
  | char c => exact inferInstanceAs (Decidable (d.joins c = false))
  | hole name => exact inferInstanceAs (Decidable False)

instance (d : Dialect) (schemaName : String) (before after : List TemplatePart) :
    Decidable (StandsApart d schemaName before after) :=
  decidable_of_iff
    ((readTo d schemaName before).isOutside = true ∧
      (∀ part ∈ before.getLast?, part.Separates d) ∧ ∀ part ∈ after.head?, part.Separates d)
    ⟨fun h => ⟨h.1, h.2.1, h.2.2⟩, fun h => ⟨h.outside, h.behind, h.ahead⟩⟩

/-- Two queries from one template, with parameters that stand apart and no sign in front of them
that makes something else of their values, have the same tokens but for those of the values, and
each value has tokens of its own. -/
theorem render_keeps {d : Dialect} {schemaName template sql₁ sql₂ : String}
    {first second : Entries}
    (hapart : ∀ before name after, HasParameter template before name after →
      StandsApart d schemaName before after)
    (hfirst : ∀ before name after, HasParameter template before name after →
      SignApart d schemaName before (first.field name))
    (hsecond : ∀ before name after, HasParameter template before name after →
      SignApart d schemaName before (second.field name))
    (hrender₁ : render (.trusted template) first (.text schemaName) = .ok sql₁)
    (hrender₂ : render (.trusted template) second (.text schemaName) = .ok sql₂) :
    Keeps d schemaName template first sql₁ ∧ Keeps d schemaName template second sql₂ :=
  ⟨keeps_of_render hapart hfirst hrender₁, keeps_of_render hapart hsecond hrender₂⟩

/-- A dialect with all that dialects may have. -/
def fullDialect : Dialect := ⟨fun _ => true, true, true⟩

/-- Quotes and comment marks in a text, and numbers of either sign, leave the tokens as they are. -/
theorem render_keeps_difference :
    Keeps fullDialect "tenant_a" "SELECT {{s}}, 10 *{{n}} FROM {{schema}}.t"
        [(.text "s", .text "'; --"), (.text "n", .int 5)]
        "SELECT '''; --', 10 *5 FROM tenant_a.t" ∧
      Keeps fullDialect "tenant_a" "SELECT {{s}}, 10 *{{n}} FROM {{schema}}.t"
        [(.text "n", .int (-5))] "SELECT NULL, 10 *-5 FROM tenant_a.t" := by
  have hbehind : ∀ before name after,
      HasParameter "SELECT {{s}}, 10 *{{n}} FROM {{schema}}.t" before name after →
        readTo fullDialect "tenant_a" before ∈ [.between, .symbol '*'] :=
    forall_parameter_iff.mpr (by decide +kernel)
  have hsign : ∀ (parameters : Entries) before name after,
      HasParameter "SELECT {{s}}, 10 *{{n}} FROM {{schema}}.t" before name after →
        SignApart fullDialect "tenant_a" before (parameters.field name) := by
    intro parameters before name after hplace
    have hmem := hbehind before name after hplace
    refine ⟨fun hminus => ?_, fun digits letter sign hsigned => ?_⟩
    · rw [hminus] at hmem
      exact absurd hmem (by decide)
    · rw [hsigned] at hmem
      simp at hmem
  exact render_keeps (forall_parameter_iff.mpr (by decide +kernel)) (hsign _) (hsign _)
    (eq_ok_of_toOption (by decide +kernel)) (eq_ok_of_toOption (by decide +kernel))

/-- A negative number behind a minus sign begins a comment, which takes the rest of the line. -/
theorem comment_of_negative :
    let template := "SELECT 10 -{{n}} FROM t"
    (∀ before name after, HasParameter template before name after →
      StandsApart fullDialect "tenant_a" before after) ∧
    render (.trusted template) [(.text "n", .int 5)] (.text "tenant_a") =
      .ok "SELECT 10 -5 FROM t" ∧
    render (.trusted template) [(.text "n", .int (-5))] (.text "tenant_a") =
      .ok "SELECT 10 --5 FROM t" ∧
    Sql.tokens fullDialect "SELECT 10 -5 FROM t".toList =
      [.word "SELECT".toList, .number "10".toList, .symbol '-', .number "5".toList,
        .word "FROM".toList, .word "t".toList] ∧
    Sql.tokens fullDialect "SELECT 10 --5 FROM t".toList =
      [.word "SELECT".toList, .number "10".toList, .comment "--5 FROM t".toList] := by
  refine ⟨forall_parameter_iff.mpr (by decide +kernel), eq_ok_of_toOption ?_,
    eq_ok_of_toOption ?_, ?_, ?_⟩
  all_goals decide +kernel

end Template

end TenantReports
