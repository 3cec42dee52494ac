import TenantReports.Proofs.Report.Words
import TenantReports.Proofs.Sql.Basic

/-!
Values of filters stay inside the literals of the compiled text. What stands outside the literals
does not depend on them, and what is not a literal is null or a number.
-/

namespace TenantReports

open Word

namespace FilterOperator

def rendered (operator : FilterOperator) (v : Value) : List Char :=
  if operator.quotes v then Sql.literalChars v.plainChars
  else
    match v with
    | .null => "NULL".toList
    | v => Text.trim v.plainChars

/-- A value in place of another: the same one, or both stand in quotes. -/
def Swaps (operator : FilterOperator) (v v' : Value) : Prop :=
  v' = v ∨ (operator.quotes v = true ∧ operator.quotes v' = true)

end FilterOperator

namespace FilterSpec

def operands (filter : FilterSpec) : List Value := filter.operator.operands filter.value

/-- The texts of the operands that stand in quotes, in order. -/
def quotedTexts (filter : FilterSpec) : List (List Char) :=
  (filter.operands.filter filter.operator.quotes).map Value.plainChars

/-- The text of the filter's condition on a column. -/
def conditionChars (filter : FilterSpec) (column : List Char) : List Char :=
  let rendered := filter.operands.map filter.operator.rendered
  column ++ ' ' :: filter.operator.name.toList ++ ' ' ::
    match filter.operator with
    | .oneOf => '(' :: List.intercalate ", ".toList rendered ++ [')']
    | _ => List.intercalate " AND ".toList rendered

/-- Another filter on the same column, which differs in operands that stand in quotes only. -/
structure Requoted (filter filter' : FilterSpec) : Prop where
  column : filter'.column = filter.column
  operator : filter'.operator = filter.operator
  operands : List.Forall₂ filter.operator.Swaps filter.operands filter'.operands

end FilterSpec

def whereChars (conditions : List (List Char)) : List Char :=
  if conditions = [] then []
  else " WHERE ".toList ++ List.intercalate " AND ".toList conditions

/-- How the values of filters stand in the compiled text of a specification. -/
structure ValuesConfined (schemaName : String) (spec : ReportSpec) (text : String)
    (seen : List Sql.Seen) : Prop where
  /-- All quotes of the text are balanced. -/
  reads : Sql.readQuoted none text.toList = some seen
  /-- The literals are the quoted operands. -/
  literals : Sql.literals seen = spec.filters.flatMap FilterSpec.quotedTexts
  /-- The filters make up one clause of the text, and there are no quotes elsewhere. -/
  clause : ∃ conditions front back,
    text.toList = front ++ whereChars conditions ++ back ∧
      List.Forall₂ (fun filter condition => ∃ ref, spec.resolve filter.column = .ok ref ∧
        condition = filter.conditionChars (ref.text schemaName).toList) spec.filters conditions ∧
      '\'' ∉ front ∧ '\'' ∉ back
  /-- What stands without quotes is null or a number. -/
  bare : ∀ filter ∈ spec.filters, ∀ v ∈ filter.operands, filter.operator.quotes v = false →
    filter.operator.rendered v = "NULL".toList ∨
      (filter.operator.rendered v ≠ [] ∧
        (∀ c ∈ filter.operator.rendered v,
          Text.isDigit c = true ∨ c ∈ ['+', '-', '.', 'e', 'E']) ∧
        ¬ "--".toList <:+: filter.operator.rendered v)
  /-- Other quoted operands leave the text outside the literals as it is. -/
  stable : ∀ filters', List.Forall₂ FilterSpec.Requoted spec.filters filters' →
    ∃ text' seen', compile schemaName { spec with filters := filters' } = .ok text' ∧
      Sql.readQuoted none text'.toList = some seen' ∧ Sql.outline seen' = Sql.outline seen

namespace Word

/-- What a reader of the text sees of a word. -/
def seen (schemaName : String) : Word → List Sql.Seen
  | value (.literal text) => [.literal text.toList]
  | word => (word.chars schemaName).map .outside

def literals : Word → List (List Char)
  | value (.literal text) => [text.toList]
  | _ => []

/-- Words with the same text outside literals. -/
def Alike (a b : Word) : Prop :=
  a = b ∨ ∃ s t, a = value (.literal s) ∧ b = value (.literal t)

theorem chars_literal (schemaName text : String) :
    (value (.literal text)).chars schemaName = Sql.literalChars text.toList :=
  List.append_nil _

theorem chars_fixed (schemaName text : String) : (fixed text).chars schemaName = text.toList :=
  List.append_nil _

theorem chars_number (schemaName text : String) :
    (value (.number text)).chars schemaName = text.toList :=
  List.append_nil _

theorem literal_or_outside (word : Word) :
    (∃ text, word = value (.literal text)) ∨
      (word.literals = [] ∧
        ∀ schemaName, word.seen schemaName = (word.chars schemaName).map .outside) := by
  cases word with
  | value scalar =>
      cases scalar with
      | literal text => exact Or.inl ⟨text, rfl⟩
      | _ => exact Or.inr ⟨rfl, fun _ => rfl⟩
  | _ => exact Or.inr ⟨rfl, fun _ => rfl⟩

theorem quote_not_mem {schemaName : String} (hschema : Sql.isIdentifier schemaName = true)
    {word : Word} (hsound : word.Sound) (hliteral : word.literals = [])
    (hpredicate : word.predicates = []) : '\'' ∉ word.chars schemaName := by
  have hvocabulary : ∀ text ∈ vocabulary, '\'' ∉ text.toList := by decide
  have hname := Sql.quote_not_mem_identifier hschema
  cases word with
  | fixed text => simpa [chars, pieces, Piece.chars] using hvocabulary text hsound
  | table name =>
      have := Sql.quote_not_mem_identifier hsound
      simpa [chars, pieces, Piece.chars, hname] using this
  | column ref =>
      have htable := Sql.quote_not_mem_identifier hsound.table
      have hcolumn := Sql.quote_not_mem_identifier hsound.column
      simp [chars, pieces, Piece.chars, hname, htable, hcolumn]
  | output name =>
      have := Sql.quote_not_mem_identifier hsound
      simpa [chars, pieces, Piece.chars] using this
  | predicate text => cases hpredicate
  | value scalar =>
      cases scalar with
      | null => simp [chars, pieces, scalarPiece, Piece.chars]
      | number text =>
          have := Decimal.IsWritten.quote_not_mem hsound
          simpa [chars, pieces, scalarPiece, Piece.chars] using this
      | literal text => cases hliteral
  | sorted name =>
      have := Sql.quote_not_mem_identifier hsound
      simpa [chars, pieces, Piece.chars] using this

/-- Behind a literal there is no quote that would keep it open. -/
theorem head_behind_literal {text : String} {words : List Word}
    (h : (value (.literal text) :: words).IsChain Apart) (schemaName : String) :
    (words.flatMap (chars schemaName)).head? ≠ some '\'' := by
  rcases head_behind (fun _ => Word.noConfusion) h schemaName with rfl | ⟨c, hc, hhead⟩
  · rintro ⟨⟩
  · rw [hhead]
    rintro ⟨⟩
    exact absurd hc (by decide)

theorem readQuoted_flatMap {schemaName : String} (hschema : Sql.isIdentifier schemaName = true)
    {words : List Word} (hsound : ∀ word ∈ words, word.Sound)
    (hpredicates : words.flatMap predicates = []) (hapart : words.IsChain Apart) :
    Sql.readQuoted none (words.flatMap (chars schemaName)) =
      some (words.flatMap (seen schemaName)) := by
  induction words with
  | nil => rfl
  | cons word words ih =>
      rw [List.flatMap_cons, List.append_eq_nil_iff] at hpredicates
      have hrest := ih (fun w hw => hsound w (List.mem_cons_of_mem word hw)) hpredicates.2
        hapart.tail
      rw [List.flatMap_cons, List.flatMap_cons]
      rcases word.literal_or_outside with ⟨text, rfl⟩ | ⟨hliterals, hseen⟩
      · rw [chars_literal, Sql.readQuoted_literal _ (head_behind_literal hapart schemaName), hrest]
        rfl
      · have hquote := quote_not_mem hschema (hsound word List.mem_cons_self) hliterals
          hpredicates.1
        rw [Sql.readQuoted_plain hquote, hrest, hseen]
        rfl

theorem literals_flatMap_seen (schemaName : String) (words : List Word) :
    Sql.literals (words.flatMap (seen schemaName)) = words.flatMap literals := by
  induction words with
  | nil => rfl
  | cons word words ih =>
      rw [List.flatMap_cons, List.flatMap_cons, Sql.literals_append, ih]
      rcases word.literal_or_outside with ⟨text, rfl⟩ | ⟨hliterals, hseen⟩
      · rfl
      · rw [hseen, hliterals, Sql.literals_outside]

theorem outline_flatMap_seen (schemaName : String) {words words' : List Word}
    (h : List.Forall₂ Alike words words') :
    Sql.outline (words.flatMap (seen schemaName)) =
      Sql.outline (words'.flatMap (seen schemaName)) := by
  induction h with
  | nil => rfl
  | cons halike _ ih =>
      rw [List.flatMap_cons, List.flatMap_cons, Sql.outline_append, Sql.outline_append, ih]
      rcases halike with rfl | ⟨s, t, rfl, rfl⟩
      · rfl
      · rfl

theorem alike_refl (words : List Word) : List.Forall₂ Alike words words :=
  List.forall₂_same.mpr fun _ _ => Or.inl rfl

theorem alike_cons (word : Word) {words words' : List Word}
    (h : List.Forall₂ Alike words words') :
    List.Forall₂ Alike (word :: words) (word :: words') :=
  List.Forall₂.cons (Or.inl rfl) h

theorem alike_literal (text text' : String) {words words' : List Word}
    (h : List.Forall₂ Alike words words') :
    List.Forall₂ Alike (value (.literal text) :: words) (value (.literal text') :: words') :=
  List.Forall₂.cons (Or.inr ⟨text, text', rfl, rfl⟩) h

theorem alike_append {front front' back back' : List Word}
    (hfront : List.Forall₂ Alike front front') (hback : List.Forall₂ Alike back back') :
    List.Forall₂ Alike (front ++ back) (front' ++ back') := by
  induction hfront with
  | nil => exact hback
  | cons hword _ ih => exact List.Forall₂.cons hword ih

theorem alike_joined (separator : String) {groups groups' : List (List Word)}
    (h : List.Forall₂ (List.Forall₂ Alike) groups groups') :
    List.Forall₂ Alike (joined separator groups) (joined separator groups') := by
  unfold joined
  induction h with
  | nil => exact List.Forall₂.nil
  | cons hgroup hrest ih =>
      cases hrest with
      | nil =>
          rw [List.intercalate_singleton, List.intercalate_singleton]
          exact hgroup
      | cons hnext hrest =>
          rw [List.intercalate_cons_cons, List.intercalate_cons_cons]
          exact alike_append (alike_append hgroup (alike_refl _)) ih

theorem alike_clause (heading separator : String) {parts parts' : List (List Word)}
    (h : List.Forall₂ (List.Forall₂ Alike) parts parts') :
    List.Forall₂ Alike (clause heading separator parts) (clause heading separator parts') := by
  unfold clause
  cases h with
  | nil => exact List.Forall₂.nil
  | cons hpart hrest =>
      exact List.Forall₂.cons (Or.inl rfl)
        (alike_joined separator (List.Forall₂.cons hpart hrest))

end Word

namespace FilterOperator

theorem rendered_eq (operator : FilterOperator) (v : Value) (schemaName : String) :
    operator.rendered v = (value (operator.scalar v)).chars schemaName := by
  unfold rendered
  cases hquotes : operator.quotes v with
  | true =>
      rw [if_pos rfl, scalar_of_quotes hquotes, chars_literal, Value.plainText,
        String.toList_ofList]
  | false =>
      rw [if_neg Bool.false_ne_true]
      rcases scalar_of_not_quotes hquotes with ⟨rfl, hscalar⟩ | ⟨hnumeric, hscalar⟩
      · rw [hscalar]
        rfl
      · have htext : (String.ofList (Text.trim v.plainChars)).toList = Text.trim v.plainChars :=
          String.toList_ofList
        rw [hscalar, chars_number, htext]
        cases v with
        | null => cases hnumeric
        | _ => rfl

theorem rendered_bare {operator : FilterOperator} {v : Value} (h : operator.quotes v = false) :
    operator.rendered v = "NULL".toList ∨ Decimal.IsWritten (operator.rendered v) := by
  rw [operator.rendered_eq v ""]
  rcases scalar_of_not_quotes h with ⟨_, hscalar⟩ | ⟨hnumeric, hscalar⟩
  · rw [hscalar]
    exact Or.inl rfl
  · rw [hscalar, chars_number, String.toList_ofList]
    exact Or.inr (Sql.isWritten_trim hnumeric)

theorem literals_scalar (operator : FilterOperator) (v : Value) :
    (value (operator.scalar v)).literals =
      if operator.quotes v then [v.plainChars] else [] := by
  cases hquotes : operator.quotes v with
  | true =>
      rw [scalar_of_quotes hquotes]
      change [v.plainText.toList] = [v.plainChars]
      rw [Value.plainText, String.toList_ofList]
  | false =>
      rcases scalar_of_not_quotes hquotes with ⟨_, hscalar⟩ | ⟨_, hscalar⟩
      · rw [hscalar]
        rfl
      · rw [hscalar]
        rfl

theorem chars_joined (operator : FilterOperator) (vs : List Value) (schemaName : String) :
    (joined ", " (vs.map fun v => [value (operator.scalar v)])).flatMap (chars schemaName) =
      List.intercalate ", ".toList (vs.map operator.rendered) := by
  rw [Word.flatMap_joined, List.map_map]
  refine congrArg₂ List.intercalate (List.append_nil _) (List.map_congr_left fun v _ => ?_)
  rw [operator.rendered_eq v schemaName]
  exact List.flatMap_singleton _ _

theorem ne_null_of_quotes {operator : FilterOperator} {v : Value}
    (h : operator.quotes v = true) : v ≠ .null := by
  rintro rfl
  cases operator with
  | _ => cases h

theorem Swaps.ne_null {operator : FilterOperator} {v v' : Value} (h : operator.Swaps v v')
    (hne : v ≠ .null) : v' ≠ .null := by
  rcases h with rfl | ⟨_, hquotes⟩
  · exact hne
  · exact ne_null_of_quotes hquotes

theorem Swaps.alike {operator : FilterOperator} {v v' : Value} (h : operator.Swaps v v') :
    Alike (value (operator.scalar v)) (value (operator.scalar v')) := by
  rcases h with rfl | ⟨hquotes, hquotes'⟩
  · exact Or.inl rfl
  · rw [scalar_of_quotes hquotes, scalar_of_quotes hquotes']
    exact Or.inr ⟨_, _, rfl, rfl⟩

end FilterOperator

section Filters

variable {spec : ReportSpec} {filter : FilterSpec} {condition : Condition}

theorem Condition.Filters.literals_scalars (h : condition.Filters spec filter) :
    (condition.scalars.flatMap fun scalar => (value scalar).literals) = filter.quotedTexts := by
  obtain ⟨column, _, _, hon⟩ := h
  rw [(conditionOn_scalars hon).2, List.flatMap_map]
  change List.flatMap _ filter.operands = _
  unfold FilterSpec.quotedTexts
  induction filter.operands with
  | nil => rfl
  | cons v vs ih =>
      rw [List.flatMap_cons, ih, FilterOperator.literals_scalar, List.filter_cons]
      split
      · rfl
      · rfl

theorem Condition.chars_words {column : ColumnRef}
    (h : conditionOn column filter.operator filter.value = .ok condition) (schemaName : String) :
    condition.words.flatMap (chars schemaName) =
      filter.conditionChars (column.text schemaName).toList := by
  have hcolumn : (column.text schemaName).toList = (Word.column column).chars schemaName :=
    String.toList_ofList
  obtain ⟨name, operator, v⟩ := filter
  unfold FilterSpec.conditionChars FilterSpec.operands
  rw [hcolumn]
  cases operator with
  | compare comparison =>
      cases h
      simp [Condition.words, FilterOperator.operands, FilterOperator.scalar,
        FilterOperator.rendered_eq _ _ schemaName, chars_fixed, FilterOperator.name]
  | like =>
      obtain ⟨hne, rfl⟩ := likeCondition_eq_ok.mp h
      have hscalar : FilterOperator.like.scalar v = .literal v.plainText :=
        Sql.Scalar.quoted_of_ne_null hne
      simp [Condition.words, FilterOperator.operands, FilterOperator.rendered_eq _ _ schemaName,
        hscalar, chars_fixed, FilterOperator.name]
  | oneOf =>
      obtain ⟨_, rfl⟩ := oneOfCondition_eq_ok.mp h
      have hvalues : (joined ", " ((choices v).map fun v => [value (Sql.Scalar.quoted v)])).flatMap
          (chars schemaName) = List.intercalate ", ".toList
            ((choices v).map FilterOperator.oneOf.rendered) :=
        FilterOperator.chars_joined .oneOf (choices v) schemaName
      simp [Condition.words, FilterOperator.operands, List.map_map, Function.comp_def, hvalues,
        chars_fixed, FilterOperator.name]
  | between =>
      obtain ⟨low, high, hbounds, hlow, hhigh, rfl⟩ := betweenCondition_eq_ok.mp h
      have hscalar : ∀ bound : Value, bound ≠ .null →
          FilterOperator.between.scalar bound = .literal bound.plainText :=
        fun _ hne => Sql.Scalar.quoted_of_ne_null hne
      simp [Condition.words, FilterOperator.operands, hbounds,
        FilterOperator.rendered_eq _ _ schemaName, hscalar low hlow, hscalar high hhigh,
        chars_fixed, FilterOperator.name]
  | unsupported name => cases h

/-- With other quoted operands a condition differs in its literals only. -/
theorem conditionOn_alike {column : ColumnRef} {operator : FilterOperator} {v v' : Value}
    (h : conditionOn column operator v = .ok condition)
    (hswaps : List.Forall₂ operator.Swaps (operator.operands v) (operator.operands v')) :
    ∃ condition', conditionOn column operator v' = .ok condition' ∧
      List.Forall₂ Alike condition.words condition'.words := by
  cases operator with
  | compare comparison =>
      cases h
      obtain ⟨hswap, -⟩ := List.forall₂_cons.mp hswaps
      exact ⟨_, rfl, alike_cons _ (alike_cons _ (List.Forall₂.cons hswap.alike .nil))⟩
  | like =>
      obtain ⟨hne, rfl⟩ := likeCondition_eq_ok.mp h
      obtain ⟨hswap, -⟩ := List.forall₂_cons.mp hswaps
      exact ⟨_, likeCondition_eq_ok.mpr ⟨hswap.ne_null hne, rfl⟩,
        alike_cons _ (alike_cons _ (alike_literal _ _ .nil))⟩
  | oneOf =>
      obtain ⟨hne, rfl⟩ := oneOfCondition_eq_ok.mp h
      have hne' : choices v' ≠ [] := by
        intro hnil
        have hlength := hswaps.length_eq
        change (choices v).length = (choices v').length at hlength
        rw [hnil, List.length_nil, List.length_eq_zero_iff] at hlength
        exact hne hlength
      refine ⟨_, oneOfCondition_eq_ok.mpr ⟨hne', rfl⟩, ?_⟩
      refine alike_append (alike_cons _ (alike_cons _ (alike_joined ", " ?_))) (alike_refl _)
      rw [List.map_map, List.map_map, List.forall₂_map_left_iff, List.forall₂_map_right_iff]
      exact hswaps.imp fun _ _ hswap => List.Forall₂.cons hswap.alike .nil
  | between =>
      obtain ⟨low, high, hbounds, hlow, hhigh, rfl⟩ := betweenCondition_eq_ok.mp h
      cases hbounds' : bounds? v' with
      | none =>
          simp only [FilterOperator.operands, hbounds, hbounds'] at hswaps
          cases hswaps
      | some bounds =>
          obtain ⟨low', high'⟩ := bounds
          simp only [FilterOperator.operands, hbounds, hbounds', List.forall₂_cons] at hswaps
          obtain ⟨hswapLow, hswapHigh, -⟩ := hswaps
          refine ⟨_, betweenCondition_eq_ok.mpr ⟨low', high', hbounds', hswapLow.ne_null hlow,
            hswapHigh.ne_null hhigh, rfl⟩, ?_⟩
          exact alike_cons _ (alike_cons _ (alike_literal _ _ (alike_cons _
            (alike_literal _ _ .nil))))
  | unsupported name => cases h

theorem ReportSpec.conditions_alike {filters filters' : List FilterSpec}
    {conditions : List Condition}
    (h : List.Forall₂ (fun filter condition => condition.Filters spec filter) filters conditions)
    (hrequoted : List.Forall₂ FilterSpec.Requoted filters filters') :
    ∃ conditions', filters'.mapM spec.conditionOf = .ok conditions' ∧
      List.Forall₂ (List.Forall₂ Alike) (conditions.map Condition.words)
        (conditions'.map Condition.words) := by
  induction h generalizing filters' with
  | nil =>
      cases hrequoted
      exact ⟨[], rfl, List.Forall₂.nil⟩
  | cons hfilter _ ih =>
      cases hrequoted with
      | cons hfilter' hrest' =>
          obtain ⟨column, hcolumn, _, hon⟩ := hfilter
          obtain ⟨conditions', hconditions', halikes⟩ := ih hrest'
          have hswaps := hfilter'.operands
          unfold FilterSpec.operands at hswaps
          rw [hfilter'.operator] at hswaps
          obtain ⟨condition', hon', halike⟩ := conditionOn_alike hon hswaps
          refine ⟨condition' :: conditions', ?_, List.Forall₂.cons halike halikes⟩
          refine mapM_eq_ok.mpr (List.Forall₂.cons ?_ (mapM_eq_ok.mp hconditions'))
          unfold ReportSpec.conditionOf
          rw [hfilter'.column, hfilter'.operator]
          exact bind_eq_ok.mpr ⟨column, hcolumn, hon'⟩

end Filters

theorem ReportSpec.Builds.with_filters {spec : ReportSpec} {q : Query} (h : spec.Builds q)
    {filters : List FilterSpec} {conditions : List Condition}
    (hconditions : filters.mapM spec.conditionOf = .ok conditions) :
    { spec with filters := filters }.Builds { q with conditions := conditions } :=
  ⟨h.source, h.selected, h.sources, h.projections, h.joins, hconditions, h.groups, h.order⟩

namespace Query

variable {spec : ReportSpec} {q : Query}

theorem Describes.predicates_eq_nil (h : q.Describes spec) (hjoins : spec.joins = []) :
    q.words.flatMap predicates = [] := by
  have hclauses := h.joins
  rw [hjoins, List.forall₂_nil_left_iff] at hclauses
  rw [q.predicates_words, hclauses]
  rfl

theorem literals_sourceWords (q : Query) : q.sourceWords.flatMap literals = [] := by
  rw [Query.flatMap_sourceWords fun _ => rfl]
  simp [literals, flatMap_nothing]

theorem literals_groupWords (q : Query) : q.groupWords.flatMap literals = [] := by
  rw [Query.flatMap_groupWords fun _ => rfl]
  exact flatMap_nothing q.groups

theorem literals_orderWords (q : Query) : q.orderWords.flatMap literals = [] :=
  Query.flatMap_orderWords_eq_nil (fun _ => rfl) (fun _ => rfl) (fun _ => rfl) q

theorem Describes.literals_words (h : q.Describes spec) :
    q.words.flatMap literals = spec.filters.flatMap FilterSpec.quotedTexts := by
  rw [Query.words, List.flatMap_append, List.flatMap_append, List.flatMap_append,
    literals_sourceWords, literals_groupWords, literals_orderWords,
    Query.flatMap_conditionWords fun _ => rfl, List.nil_append, List.append_nil, List.append_nil]
  exact flatMap_eq_of_forall₂ h.conditions fun _ _ hfilter => hfilter.literals_scalars

theorem Describes.quote_not_mem (h : q.Describes spec) (hjoins : spec.joins = [])
    {schemaName : String} (hschema : Sql.isIdentifier schemaName = true) {words : List Word}
    (hwords : words ⊆ q.words) (hliterals : words.flatMap literals = []) :
    '\'' ∉ words.flatMap (chars schemaName) := by
  intro hmem
  obtain ⟨word, hword, hmem⟩ := List.mem_flatMap.mp hmem
  have hpredicates := List.flatMap_eq_nil_iff.mp (h.predicates_eq_nil hjoins) word (hwords hword)
  exact Word.quote_not_mem hschema (h.words_sound word (hwords hword))
    (List.flatMap_eq_nil_iff.mp hliterals word hword) hpredicates hmem

theorem Describes.chars_conditionWords (h : q.Describes spec) (schemaName : String) :
    ∃ conditions,
      q.conditionWords.flatMap (chars schemaName) = whereChars conditions ∧
        List.Forall₂ (fun filter condition => ∃ ref, spec.resolve filter.column = .ok ref ∧
          condition = filter.conditionChars (ref.text schemaName).toList)
          spec.filters conditions := by
  refine ⟨q.conditions.map fun condition => condition.words.flatMap (chars schemaName), ?_, ?_⟩
  · unfold Query.conditionWords clause whereChars
    cases q.conditions with
    | nil => rfl
    | cons condition conditions =>
        rw [if_neg (by simp), if_neg (by simp), List.flatMap_cons, Word.flatMap_joined,
          chars_fixed, chars_fixed, List.map_map]
        rfl
  · rw [List.forall₂_map_right_iff]
    refine h.conditions.imp fun filter condition hfilter => ?_
    obtain ⟨column, hcolumn, _, hon⟩ := hfilter
    exact ⟨column, hcolumn, Condition.chars_words hon schemaName⟩

/-- Other quoted operands change the literals of a query and nothing else. -/
theorem alike_of_requoted (h : spec.Builds q) {filters' : List FilterSpec}
    (hrequoted : List.Forall₂ FilterSpec.Requoted spec.filters filters') :
    ∃ q', { spec with filters := filters' }.Builds q' ∧
      List.Forall₂ Alike q.words q'.words := by
  obtain ⟨conditions', hconditions', halike⟩ :=
    ReportSpec.conditions_alike h.describes.conditions hrequoted
  refine ⟨_, h.with_filters hconditions', ?_⟩
  have hclause := alike_clause " WHERE " " AND " halike
  exact alike_append (alike_append (alike_append (alike_refl _) hclause) (alike_refl _))
    (alike_refl _)

theorem Describes.reads (h : q.Describes spec) (hjoins : spec.joins = []) {schemaName : String}
    (hschema : Sql.isIdentifier schemaName = true) :
    Sql.readQuoted none (q.text schemaName).toList =
      some (q.words.flatMap (seen schemaName)) := by
  rw [Query.toList_text]
  exact readQuoted_flatMap hschema h.words_sound (h.predicates_eq_nil hjoins) h.words_apart

end Query

/-- Whatever the values of its filters are, the text of a specification without joins holds them
in literals, or as null and numbers. -/
theorem compile_valuesConfined {schemaName : String} {spec : ReportSpec} {text : String}
    (hjoins : spec.joins = []) (hcompile : compile schemaName spec = .ok text) :
    ∃ seen, ValuesConfined schemaName spec text seen := by
  obtain ⟨hschema, q, htoQuery, rfl⟩ := compile_eq_ok.mp hcompile
  have hbuilds := ReportSpec.toQuery_eq_ok.mp htoQuery
  have hq := hbuilds.describes
  refine ⟨q.words.flatMap (seen schemaName), ?_⟩
  refine { reads := hq.reads hjoins hschema, literals := ?_, clause := ?_, bare := ?_, stable := ?_ }
  · rw [literals_flatMap_seen, hq.literals_words]
  · obtain ⟨conditions, hconditions, hfilters⟩ := hq.chars_conditionWords schemaName
    refine ⟨conditions, q.sourceWords.flatMap (chars schemaName),
      (q.groupWords ++ q.orderWords).flatMap (chars schemaName), ?_, hfilters, ?_, ?_⟩
    · rw [Query.toList_text, Query.words, List.append_assoc, List.flatMap_append,
        List.flatMap_append, hconditions]
    · refine hq.quote_not_mem hjoins hschema ?_ q.literals_sourceWords
      exact fun _ hword => List.mem_append_left _ (List.mem_append_left _
        (List.mem_append_left _ hword))
    · refine hq.quote_not_mem hjoins hschema ?_ ?_
      · rw [Query.words, List.append_assoc]
        exact List.subset_append_right _ _
      · rw [List.flatMap_append, q.literals_groupWords, q.literals_orderWords]
        rfl
  · intro filter _ v _ hquotes
    refine (FilterOperator.rendered_bare hquotes).imp id fun hwritten => ?_
    exact ⟨hwritten.ne_nil, fun _ => hwritten.isDigit_or_mem, hwritten.no_comment⟩
  · intro filters' hrequoted
    obtain ⟨q', hbuilds', halike⟩ := Query.alike_of_requoted hbuilds hrequoted
    have hcompile' := compile_eq_ok.mpr
      ⟨hschema, q', ReportSpec.toQuery_eq_ok.mpr hbuilds', rfl⟩
    exact ⟨_, _, hcompile', hbuilds'.describes.reads hjoins hschema,
      (outline_flatMap_seen schemaName halike).symm⟩

/-- Values that close a literal, hold separators, or spell numbers. -/
theorem compile_valuesConfined_of_injection :
    let spec : ReportSpec :=
      { dataSources := ["students"], joins := [],
        selectedColumns := [⟨"students", "name", none, none⟩],
        filters := [⟨"name", .oneOf, .list [.text "x') OR ('1'='1", .null, .text "', '"]⟩,
          ⟨"age", .compare .atLeast, .text " -1.5e3 "⟩],
        groupBy := [], orderBy := [] }
    let text := "SELECT tenant_a.students.name AS students_name FROM tenant_a.students " ++
      "WHERE tenant_a.students.name IN ('x'') OR (''1''=''1', NULL, ''', ''') " ++
      "AND tenant_a.students.age >= -1.5e3"
    spec.joins = [] ∧ compile "tenant_a" spec = .ok text ∧
      ∃ seen, ValuesConfined "tenant_a" spec text seen :=
  ⟨rfl, eq_ok_of_toOption (by decide +kernel),
    compile_valuesConfined rfl (eq_ok_of_toOption (by decide +kernel))⟩

end TenantReports
