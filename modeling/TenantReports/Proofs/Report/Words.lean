import TenantReports.Proofs.Report.Filter

/-!
The words of a query's text. A word is a keyword or a sign, a table or a column with the schema
in front, an output with its name, a join's predicate, the text of a value, or an output that the
result is sorted by.
-/

namespace TenantReports

open Piece

inductive Word
  | fixed (text : String)
  | table (name : String)
  | column (ref : ColumnRef)
  | output (name : String)
  | predicate (text : String)
  | value (scalar : Sql.Scalar)
  | sorted (name : String)
deriving DecidableEq, Repr

namespace Word

def pieces : Word → List Piece
  | fixed text => [plain text]
  | table name => [schema, plain ".", plain name]
  | column ref => [schema, plain ".", plain ref.table, plain ".", plain ref.column]
  | output name => [plain " AS ", plain name]
  | predicate text => [plain " ON ", plain text]
  | value scalar => [scalarPiece scalar]
  | sorted name => [plain name]

def chars (schemaName : String) (word : Word) : List Char :=
  word.pieces.flatMap (Piece.chars schemaName)

/-- Groups of words with a sign between them. -/
def joined (separator : String) (groups : List (List Word)) : List Word :=
  List.intercalate [fixed separator] groups

/-- The words of a clause that is left out when it has no parts. -/
def clause (heading separator : String) (parts : List (List Word)) : List Word :=
  if parts.isEmpty then [] else fixed heading :: joined separator parts

/-- Keywords behind which nothing of a query is complete. -/
def openers : List String := ["SELECT ", "SUM(", "AVG(", "COUNT(", "MIN(", "MAX("]

/-- The keywords and signs that end a name or a value in front of them. -/
def delimiters : List String :=
  [", ", ")", " FROM ", " INNER JOIN ", " LEFT JOIN ", " RIGHT JOIN ", " FULL JOIN ", " WHERE ",
    " AND ", " = ", " != ", " > ", " < ", " >= ", " <= ", " LIKE ", " IN (", " BETWEEN ",
    " GROUP BY ", " ORDER BY ", " ASC", " DESC"]

def vocabulary : List String := openers ++ delimiters

/-- Fixed words come from the vocabulary, names are identifiers, and bare numbers are numbers. -/
def Sound : Word → Prop
  | fixed text => text ∈ vocabulary
  | table name => Sql.isIdentifier name = true
  | column ref => ref.Named
  | output name => Sql.isIdentifier name = true
  | predicate _ => True
  | value scalar => scalar.Sound
  | sorted name => Sql.isIdentifier name = true

/-- Words that end what stands in front of them. -/
def Delimits : Word → Prop
  | fixed text => text ∈ delimiters
  | output _ => True
  | predicate _ => True
  | _ => False

/-- After anything but a fixed word comes one that ends it. -/
def Apart (a b : Word) : Prop := (∃ text, a = fixed text) ∨ b.Delimits

end Word

open Word

namespace Projection

def words (p : Projection) : List Word :=
  (match p.aggregate with
  | some aggregate => [fixed (keyword aggregate.name ++ "("), column p.source, fixed ")"]
  | none => [column p.source]) ++ [.output p.output]

end Projection

def JoinClause.words (join : JoinClause) : List Word :=
  [fixed (" " ++ keyword join.type.name ++ " JOIN "), .table join.table, .predicate join.on]

def Condition.words : Condition → List Word
  | compare ref comparison scalar =>
      [.column ref, fixed (" " ++ comparison.symbol ++ " "), value scalar]
  | like ref pattern => [.column ref, fixed " LIKE ", value (.literal pattern)]
  | oneOf ref scalars =>
      .column ref :: fixed " IN (" :: joined ", " (scalars.map fun scalar => [value scalar]) ++
        [fixed ")"]
  | between ref low high =>
      [.column ref, fixed " BETWEEN ", value (.literal low), fixed " AND ",
        value (.literal high)]

def SortTarget.word : SortTarget → Word
  | column ref => .column ref
  | output name => .sorted name

def SortKey.words (key : SortKey) : List Word :=
  [key.target.word, fixed (" " ++ key.direction.name)]

namespace Query

def sourceWords (q : Query) : List Word :=
  fixed "SELECT " :: joined ", " (q.projections.map Projection.words) ++
    fixed " FROM " :: table q.source :: q.joins.flatMap JoinClause.words

def conditionWords (q : Query) : List Word :=
  clause " WHERE " " AND " (q.conditions.map Condition.words)

def groupWords (q : Query) : List Word :=
  clause " GROUP BY " ", " (q.groups.map fun ref => [column ref])

def orderWords (q : Query) : List Word :=
  clause " ORDER BY " ", " (q.order.map SortKey.words)

def words (q : Query) : List Word :=
  q.sourceWords ++ q.conditionWords ++ q.groupWords ++ q.orderWords

end Query

section Pieces

theorem Word.flatMap_joined {β : Type} (f : Word → List β) (separator : String)
    (groups : List (List Word)) :
    (joined separator groups).flatMap f =
      List.intercalate (f (fixed separator)) (groups.map (List.flatMap f)) := by
  unfold Word.joined
  induction groups with
  | nil => rfl
  | cons group groups ih =>
      cases groups with
      | nil => simp
      | cons next rest =>
          rw [List.intercalate_cons_cons, List.flatMap_append, List.flatMap_append, ih,
            List.flatMap_singleton]
          simp only [List.map_cons, List.intercalate_cons_cons]

theorem Word.pieces_joined {α : Type} (separator : String) {words : α → List Word}
    {pieces : α → List Piece} (xs : List α)
    (h : ∀ x ∈ xs, (words x).flatMap Word.pieces = pieces x) :
    (Word.joined separator (xs.map words)).flatMap Word.pieces =
      Piece.joined separator (xs.map pieces) := by
  rw [Word.flatMap_joined, List.map_map]
  exact congrArg (List.intercalate [plain separator]) (List.map_congr_left h)

theorem Word.pieces_clause {α : Type} (heading separator : String) {words : α → List Word}
    {pieces : α → List Piece} (xs : List α)
    (h : ∀ x ∈ xs, (words x).flatMap Word.pieces = pieces x) :
    (clause heading separator (xs.map words)).flatMap Word.pieces =
      optionalClause heading separator (xs.map pieces) := by
  unfold clause optionalClause
  cases xs with
  | nil => rfl
  | cons x xs =>
      exact congrArg (plain heading :: ·) (Word.pieces_joined separator (x :: xs) h)

theorem Projection.pieces_words (p : Projection) :
    p.words.flatMap Word.pieces = p.pieces := by
  unfold Projection.words Projection.pieces
  cases p.aggregate with
  | none => rfl
  | some aggregate => simp [Word.pieces, ColumnRef.pieces, tablePieces]

theorem JoinClause.pieces_words (join : JoinClause) :
    join.words.flatMap Word.pieces = join.pieces := by
  simp [JoinClause.words, JoinClause.pieces, Word.pieces, tablePieces]

theorem Condition.pieces_words (condition : Condition) :
    condition.words.flatMap Word.pieces = condition.pieces := by
  cases condition with
  | oneOf ref scalars =>
      have hvalues : (Word.joined ", " (scalars.map fun scalar => [value scalar])).flatMap
          Word.pieces = Piece.joined ", " (scalars.map fun scalar => [scalarPiece scalar]) :=
        Word.pieces_joined ", " scalars fun _ _ => rfl
      simp [Condition.words, Condition.pieces, Word.pieces, ColumnRef.pieces, tablePieces, hvalues]
  | _ =>
      simp [Condition.words, Condition.pieces, Word.pieces, ColumnRef.pieces, tablePieces,
        scalarPiece]

theorem SortKey.pieces_words (key : SortKey) :
    key.words.flatMap Word.pieces = key.pieces := by
  cases key with
  | mk target direction =>
      cases target with
      | column ref =>
          simp [SortKey.words, SortKey.pieces, SortTarget.word, SortTarget.pieces, Word.pieces,
            ColumnRef.pieces, tablePieces]
      | output name => rfl

theorem Query.pieces_words (q : Query) : q.words.flatMap Word.pieces = q.pieces := by
  have hjoins : (q.joins.flatMap JoinClause.words).flatMap Word.pieces =
      q.joins.flatMap JoinClause.pieces := by
    rw [List.flatMap_assoc]
    exact congrArg (List.flatMap · q.joins) (funext JoinClause.pieces_words)
  have hprojections := Word.pieces_joined ", " q.projections
    fun p _ => Projection.pieces_words p
  have hconditions := Word.pieces_clause " WHERE " " AND " q.conditions
    fun condition _ => Condition.pieces_words condition
  have hgroups : (clause " GROUP BY " ", " (q.groups.map fun ref => [column ref])).flatMap
      Word.pieces = optionalClause " GROUP BY " ", " (q.groups.map ColumnRef.pieces) :=
    Word.pieces_clause " GROUP BY " ", " q.groups fun _ _ => List.flatMap_singleton _ _
  have horder := Word.pieces_clause " ORDER BY " ", " q.order
    fun key _ => SortKey.pieces_words key
  simp only [Query.words, Query.sourceWords, Query.conditionWords, Query.groupWords,
    Query.orderWords, Query.pieces, List.flatMap_append, List.flatMap_cons, hprojections, hjoins,
    hconditions, hgroups, horder]
  simp [Word.pieces, tablePieces]

end Pieces

section Collected

variable {β : Type} {f : Word → List β}

theorem Word.flatMap_joined_of_fixed (hfixed : ∀ text, f (fixed text) = []) (separator : String)
    (groups : List (List Word)) :
    (joined separator groups).flatMap f = groups.flatMap (List.flatMap f) := by
  rw [Word.flatMap_joined, hfixed]
  induction groups with
  | nil => rfl
  | cons group groups ih =>
      cases groups with
      | nil => simp
      | cons next rest =>
          rw [List.map_cons, List.map_cons, List.intercalate_cons_cons, List.append_nil,
            List.flatMap_cons, ← ih, List.map_cons]

theorem Word.flatMap_clause_of_fixed (hfixed : ∀ text, f (fixed text) = [])
    (heading separator : String) (parts : List (List Word)) :
    (clause heading separator parts).flatMap f = parts.flatMap (List.flatMap f) := by
  unfold clause
  cases parts with
  | nil => rfl
  | cons part parts =>
      rw [if_neg (by simp), List.flatMap_cons, hfixed, List.nil_append,
        Word.flatMap_joined_of_fixed hfixed]

theorem Projection.flatMap_words (hfixed : ∀ text, f (fixed text) = []) (p : Projection) :
    p.words.flatMap f = f (column p.source) ++ f (.output p.output) := by
  unfold Projection.words
  cases p.aggregate with
  | none => simp
  | some aggregate => simp [hfixed]

theorem JoinClause.flatMap_words (hfixed : ∀ text, f (fixed text) = []) (clause : JoinClause) :
    clause.words.flatMap f = f (.table clause.table) ++ f (.predicate clause.on) := by
  simp [JoinClause.words, hfixed]

theorem Condition.flatMap_words (hfixed : ∀ text, f (fixed text) = []) (condition : Condition) :
    condition.words.flatMap f =
      f (.column condition.column) ++ condition.scalars.flatMap fun scalar => f (value scalar) := by
  cases condition with
  | oneOf ref scalars =>
      have hvalues : (joined ", " (scalars.map fun scalar => [value scalar])).flatMap f =
          scalars.flatMap fun scalar => f (value scalar) := by
        rw [Word.flatMap_joined_of_fixed hfixed, List.flatMap_map]
        exact congrArg (List.flatMap · scalars) (funext fun _ => List.flatMap_singleton f _)
      simp [Condition.words, Condition.column, Condition.scalars, hfixed, hvalues]
  | _ => simp [Condition.words, Condition.column, Condition.scalars, hfixed]

theorem SortKey.flatMap_words (hfixed : ∀ text, f (fixed text) = []) (key : SortKey) :
    key.words.flatMap f = f key.target.word := by
  simp [SortKey.words, hfixed]

theorem Query.flatMap_sourceWords (hfixed : ∀ text, f (fixed text) = []) (q : Query) :
    q.sourceWords.flatMap f =
      (q.projections.flatMap fun p => f (column p.source) ++ f (.output p.output)) ++
        f (table q.source) ++
        q.joins.flatMap fun clause => f (.table clause.table) ++ f (.predicate clause.on) := by
  have hjoins : (q.joins.flatMap JoinClause.words).flatMap f =
      q.joins.flatMap fun clause => clause.words.flatMap f := List.flatMap_assoc
  simp only [Query.sourceWords, List.flatMap_append, List.flatMap_cons, hjoins, hfixed,
    List.nil_append, Word.flatMap_joined_of_fixed hfixed, List.flatMap_map,
    Projection.flatMap_words hfixed, JoinClause.flatMap_words hfixed, List.append_assoc]

theorem Query.flatMap_conditionWords (hfixed : ∀ text, f (fixed text) = []) (q : Query) :
    q.conditionWords.flatMap f = q.conditions.flatMap fun condition =>
      f (.column condition.column) ++ condition.scalars.flatMap fun scalar => f (value scalar) := by
  rw [Query.conditionWords, Word.flatMap_clause_of_fixed hfixed, List.flatMap_map]
  exact congrArg (List.flatMap · q.conditions) (funext (Condition.flatMap_words hfixed))

theorem Query.flatMap_groupWords (hfixed : ∀ text, f (fixed text) = []) (q : Query) :
    q.groupWords.flatMap f = q.groups.flatMap fun ref => f (column ref) := by
  rw [Query.groupWords, Word.flatMap_clause_of_fixed hfixed, List.flatMap_map]
  exact congrArg (List.flatMap · q.groups) (funext fun _ => List.flatMap_singleton f _)

theorem Query.flatMap_orderWords (hfixed : ∀ text, f (fixed text) = []) (q : Query) :
    q.orderWords.flatMap f = q.order.flatMap fun key => f key.target.word := by
  rw [Query.orderWords, Word.flatMap_clause_of_fixed hfixed, List.flatMap_map]
  exact congrArg (List.flatMap · q.order) (funext (SortKey.flatMap_words hfixed))

theorem Query.flatMap_orderWords_eq_nil (hfixed : ∀ text, f (fixed text) = [])
    (hcolumn : ∀ ref, f (.column ref) = []) (hsorted : ∀ name, f (.sorted name) = [])
    (q : Query) : q.orderWords.flatMap f = [] := by
  rw [Query.flatMap_orderWords hfixed]
  refine List.flatMap_eq_nil_iff.mpr fun key _ => ?_
  cases htarget : key.target with
  | column ref => exact hcolumn ref
  | output name => exact hsorted name

theorem flatMap_nothing {α : Type} (xs : List α) : (xs.flatMap fun _ => ([] : List β)) = [] :=
  List.flatMap_eq_nil_iff.mpr fun _ _ => rfl

/-- Tables, outputs and predicates all come from the first clauses. -/
theorem Query.flatMap_words (hfixed : ∀ text, f (fixed text) = [])
    (hcolumn : ∀ ref, f (.column ref) = []) (hvalue : ∀ scalar, f (value scalar) = [])
    (hsorted : ∀ name, f (.sorted name) = []) (q : Query) :
    q.words.flatMap f =
      (q.projections.flatMap fun p => f (.output p.output)) ++ f (table q.source) ++
        q.joins.flatMap fun clause => f (.table clause.table) ++ f (.predicate clause.on) := by
  rw [Query.words, List.flatMap_append, List.flatMap_append, List.flatMap_append,
    Query.flatMap_sourceWords hfixed, Query.flatMap_conditionWords hfixed,
    Query.flatMap_groupWords hfixed, Query.flatMap_orderWords_eq_nil hfixed hcolumn hsorted]
  simp [hcolumn, hvalue, flatMap_nothing]

end Collected

def Word.predicates : Word → List String
  | predicate text => [text]
  | _ => []

theorem Query.predicates_words (q : Query) :
    q.words.flatMap Word.predicates = q.joins.map (·.on) := by
  rw [Query.flatMap_words (fun _ => rfl) (fun _ => rfl) (fun _ => rfl) fun _ => rfl]
  simp [Word.predicates, flatMap_nothing, List.map_eq_flatMap]

section Sound

theorem Word.mem_joined {separator : String} {groups : List (List Word)} {word : Word}
    (h : word ∈ joined separator groups) :
    word = fixed separator ∨ ∃ group ∈ groups, word ∈ group := by
  unfold Word.joined at h
  induction groups with
  | nil => cases h
  | cons group groups ih =>
      cases groups with
      | nil =>
          rw [List.intercalate_singleton] at h
          exact Or.inr ⟨group, List.mem_cons_self, h⟩
      | cons next rest =>
          rw [List.intercalate_cons_cons, List.append_assoc] at h
          rcases List.mem_append.mp h with h | h
          · exact Or.inr ⟨group, List.mem_cons_self, h⟩
          · rcases List.mem_cons.mp h with rfl | h
            · exact Or.inl rfl
            · rcases ih h with rfl | ⟨group', hgroup', hword⟩
              · exact Or.inl rfl
              · exact Or.inr ⟨group', List.mem_cons_of_mem group hgroup', hword⟩

theorem Word.sound_joined {separator : String} (hseparator : separator ∈ vocabulary)
    {groups : List (List Word)} (h : ∀ group ∈ groups, ∀ word ∈ group, word.Sound) :
    ∀ word ∈ joined separator groups, word.Sound := by
  intro word hword
  rcases Word.mem_joined hword with rfl | ⟨group, hgroup, hword⟩
  · exact hseparator
  · exact h group hgroup word hword

theorem Word.mem_clause {heading separator : String} {parts : List (List Word)} {word : Word}
    (h : word ∈ clause heading separator parts) :
    word = fixed heading ∨ word = fixed separator ∨ ∃ part ∈ parts, word ∈ part := by
  unfold clause at h
  split at h
  · cases h
  · rcases List.mem_cons.mp h with rfl | h
    · exact Or.inl rfl
    · exact Or.inr (Word.mem_joined h)

theorem Word.sound_clause {heading separator : String} (hheading : heading ∈ vocabulary)
    (hseparator : separator ∈ vocabulary) {parts : List (List Word)}
    (h : ∀ part ∈ parts, ∀ word ∈ part, word.Sound) :
    ∀ word ∈ clause heading separator parts, word.Sound := by
  intro word hword
  rcases Word.mem_clause hword with rfl | rfl | ⟨part, hpart, hword⟩
  · exact hheading
  · exact hseparator
  · exact h part hpart word hword

theorem Aggregate.keyword_mem {aggregate : Aggregate} (h : aggregate.isSupported = true) :
    keyword aggregate.name ++ "(" ∈ vocabulary := by
  cases aggregate with
  | unsupported name => cases h
  | _ => decide

theorem JoinType.keyword_mem {type : JoinType} (h : type.isSupported = true) :
    " " ++ keyword type.name ++ " JOIN " ∈ delimiters := by
  cases type with
  | unsupported name => cases h
  | _ => decide

theorem Comparison.symbol_mem (comparison : Comparison) :
    " " ++ comparison.symbol ++ " " ∈ delimiters := by
  cases comparison with
  | _ => decide

theorem SortDirection.name_mem {direction : SortDirection} (h : direction.isSupported = true) :
    " " ++ direction.name ∈ delimiters := by
  cases direction with
  | unsupported name => cases h
  | _ => decide

theorem Word.mem_vocabulary {text : String} (h : text ∈ delimiters) : text ∈ vocabulary :=
  List.mem_append_right openers h

theorem Projection.words_sound {selected : SelectedColumn} {p : Projection}
    (h : Projection.Selects selected p) : ∀ word ∈ p.words, word.Sound := by
  intro word hword
  unfold Projection.words at hword
  rcases List.mem_append.mp hword with hword | hword
  · split at hword
    · next aggregate haggregate =>
        simp only [List.mem_cons, List.not_mem_nil, or_false] at hword
        rcases hword with rfl | rfl | rfl
        · exact Aggregate.keyword_mem (h.supported aggregate haggregate)
        · exact h.named
        · exact (by decide : ")" ∈ vocabulary)
    · rw [List.mem_singleton.mp hword]
      exact h.named
  · rw [List.mem_singleton.mp hword]
    exact h.outputNamed

theorem JoinClause.words_sound {join : JoinSpec} {clause : JoinClause}
    (h : JoinClause.Joins join clause) : ∀ word ∈ clause.words, word.Sound := by
  intro word hword
  simp only [JoinClause.words, List.mem_cons, List.not_mem_nil, or_false] at hword
  rcases hword with rfl | rfl | rfl
  · exact Word.mem_vocabulary (JoinType.keyword_mem h.supported)
  · exact h.named
  · exact True.intro

theorem Condition.words_sound {condition : Condition} (hcolumn : condition.column.Named)
    (hscalars : ∀ scalar ∈ condition.scalars, scalar.Sound) :
    ∀ word ∈ condition.words, word.Sound := by
  intro word hword
  cases condition with
  | compare ref comparison scalar =>
      simp only [Condition.words, List.mem_cons, List.not_mem_nil, or_false] at hword
      rcases hword with rfl | rfl | rfl
      · exact hcolumn
      · exact Word.mem_vocabulary comparison.symbol_mem
      · exact hscalars scalar List.mem_cons_self
  | like ref pattern =>
      simp only [Condition.words, List.mem_cons, List.not_mem_nil, or_false] at hword
      rcases hword with rfl | rfl | rfl
      · exact hcolumn
      · exact (by decide : " LIKE " ∈ vocabulary)
      · exact True.intro
  | oneOf ref scalars =>
      simp only [Condition.words, List.cons_append, List.mem_cons, List.mem_append,
        List.not_mem_nil, or_false] at hword
      rcases hword with rfl | rfl | hword | rfl
      · exact hcolumn
      · exact (by decide : " IN (" ∈ vocabulary)
      · refine Word.sound_joined (by decide : ", " ∈ vocabulary) ?_ word hword
        exact List.forall_mem_map.mpr fun scalar hscalar =>
          List.forall_mem_singleton.mpr (hscalars scalar hscalar)
      · exact (by decide : ")" ∈ vocabulary)
  | between ref low high =>
      simp only [Condition.words, List.mem_cons, List.not_mem_nil, or_false] at hword
      rcases hword with rfl | rfl | rfl | rfl | rfl
      · exact hcolumn
      · exact (by decide : " BETWEEN " ∈ vocabulary)
      · exact True.intro
      · exact (by decide : " AND " ∈ vocabulary)
      · exact True.intro

theorem SortKey.words_sound {spec : ReportSpec} {order : OrderSpec} {key : SortKey}
    (h : SortKey.Sorts spec order key)
    (houtputs : ∀ selected ∈ spec.selectedColumns,
      Sql.isIdentifier selected.outputName = true) :
    ∀ word ∈ key.words, word.Sound := by
  intro word hword
  simp only [SortKey.words, List.mem_cons, List.not_mem_nil, or_false] at hword
  rcases hword with rfl | rfl
  · rcases h.target with ⟨htarget, selected, hselected, _, hname⟩ | ⟨ref, htarget, hnamed⟩
    · rw [htarget, ← hname]
      exact houtputs selected hselected
    · rw [htarget]
      exact hnamed
  · exact Word.mem_vocabulary (SortDirection.name_mem h.supported)

end Sound

section Apart

theorem Word.apart_append {front back : List Word} (hfront : front.IsChain Apart)
    (hback : back.IsChain Apart) (hhead : ∀ word ∈ back.head?, word.Delimits) :
    (front ++ back).IsChain Apart :=
  List.isChain_append.mpr ⟨hfront, hback, fun _ _ word hword => Or.inr (hhead word hword)⟩

theorem Word.apart_fixed {text : String} {words : List Word} (h : words.IsChain Apart) :
    (fixed text :: words).IsChain Apart :=
  List.isChain_cons.mpr ⟨fun _ _ => Or.inl ⟨text, rfl⟩, h⟩

theorem Word.apart_joined {separator : String} (hseparator : separator ∈ delimiters)
    {groups : List (List Word)} (h : ∀ group ∈ groups, group.IsChain Apart) :
    (joined separator groups).IsChain Apart := by
  unfold Word.joined
  induction groups with
  | nil => exact List.IsChain.nil
  | cons group groups ih =>
      have hgroup := h group List.mem_cons_self
      have hgroups := ih fun group' hmem => h group' (List.mem_cons_of_mem group hmem)
      cases groups with
      | nil =>
          rw [List.intercalate_singleton]
          exact hgroup
      | cons next rest =>
          rw [List.intercalate_cons_cons, List.append_assoc, List.singleton_append]
          refine Word.apart_append hgroup (Word.apart_fixed hgroups) ?_
          rintro _ ⟨⟩
          exact hseparator

theorem Word.apart_clause {heading separator : String} (hseparator : separator ∈ delimiters)
    {parts : List (List Word)} (h : ∀ part ∈ parts, part.IsChain Apart) :
    (clause heading separator parts).IsChain Apart := by
  unfold clause
  split
  · exact List.IsChain.nil
  · exact Word.apart_fixed (Word.apart_joined hseparator h)

theorem Word.head_clause {heading separator : String} (hheading : heading ∈ delimiters)
    {parts : List (List Word)} :
    ∀ word ∈ (clause heading separator parts).head?, word.Delimits := by
  unfold clause
  split
  · rintro _ ⟨⟩
  · rintro _ ⟨⟩
    exact hheading

theorem Projection.words_apart (p : Projection) : p.words.IsChain Apart := by
  unfold Projection.words
  cases p.aggregate with
  | none => simp [Apart, Delimits]
  | some aggregate => simp [Apart, Delimits, delimiters]

theorem JoinClause.words_apart (clause : JoinClause) : clause.words.IsChain Apart := by
  simp [JoinClause.words, Apart, Delimits]

theorem JoinClause.head_flatMap_words {joins : List JoinSpec} {clauses : List JoinClause}
    (h : List.Forall₂ JoinClause.Joins joins clauses) :
    ∀ word ∈ (clauses.flatMap JoinClause.words).head?, word.Delimits := by
  cases h with
  | nil => rintro _ ⟨⟩
  | cons hjoin _ =>
      rintro _ ⟨⟩
      exact JoinType.keyword_mem hjoin.supported

theorem JoinClause.flatMap_words_apart {joins : List JoinSpec} {clauses : List JoinClause}
    (h : List.Forall₂ JoinClause.Joins joins clauses) :
    (clauses.flatMap JoinClause.words).IsChain Apart := by
  induction h with
  | nil => exact List.IsChain.nil
  | cons _ hrest ih =>
      exact Word.apart_append (JoinClause.words_apart _) ih
        (JoinClause.head_flatMap_words hrest)

theorem Condition.words_apart (condition : Condition) : condition.words.IsChain Apart := by
  cases condition with
  | compare ref comparison scalar =>
      have := comparison.symbol_mem
      simpa [Condition.words, Apart, Delimits] using this
  | like ref pattern => simp [Condition.words, Apart, Delimits, delimiters]
  | oneOf ref scalars =>
      have hvalues : (joined ", " (scalars.map fun scalar => [value scalar])).IsChain Apart :=
        Word.apart_joined (by decide)
          (List.forall_mem_map.mpr fun _ _ => List.IsChain.singleton _)
      refine Word.apart_append ?_ (List.IsChain.singleton _) ?_
      · refine List.isChain_cons.mpr ⟨?_, Word.apart_fixed hvalues⟩
        rintro _ ⟨⟩
        exact Or.inr (by decide : " IN (" ∈ delimiters)
      · rintro _ ⟨⟩
        exact (by decide : ")" ∈ delimiters)
  | between ref low high => simp [Condition.words, Apart, Delimits, delimiters]

theorem SortKey.words_apart {spec : ReportSpec} {order : OrderSpec} {key : SortKey}
    (h : SortKey.Sorts spec order key) : key.words.IsChain Apart := by
  have := SortDirection.name_mem h.supported
  simpa [SortKey.words, Apart, Delimits] using Or.inr this

end Apart

section Characters

/-- The characters that the words which end others begin with. -/
def Word.stops : List Char := [' ', ',', ')']

theorem Word.pieces_delimits {word : Word} (h : word.Delimits) :
    ∃ text rest c, word.pieces = plain text :: rest ∧ text.toList.head? = some c ∧ c ∈ stops := by
  have hdelimiters : delimiters.all (fun text =>
      stops.any fun c => text.toList.head? == some c) = true := by decide
  cases word with
  | fixed text =>
      obtain ⟨c, hc, hhead⟩ := List.any_eq_true.mp (List.all_eq_true.mp hdelimiters text h)
      exact ⟨text, [], c, rfl, beq_iff_eq.mp hhead, hc⟩
  | output name => exact ⟨" AS ", [plain name], ' ', rfl, rfl, by decide⟩
  | predicate text => exact ⟨" ON ", [plain text], ' ', rfl, rfl, by decide⟩
  | _ => cases h

theorem Word.delimits_behind {word : Word} (hfixed : ∀ text, word ≠ fixed text)
    {words : List Word} (h : (word :: words).IsChain Apart) :
    words = [] ∨ ∃ next rest, words = next :: rest ∧ next.Delimits := by
  cases words with
  | nil => exact Or.inl rfl
  | cons next rest =>
      rcases (List.isChain_cons.mp h).1 next rfl with ⟨text, rfl⟩ | hdelimits
      · exact absurd rfl (hfixed text)
      · exact Or.inr ⟨next, rest, rfl, hdelimits⟩

/-- Behind a word that is not fixed the text ends, or a character stands that ends the word. -/
theorem Word.head_behind {word : Word} (hfixed : ∀ text, word ≠ fixed text) {words : List Word}
    (h : (word :: words).IsChain Apart) (schemaName : String) :
    words = [] ∨ ∃ c ∈ stops, (words.flatMap (Word.chars schemaName)).head? = some c := by
  rcases Word.delimits_behind hfixed h with rfl | ⟨next, rest, rfl, hdelimits⟩
  · exact Or.inl rfl
  · obtain ⟨text, _, c, hpieces, hhead, hc⟩ := Word.pieces_delimits hdelimits
    refine Or.inr ⟨c, hc, ?_⟩
    rw [List.flatMap_cons, Word.chars, hpieces, List.flatMap_cons, Piece.chars,
      List.append_assoc, List.head?_append, hhead]
    rfl

theorem ColumnRef.chars_pieces (schemaName : String) (ref : ColumnRef) :
    ref.pieces.flatMap (Piece.chars schemaName) =
      schemaName.toList ++ '.' :: ref.table.toList ++ '.' :: ref.column.toList := by
  simp [ColumnRef.pieces, tablePieces, Piece.chars]

theorem Query.toList_text (schemaName : String) (q : Query) :
    (q.text schemaName).toList = q.words.flatMap (Word.chars schemaName) := by
  rw [Query.text, Piece.text, String.toList_ofList, ← q.pieces_words, List.flatMap_assoc]
  rfl

end Characters

namespace Query.Describes

variable {spec : ReportSpec} {q : Query}

theorem projections_sound (h : q.Describes spec) :
    ∀ part ∈ q.projections.map Projection.words, ∀ word ∈ part, word.Sound := by
  refine List.forall_mem_map.mpr fun p hp => ?_
  obtain ⟨_, _, hselects⟩ := exists_of_mem_right h.projections hp
  exact Projection.words_sound hselects

theorem joins_sound (h : q.Describes spec) :
    ∀ word ∈ q.joins.flatMap JoinClause.words, word.Sound := by
  intro word hword
  obtain ⟨clause, hclause, hword⟩ := List.mem_flatMap.mp hword
  obtain ⟨_, _, hjoins⟩ := exists_of_mem_right h.joins hclause
  exact JoinClause.words_sound hjoins word hword

theorem conditions_sound (h : q.Describes spec) :
    ∀ part ∈ q.conditions.map Condition.words, ∀ word ∈ part, word.Sound := by
  refine List.forall_mem_map.mpr fun condition hcondition => ?_
  obtain ⟨filter, _, column, _, hnamed, hon⟩ := exists_of_mem_right h.conditions hcondition
  obtain ⟨hcolumn, hscalars⟩ := conditionOn_scalars hon
  refine Condition.words_sound (hcolumn ▸ hnamed) ?_
  intro scalar hscalar
  rw [hscalars] at hscalar
  obtain ⟨v, _, rfl⟩ := List.mem_map.mp hscalar
  exact filter.operator.scalar_sound v

theorem groups_sound (h : q.Describes spec) :
    ∀ part ∈ q.groups.map fun ref => [Word.column ref], ∀ word ∈ part, word.Sound := by
  exact List.forall_mem_map.mpr fun ref href => List.forall_mem_singleton.mpr (h.groups ref href)

theorem outputs_named (h : q.Describes spec) :
    ∀ selected ∈ spec.selectedColumns, Sql.isIdentifier selected.outputName = true := by
  intro selected hselected
  obtain ⟨p, _, hselects⟩ := exists_of_mem_right h.projections.flip hselected
  rw [← hselects.output]
  exact hselects.outputNamed

theorem order_sound (h : q.Describes spec) :
    ∀ part ∈ q.order.map SortKey.words, ∀ word ∈ part, word.Sound := by
  refine List.forall_mem_map.mpr fun key hkey => ?_
  obtain ⟨_, _, hsorts⟩ := exists_of_mem_right h.order hkey
  exact SortKey.words_sound hsorts h.outputs_named

theorem words_sound (h : q.Describes spec) : ∀ word ∈ q.words, word.Sound := by
  intro word hword
  simp only [words, sourceWords, List.mem_append, List.mem_cons] at hword
  rcases hword with ((((rfl | hword) | rfl | rfl | hword) | hword) | hword) | hword
  · exact (by decide : "SELECT " ∈ vocabulary)
  · exact Word.sound_joined (by decide) h.projections_sound word hword
  · exact (by decide : " FROM " ∈ vocabulary)
  · exact h.sourceNamed
  · exact h.joins_sound word hword
  · exact Word.sound_clause (by decide) (by decide) h.conditions_sound word hword
  · exact Word.sound_clause (by decide) (by decide) h.groups_sound word hword
  · exact Word.sound_clause (by decide) (by decide) h.order_sound word hword

theorem sourceWords_apart (h : q.Describes spec) : q.sourceWords.IsChain Apart := by
  have hprojections : ∀ part ∈ q.projections.map Projection.words, part.IsChain Apart :=
    List.forall_mem_map.mpr fun p _ => p.words_apart
  have hjoins : (table q.source :: q.joins.flatMap JoinClause.words).IsChain Apart :=
    List.isChain_cons.mpr ⟨fun word hword =>
      Or.inr (JoinClause.head_flatMap_words h.joins word hword),
      JoinClause.flatMap_words_apart h.joins⟩
  refine Word.apart_append (Word.apart_fixed (Word.apart_joined (by decide) hprojections))
    (Word.apart_fixed hjoins) ?_
  rintro _ ⟨⟩
  exact (by decide : " FROM " ∈ delimiters)

/-- Names and values in a query's text are always followed by something that ends them. -/
theorem words_apart (h : q.Describes spec) : q.words.IsChain Apart := by
  have hconditions : q.conditionWords.IsChain Apart :=
    Word.apart_clause (by decide) (List.forall_mem_map.mpr fun condition _ =>
      condition.words_apart)
  have hgroups : q.groupWords.IsChain Apart :=
    Word.apart_clause (by decide) (List.forall_mem_map.mpr fun _ _ => List.IsChain.singleton _)
  have horder : q.orderWords.IsChain Apart := by
    refine Word.apart_clause (by decide) (List.forall_mem_map.mpr fun key hkey => ?_)
    obtain ⟨_, _, hsorts⟩ := exists_of_mem_right h.order hkey
    exact SortKey.words_apart hsorts
  refine Word.apart_append (Word.apart_append (Word.apart_append h.sourceWords_apart hconditions
    ?_) hgroups ?_) horder ?_
  · exact Word.head_clause (by decide)
  · exact Word.head_clause (by decide)
  · exact Word.head_clause (by decide)

end Query.Describes

end TenantReports
