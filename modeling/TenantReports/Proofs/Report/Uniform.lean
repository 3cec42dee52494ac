import TenantReports.Proofs.Report.Words
import TenantReports.Proofs.Sql.Basic

/-!
A specification is compiled in the same way for every schema. The text is made of parts that do
not depend on the schema, with the schema between them, and every table and column stands behind
the schema.
-/

namespace TenantReports

open Piece Word

/-- The texts between the places where the schema stands. -/
def Piece.parts : List Piece → List (List Char)
  | [] => [[]]
  | schema :: rest => [] :: parts rest
  | plain text :: rest => (parts rest).modifyHead (text.toList ++ ·)
  | literal text :: rest => (parts rest).modifyHead (Sql.literalChars text.toList ++ ·)

namespace Word

def parts (words : List Word) : List (List Char) := Piece.parts (words.flatMap pieces)

def tables : Word → List String
  | table name => [name]
  | _ => []

def outputs : Word → List String
  | output name => [name]
  | _ => []

def sortedOutputs : Word → List String
  | sorted name => [name]
  | _ => []

end Word

/-- A text begins with one or two identifiers, a dot in front of each, and whatever stands behind
them ends the last one. -/
def FollowsSchema (part : List Char) : Prop :=
  ∃ (names : List String) (rest : List Char),
    part = (names.flatMap fun name => '.' :: name.toList) ++ rest ∧
    (names.length = 1 ∨ names.length = 2) ∧
    (∀ name ∈ names, Sql.isIdentifier name = true) ∧
    ∀ c ∈ rest.head?, Sql.isNameChar c = false ∧ c ≠ '.'

/-- All that the text of a specification consists of. -/
structure ReportSpec.Accounts (spec : ReportSpec) (words : List Word) : Prop where
  /-- Clause by clause these are the words of the query that the specification describes. -/
  clauses : ∃ q : Query, q.Describes spec ∧ words = q.words
  /-- Fixed words are keywords and signs, tables and columns are named by identifiers. -/
  sound : ∀ word ∈ words, word.Sound
  tables : words.flatMap Word.tables = spec.dataSources.take 1 ++ spec.joins.map (·.table)
  outputs : words.flatMap Word.outputs = spec.selectedColumns.map (·.outputName)
  predicates : (words.flatMap Word.predicates).map Sql.Fragment.trusted = spec.joins.map (·.on)
  /-- Outputs to sort by are those of aggregates, and they stand in the last clause only. -/
  sorted : (∃ front keys, words = front ++ clause " ORDER BY " ", " keys ∧
      front.flatMap sortedOutputs = []) ∧
    ∀ name ∈ words.flatMap sortedOutputs, ∃ selected ∈ spec.selectedColumns,
      selected.aggregate.isSome = true ∧ selected.outputName = name

/-- Faults that are told with the column of a filter. -/
inductive BlamesColumn : (String → SpecFault String) → Prop
  | emptyChoice : BlamesColumn .emptyChoice
  | rangeBounds : BlamesColumn .rangeBounds
  | nullComparison (operator : String) : BlamesColumn (.nullComparison operator)

section Parts

theorem Piece.parts_eq_cons (pieces : List Piece) : ∃ head rest, parts pieces = head :: rest := by
  induction pieces with
  | nil => exact ⟨[], [], rfl⟩
  | cons piece pieces ih =>
      obtain ⟨head, rest, h⟩ := ih
      cases piece with
      | schema => exact ⟨[], _, rfl⟩
      | plain text => exact ⟨_, rest, by rw [parts, h, List.modifyHead_cons]⟩
      | literal text => exact ⟨_, rest, by rw [parts, h, List.modifyHead_cons]⟩

theorem Piece.intercalate_parts (schemaName : String) (pieces : List Piece) :
    List.intercalate schemaName.toList (parts pieces) =
      pieces.flatMap (Piece.chars schemaName) := by
  have hprepend : ∀ (cs : List Char) (ps : List Piece),
      List.intercalate schemaName.toList ((parts ps).modifyHead (cs ++ ·)) =
        cs ++ List.intercalate schemaName.toList (parts ps) := by
    intro cs ps
    obtain ⟨head, rest, h⟩ := parts_eq_cons ps
    rw [h, List.modifyHead_cons]
    cases rest with
    | nil => rw [List.intercalate_singleton, List.intercalate_singleton]
    | cons next rest =>
        rw [List.intercalate_cons_cons, List.intercalate_cons_cons, List.append_assoc,
          List.append_assoc, List.append_assoc]
  induction pieces with
  | nil => rfl
  | cons piece pieces ih =>
      rw [List.flatMap_cons, ← ih]
      cases piece with
      | schema =>
          obtain ⟨head, rest, h⟩ := parts_eq_cons pieces
          rw [parts, h, List.intercalate_cons_cons]
          rfl
      | plain text => exact hprepend _ _
      | literal text => exact hprepend _ _

/-- What stands behind a name, up to the next schema, does not continue the name. -/
theorem Word.head_parts_behind {word : Word} (hfixed : ∀ text, word ≠ fixed text)
    {words : List Word} (h : (word :: words).IsChain Apart) :
    ∃ head rest, parts words = head :: rest ∧
      ∀ c ∈ head.head?, Sql.isNameChar c = false ∧ c ≠ '.' := by
  have hstops : stops.all (fun c => !Sql.isNameChar c && c != '.') = true := by decide
  rcases delimits_behind hfixed h with rfl | ⟨next, rest, rfl, hdelimits⟩
  · exact ⟨[], [], rfl, fun _ hc => by cases hc⟩
  · obtain ⟨text, behind, c, hpieces, hhead, hc⟩ := pieces_delimits hdelimits
    obtain ⟨head, tail, h⟩ := parts_eq_cons (behind ++ rest.flatMap pieces)
    refine ⟨text.toList ++ head, tail, ?_, ?_⟩
    · rw [Word.parts, List.flatMap_cons, hpieces, List.cons_append, Piece.parts, h,
        List.modifyHead_cons]
    · intro c' hc'
      rw [List.head?_append, hhead] at hc'
      cases hc'
      simpa using List.all_eq_true.mp hstops c hc

theorem Word.parts_table (name : String) (words : List Word) :
    parts (table name :: words) = [] :: (parts words).modifyHead ('.' :: name.toList ++ ·) := by
  obtain ⟨head, rest, h⟩ := parts_eq_cons (words.flatMap pieces)
  simp [Word.parts, pieces, Piece.parts, h]

theorem Word.parts_column (ref : ColumnRef) (words : List Word) :
    parts (column ref :: words) = [] :: (parts words).modifyHead
      ('.' :: ref.table.toList ++ '.' :: ref.column.toList ++ ·) := by
  obtain ⟨head, rest, h⟩ := parts_eq_cons (words.flatMap pieces)
  simp [Word.parts, pieces, Piece.parts, h]

/-- Words that are neither a table nor a column add to the part that they stand in. -/
theorem Word.tail_parts {word : Word} (htable : ∀ name, word ≠ table name)
    (hcolumn : ∀ ref, word ≠ column ref) (words : List Word) :
    (parts (word :: words)).tail = (parts words).tail := by
  cases word with
  | table name => exact absurd rfl (htable name)
  | column ref => exact absurd rfl (hcolumn ref)
  | value scalar =>
      cases scalar with
      | _ => simp [Word.parts, pieces, scalarPiece, Piece.parts]
  | _ => simp [Word.parts, pieces, Piece.parts]

theorem Word.followsSchema_cons (names : List String)
    (hlength : names.length = 1 ∨ names.length = 2)
    (hnames : ∀ name ∈ names, Sql.isIdentifier name = true) {word : Word} {words : List Word}
    (hfixed : ∀ text, word ≠ fixed text) (hapart : (word :: words).IsChain Apart)
    (hparts : parts (word :: words) = [] :: (parts words).modifyHead
      ((names.flatMap fun name => '.' :: name.toList) ++ ·))
    (hrest : ∀ part ∈ (parts words).tail, FollowsSchema part) :
    ∀ part ∈ (parts (word :: words)).tail, FollowsSchema part := by
  obtain ⟨head, rest, hwords, hhead⟩ := head_parts_behind hfixed hapart
  rw [hparts, hwords, List.tail_cons, List.modifyHead_cons]
  rw [hwords, List.tail_cons] at hrest
  intro part hpart
  rcases List.mem_cons.mp hpart with rfl | hpart
  · exact ⟨names, head, rfl, hlength, hnames, hhead⟩
  · exact hrest part hpart

theorem Word.followsSchema_parts {words : List Word} (hsound : ∀ word ∈ words, word.Sound)
    (hapart : words.IsChain Apart) : ∀ part ∈ (parts words).tail, FollowsSchema part := by
  induction words with
  | nil =>
      intro part hpart
      cases hpart
  | cons word words ih =>
      have hword := hsound word List.mem_cons_self
      have hrest := ih (fun w hw => hsound w (List.mem_cons_of_mem word hw)) hapart.tail
      cases word with
      | table name =>
          refine followsSchema_cons [name] (Or.inl rfl) ?_ (by simp) hapart ?_ hrest
          · exact List.forall_mem_singleton.mpr hword
          · simpa using parts_table name words
      | column ref =>
          refine followsSchema_cons [ref.table, ref.column] (Or.inr rfl) ?_ (by simp)
            hapart ?_ hrest
          · simpa using ⟨hword.table, hword.column⟩
          · simpa using parts_column ref words
      | _ =>
          rw [tail_parts (by simp) (by simp)]
          exact hrest

end Parts

section Accounts

variable {spec : ReportSpec} {q : Query}

theorem Query.tables_words (q : Query) :
    q.words.flatMap Word.tables = q.source :: q.joins.map (·.table) := by
  rw [Query.flatMap_words (fun _ => rfl) (fun _ => rfl) (fun _ => rfl) fun _ => rfl]
  simp [Word.tables, flatMap_nothing, List.map_eq_flatMap]

theorem Query.outputs_words (q : Query) :
    q.words.flatMap Word.outputs = q.projections.map (·.output) := by
  rw [Query.flatMap_words (fun _ => rfl) (fun _ => rfl) (fun _ => rfl) fun _ => rfl]
  simp [Word.outputs, flatMap_nothing, List.map_eq_flatMap]

theorem Query.sortedOutputs_words (q : Query) :
    (q.sourceWords ++ q.conditionWords ++ q.groupWords).flatMap sortedOutputs = [] ∧
      q.words.flatMap sortedOutputs = q.order.flatMap fun key => key.target.word.sortedOutputs := by
  have hfront : (q.sourceWords ++ q.conditionWords ++ q.groupWords).flatMap sortedOutputs = [] := by
    rw [List.flatMap_append, List.flatMap_append, Query.flatMap_sourceWords fun _ => rfl,
      Query.flatMap_conditionWords fun _ => rfl, Query.flatMap_groupWords fun _ => rfl]
    simp [sortedOutputs, flatMap_nothing]
  refine ⟨hfront, ?_⟩
  rw [Query.words, List.flatMap_append, hfront, List.nil_append,
    Query.flatMap_orderWords fun _ => rfl]

theorem Query.Describes.accounts (h : q.Describes spec) : spec.Accounts q.words where
  clauses := ⟨q, h, rfl⟩
  sound := h.words_sound
  tables := by
    have hsource : spec.dataSources.take 1 = [q.source] := by
      cases hsources : spec.dataSources with
      | nil =>
          have := h.source
          rw [hsources] at this
          cases this
      | cons source sources =>
          have := h.source
          rw [hsources] at this
          cases this
          rfl
    rw [q.tables_words, hsource, map_eq_of_forall₂ h.joins fun _ _ hjoin => hjoin.table]
    rfl
  outputs := by
    rw [q.outputs_words]
    exact map_eq_of_forall₂ h.projections fun _ _ hselects => hselects.output
  predicates := by
    rw [q.predicates_words, List.map_map]
    exact map_eq_of_forall₂ h.joins fun _ _ hjoin => hjoin.on.symm
  sorted := by
    obtain ⟨hfront, hwords⟩ := q.sortedOutputs_words
    refine ⟨⟨_, q.order.map SortKey.words, rfl, hfront⟩, ?_⟩
    rw [hwords]
    intro name hname
    obtain ⟨key, hkey, hname⟩ := List.mem_flatMap.mp hname
    obtain ⟨order, _, hsorts⟩ := exists_of_mem_right h.order hkey
    rcases hsorts.target with ⟨htarget, hselected⟩ | ⟨ref, htarget, _⟩
    · rw [htarget] at hname
      rw [List.mem_singleton.mp hname]
      exact hselected
    · rw [htarget] at hname
      cases hname

end Accounts

theorem ColumnRef.text_eq (schemaName : String) (ref : ColumnRef) :
    ref.text schemaName = schemaName ++ "." ++ ref.table ++ "." ++ ref.column := by
  rw [ColumnRef.text, Piece.text, ColumnRef.chars_pieces]
  refine String.toList_inj.mp ?_
  simp

/-- A fault is told without the schema, or it names a column behind the schema. -/
theorem QueryFault.toFault_cases (fault : QueryFault) :
    (∀ schemaName, fault.toFault schemaName = fault.toFault "") ∨
      ∃ (blame : String → SpecFault String) (ref : ColumnRef), BlamesColumn blame ∧
        ∀ schemaName, fault.toFault schemaName = .spec (blame (ref.text schemaName)) := by
  cases fault with
  | spec fault =>
      cases fault with
      | emptyChoice ref => exact Or.inr ⟨_, ref, .emptyChoice, fun _ => rfl⟩
      | rangeBounds ref => exact Or.inr ⟨_, ref, .rangeBounds, fun _ => rfl⟩
      | nullComparison name ref => exact Or.inr ⟨_, ref, .nullComparison name, fun _ => rfl⟩
      | _ => exact Or.inl fun _ => by simp only [toFault, SpecFault.map]
  | _ => exact Or.inl fun _ => by simp only [toFault]

/-- A specification fails with the same fault in every schema, except that the column of a filter
is told with its schema, or it has a text whose parts are the same in every schema and whose
tables and columns all stand behind the schema. -/
theorem compile_uniform (spec : ReportSpec) :
    (∃ fault, ∀ schemaName, Sql.isIdentifier schemaName = true →
      compile schemaName spec = .error fault) ∨
    (∃ (blame : String → SpecFault String) (ref : ColumnRef), BlamesColumn blame ∧
      ∀ schemaName, Sql.isIdentifier schemaName = true → compile schemaName spec =
        .error (.spec (blame (schemaName ++ "." ++ ref.table ++ "." ++ ref.column)))) ∨
    ∃ words, spec.Accounts words ∧ (∀ part ∈ (parts words).tail, FollowsSchema part) ∧
      ∀ schemaName, Sql.isIdentifier schemaName = true → compile schemaName spec =
        .ok (String.ofList (List.intercalate schemaName.toList (parts words))) := by
  cases htoQuery : spec.toQuery with
  | error fault =>
      rcases fault.toFault_cases with htold | ⟨blame, ref, hblame, htold⟩
      · refine Or.inl ⟨fault.toFault "", fun schemaName hschema => ?_⟩
        rw [compile_of_identifier hschema, htoQuery, ← htold schemaName]
      · refine Or.inr (Or.inl ⟨blame, ref, hblame, fun schemaName hschema => ?_⟩)
        rw [compile_of_identifier hschema, htoQuery, ← ref.text_eq schemaName,
          ← htold schemaName]
  | ok q =>
      have hq := ReportSpec.toQuery_describes htoQuery
      refine Or.inr (Or.inr ⟨q.words, hq.accounts,
        followsSchema_parts hq.words_sound hq.words_apart, fun schemaName hschema => ?_⟩)
      rw [compile_of_identifier hschema, htoQuery, Word.parts, intercalate_parts, q.pieces_words]
      rfl

/-- A choice among no values fails with another fault in every schema. -/
theorem compile_fault_not_uniform :
    let spec : ReportSpec :=
      { dataSources := ["invoices"], joins := [],
        selectedColumns := [⟨"invoices", "amount", none, none⟩],
        filters := [⟨"status", .oneOf, .list []⟩], groupBy := [], orderBy := [] }
    ¬ ((∃ fault, ∀ schemaName, Sql.isIdentifier schemaName = true →
        compile schemaName spec = .error fault) ∨
      ∃ parts : List (List Char), ∀ schemaName, Sql.isIdentifier schemaName = true →
        compile schemaName spec =
          .ok (String.ofList (List.intercalate schemaName.toList parts))) := by
  intro spec
  have hfirst : compile "tenant_a" spec =
      .error (.spec (.emptyChoice "tenant_a.invoices.status")) := by rfl
  have hsecond : compile "tenant_b" spec =
      .error (.spec (.emptyChoice "tenant_b.invoices.status")) := by rfl
  rintro (⟨fault, h⟩ | ⟨parts, h⟩)
  · have heq := (h "tenant_a" (by decide)).symm.trans hfirst
    have heq' := (h "tenant_b" (by decide)).symm.trans hsecond
    rw [heq] at heq'
    simp at heq'
  · have heq := (h "tenant_a" (by decide)).symm.trans hfirst
    cases heq

end TenantReports
