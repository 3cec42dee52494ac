import TenantReports.Proofs.Tenant.Catalog

/-!
The tables of a school: what the statements create in a schema that the default directory of
migrations holds.
-/

namespace TenantReports

namespace Migration

/-- Text without a mark is the same in every schema. -/
theorem replaceAll_unmarked {plain : List Char} (h : '\x7b' ∉ plain) (new cs : List Char) :
    Text.replaceAll schemaMark new (plain ++ cs) = plain ++ Text.replaceAll schemaMark new cs := by
  induction plain with
  | nil => rfl
  | cons c plain ih =>
      obtain ⟨hc, hplain⟩ := not_or.mp (mt List.mem_cons.mpr h)
      have hmark : ¬ schemaMark <+: c :: (plain ++ cs) := by
        rintro ⟨rest, heq⟩
        have hmark : schemaMark = '\x7b' :: schemaMark.tail := by decide
        rw [hmark, List.cons_append] at heq
        exact hc (List.cons.inj heq).1
      rw [List.cons_append, Text.replaceAll_cons hmark, ih hplain, List.cons_append]

/-- What a statement starts with, as it is written, that creates a table of the schema. -/
def tableLead : List Char := TenantTable.creation ++ (schemaMark ++ ['.'])

/-- The table that a statement creates, as it is written. -/
def writtenTable? (statement : List Char) : Option (List Char) :=
  if tableLead.isPrefixOf statement then
    some ((statement.drop tableLead.length).takeWhile Sql.isNameChar)
  else none

/-- Whether a statement creates an index, or a table with nothing else right behind its name. -/
def isPlain (statement : List Char) : Bool :=
  "CREATE INDEX ".toList.isPrefixOf statement ||
    tableLead.isPrefixOf statement &&
      ((statement.drop tableLead.length).dropWhile Sql.isNameChar).head? == some ' '

theorem ofStatement?_creation {name table rest : List Char} (hname : name.all Sql.isNameChar = true)
    (htable : table.all Sql.isNameChar = true) :
    TenantTable.ofStatement?
        (String.ofList (TenantTable.creation ++ (name ++ '.' :: (table ++ ' ' :: rest)))) =
      some ⟨String.ofList name, String.ofList table⟩ := by
  have htake : ∀ {cs : List Char} (c : Char) (more : List Char), cs.all Sql.isNameChar = true →
      Sql.isNameChar c = false → (cs ++ c :: more).takeWhile Sql.isNameChar = cs := by
    intro cs c more hcs hc
    rw [List.takeWhile_append_of_pos (List.all_eq_true.mp hcs), List.takeWhile_cons_of_neg
      (by rw [hc]; exact Bool.false_ne_true), List.append_nil]
  have hdrop : (name ++ '.' :: (table ++ ' ' :: rest)).dropWhile Sql.isNameChar =
      '.' :: (table ++ ' ' :: rest) := by
    rw [List.dropWhile_append_of_pos (List.all_eq_true.mp hname)]
    rfl
  unfold TenantTable.ofStatement?
  rw [String.toList_ofList, if_pos (List.isPrefixOf_iff_prefix.mpr (List.prefix_append _ _)),
    List.drop_left]
  dsimp only
  rw [hdrop, htake '.' _ hname (by decide)]
  have hafter := htake ' ' rest htable (by decide)
  exact congrArg (fun cs => some (TenantTable.mk (String.ofList name) (String.ofList cs))) hafter

theorem ofStatement?_rendered {schemaName : String} (hname : Sql.isIdentifier schemaName = true)
    {statement : List Char} (hplain : isPlain statement = true) :
    TenantTable.ofStatement? (rendered schemaName (String.ofList statement)) =
      (writtenTable? statement).map fun table => ⟨schemaName, String.ofList table⟩ := by
  unfold rendered
  rw [String.toList_ofList]
  rcases Bool.or_eq_true_iff.mp hplain with hindex | hcreates
  · obtain ⟨rest, rfl⟩ := List.isPrefixOf_iff_prefix.mp hindex
    rw [replaceAll_unmarked (by decide)]
    unfold TenantTable.ofStatement?
    rw [String.toList_ofList]
    rfl
  · obtain ⟨hlead, hhead⟩ := Bool.and_eq_true_iff.mp hcreates
    obtain ⟨rest, rfl⟩ := List.isPrefixOf_iff_prefix.mp hlead
    rw [List.drop_left] at hhead
    have hsplit := List.takeWhile_append_dropWhile (p := Sql.isNameChar) (l := rest)
    obtain ⟨more, hmore⟩ : ∃ more, rest.dropWhile Sql.isNameChar = ' ' :: more := by
      cases hrest : rest.dropWhile Sql.isNameChar with
      | nil =>
          rw [hrest] at hhead
          cases hhead
      | cons c more =>
          rw [hrest] at hhead
          exact ⟨more, congrArg (· :: more) (Option.some.inj (eq_of_beq hhead))⟩
    have htable : (rest.takeWhile Sql.isNameChar).all Sql.isNameChar = true := List.all_takeWhile
    rw [writtenTable?, if_pos hlead, List.drop_left]
    generalize rest.takeWhile Sql.isNameChar = table at hsplit htable ⊢
    rw [hmore] at hsplit
    subst hsplit
    have hunmarked : '\x7b' ∉ '.' :: (table ++ [' ']) := by
      have htable : '\x7b' ∉ table := fun hmem =>
        absurd (List.all_eq_true.mp htable _ hmem) (by decide)
      simp [htable]
    have hwritten : tableLead ++ (table ++ ' ' :: more) =
        TenantTable.creation ++ (schemaMark ++ ('.' :: (table ++ [' ']) ++ more)) := by
      simp [tableLead]
    have htext : Text.replaceAll schemaMark schemaName.toList (tableLead ++ (table ++ ' ' :: more)) =
        TenantTable.creation ++ (schemaName.toList ++ '.' :: (table ++
          ' ' :: Text.replaceAll schemaMark schemaName.toList more)) := by
      rw [hwritten, replaceAll_unmarked (by decide), Text.replaceAll_append (by decide),
        replaceAll_unmarked hunmarked]
      simp
    have hname : schemaName.toList.all Sql.isNameChar = true := (Bool.and_eq_true_iff.mp hname).2
    rw [htext, ofStatement?_creation hname htable, String.ofList_toList]
    rfl

/-- The statements of the default directory, as they are written. -/
def schoolStatements : List (List Char) :=
  ((Sql.scriptParts (Text.unifyLineEnds (['\n'].intercalate (schoolTables.map String.toList)))).map
    Text.trim).filter (· ≠ [])

theorem scripts_singleton {file : MigrationFile} (h : isScript file = true) :
    scripts [file] = [file] := by
  unfold scripts
  rw [latest_eq_self (by simp), List.filter_singleton, h]
  exact List.mergeSort_singleton file

theorem written_defaultDirectory :
    written defaultDirectory = schoolStatements.map String.ofList := by
  unfold written defaultDirectory
  rw [scripts_singleton (by decide), List.flatMap_singleton]
  unfold textOf Sql.splitStatements schoolStatements
  rw [String.toList_ofList, String.toList_intercalate]
  rfl

theorem schoolStatements_plain :
    schoolStatements.all isPlain = true ∧ schoolStatements.filterMap writtenTable? =
      ["classes".toList, "students".toList, "attendance_records".toList, "grades".toList,
        "invoices".toList] := by
  decide +kernel

end Migration

namespace Directory

/-- Every schema that is made from the default directory gets the tables of a school. -/
theorem tablesOf_defaultDirectory {settings : Settings} {schemaName : String}
    (hname : Sql.isIdentifier schemaName = true)
    (hdirectory : migrationsOf settings = some Migration.defaultDirectory) :
    tablesOf settings schemaName =
      ["classes", "students", "attendance_records", "grades", "invoices"].map (⟨schemaName, ·⟩) := by
  obtain ⟨hplain, htables⟩ := Migration.schoolStatements_plain
  unfold tablesOf TenantTable.ofStatements
  rw [hdirectory, Option.elim_some, Migration.statements_eq hname,
    Migration.written_defaultDirectory, List.map_map, List.filterMap_map]
  have hcongr : ∀ statement ∈ Migration.schoolStatements,
      (TenantTable.ofStatement? ∘ Migration.rendered schemaName ∘ String.ofList) statement =
        (Migration.writtenTable? statement).map fun table => ⟨schemaName, String.ofList table⟩ :=
    fun statement hstatement =>
      Migration.ofStatement?_rendered hname (List.all_eq_true.mp hplain statement hstatement)
  rw [List.filterMap_congr hcongr, ← List.map_filterMap, htables]
  simp only [List.map_cons, List.map_nil, String.ofList_toList]

end Directory

end TenantReports
