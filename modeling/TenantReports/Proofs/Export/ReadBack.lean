import TenantReports.Export.Render
import TenantReports.Proofs.Json.RoundTrip
import TenantReports.Proofs.Result

/-!
Reading exports. Every export of comma-separated text is read as one record of headings and one
record for every row, in order, each with as many fields as there are headings. An export of JSON
text of rows without fractions is read by the standard's rules as exactly their plain form.
-/

namespace TenantReports

namespace Csv

mutual

/-- The records that a text holds from the beginning of a line on. Each ends with a carriage return
and a line feed; a line with nothing on it is a record without fields. -/
def records? : List Char → Option (List (List (List Char)))
  | [] => some []
  | '"' :: rest => (quoted? rest).map fun (content, fields, records) =>
      (content :: fields) :: records
  | '\r' :: '\n' :: rest => (records? rest).map ([] :: ·)
  | _ => none

/-- What is left of a field whose opening quote has been read, the fields behind it, and the records
behind them. In a field, two quotes stand for one, and all else stands for itself. -/
def quoted? : List Char → Option (List Char × List (List Char) × List (List (List Char)))
  | '"' :: '"' :: rest => (quoted? rest).map fun (content, next) => ('"' :: content, next)
  | '"' :: ',' :: '"' :: rest => (quoted? rest).map fun (content, fields, records) =>
      ([], content :: fields, records)
  | '"' :: '\r' :: '\n' :: rest => (records? rest).map fun records => ([], [], records)
  | '"' :: _ => none
  | c :: rest => (quoted? rest).map fun (content, next) => (c :: content, next)
  | [] => none

end

variable {text : List Char} {records : List (List (List Char))}

theorem quoted?_escapeChar (c : Char) (rest : List Char) :
    quoted? (escapeChar c ++ rest) =
      (quoted? rest).map fun (content, next) => (c :: content, next) := by
  unfold escapeChar
  by_cases hc : c = '"'
  · rw [if_pos hc, hc]
    change quoted? ('"' :: '"' :: rest) = _
    rw [quoted?]
  · rw [if_neg hc]
    change quoted? (c :: rest) = _
    rw [quoted?]
    · simp [hc]
    · simp [hc]
    · simp [hc]
    · simp [hc]

/-- What a field holds is read back from it. -/
theorem quoted?_escape (cs rest : List Char) :
    quoted? (cs.flatMap escapeChar ++ rest) =
      (quoted? rest).map fun (content, next) => (cs ++ content, next) := by
  induction cs with
  | nil => exact Option.map_id'.symm
  | cons c cs ih =>
      rw [List.flatMap_cons, List.append_assoc, quoted?_escapeChar, ih, Option.map_map]
      rfl

theorem record_append (first : List Char) (fields : List (List Char)) (text : List Char) :
    record (first :: fields) ++ text = '"' :: (first.flatMap escapeChar ++ '"' ::
      match fields with
      | [] => '\r' :: '\n' :: text
      | second :: fields => ',' :: (record (second :: fields) ++ text)) := by
  unfold record field
  cases fields with
  | nil => simp
  | cons second fields => simp [List.intercalate_cons_cons]

/-- The fields of a record are read back, whatever records follow. -/
theorem exists_quoted?_eq (h : records? text = some records) (first : List Char)
    (fields : List (List Char)) : ∃ rest, record (first :: fields) ++ text = '"' :: rest ∧
      quoted? rest = some (first, fields, records) := by
  induction fields generalizing first with
  | nil =>
      refine ⟨_, record_append .., ?_⟩
      rw [quoted?_escape, quoted?, h]
      simp
  | cons second fields ih =>
      obtain ⟨rest, hrest, hquoted⟩ := ih second
      refine ⟨_, record_append .., ?_⟩
      dsimp only
      rw [hrest, quoted?_escape, quoted?, hquoted]
      simp

theorem records?_record (h : records? text = some records) (fields : List (List Char)) :
    records? (record fields ++ text) = some (fields :: records) := by
  cases fields with
  | nil =>
      change records? ('\r' :: '\n' :: text) = _
      rw [records?, h]
      rfl
  | cons first fields =>
      obtain ⟨rest, hrest, hquoted⟩ := exists_quoted?_eq h first fields
      rw [hrest, records?, hquoted]
      rfl

/-- Records are read back from their text. -/
theorem records?_write (records : List (List Value)) :
    records? (write records).toList = some (records.map (·.map cell)) := by
  unfold write
  rw [String.toList_ofList]
  induction records with
  | nil => rfl
  | cons cells records ih =>
      rw [List.flatMap_cons]
      exact records?_record ih _

end Csv

namespace ExportFile

variable {rows columns : List Entries}

/-- The text at the head of a column: its label, or its name where the label is missing or empty. -/
def headText (column : Entries) : List Char :=
  match column.field? "label" with
  | none => Csv.cell (column.field "name")
  | some label =>
      if label.isTruthy then Csv.cell label else Csv.cell (column.field "name")

/-- The values under which the fields of a row are found. -/
def fieldNames (rows columns : List Entries) : List Value :=
  if columns = [] then (rows.headD []).map (·.1) else columns.map (·.field "name")

/-- The texts at the head of an export. -/
def headTexts (rows columns : List Entries) : List (List Char) :=
  if columns = [] then (rows.headD []).map fun entry => Csv.cell entry.1 else columns.map headText

/-- The text of a row's value; what is missing or null has none. -/
def fieldText (row : Entries) (name : Value) : List Char :=
  match row.get? name with
  | none | some .null => []
  | some v => v.plainChars

/-- The texts of a row's values. -/
def fieldTexts (rows columns : List Entries) (row : Entries) : List (List Char) :=
  (fieldNames rows columns).map (fieldText row)

theorem length_fieldTexts (rows columns : List Entries) (row : Entries) :
    (fieldTexts rows columns row).length = (headTexts rows columns).length := by
  unfold fieldTexts fieldNames headTexts
  split
  · simp only [List.length_map]
  · simp only [List.length_map]

theorem cell_heading (column : Entries) :
    Csv.cell (heading column (column.field "name")) = headText column := by
  unfold heading headText
  cases hlabel : column.field? "label" with
  | none =>
      have hnull : column.field "label" = .null := by rw [Entries.field, hlabel]; rfl
      rw [hnull]
      rfl
  | some label =>
      have hgiven : column.field "label" = label := by rw [Entries.field, hlabel]; rfl
      rw [hgiven]
      dsimp only
      split
      · rfl
      · rfl

theorem cell_get? (row : Entries) (name : Value) :
    Csv.cell ((row.get? name).getD .null) = fieldText row name := by
  unfold fieldText
  cases row.get? name with
  | none => rfl
  | some v => cases v <;> rfl

theorem map_cell_headings (rows columns : List Entries) :
    (headings columns (fieldNames rows columns)).map Csv.cell = headTexts rows columns := by
  unfold headings fieldNames headTexts
  cases columns with
  | nil =>
      change (List.map _ _).map _ = _
      rw [List.map_map]
      rfl
  | cons column columns =>
      rw [if_neg (by simp), if_neg (by simp), if_neg (by simp), List.zipWith_map_right,
        List.zipWith_self, List.map_map]
      exact List.map_congr_left fun column _ => cell_heading column

theorem names_eq_ok
    (hnames : ∀ column ∈ columns, ∃ name, column.field? "name" = some name ∧ name.isKey = true) :
    names rows columns = .ok (fieldNames rows columns) := by
  have hgiven : columns.mapM columnName = .ok (columns.map (·.field "name")) := by
    refine mapM_eq_ok.mpr (List.forall₂_map_right_iff.mpr (List.forall₂_same.mpr ?_))
    intro column hcolumn
    obtain ⟨name, hname, -⟩ := hnames column hcolumn
    rw [columnName, Entries.field, hname]
    rfl
  have hkeys : (columns.map (·.field "name")).all Value.isKey = true := by
    rw [List.all_eq_true]
    intro name hname
    obtain ⟨column, hcolumn, rfl⟩ := List.mem_map.mp hname
    obtain ⟨name, hname, hkey⟩ := hnames column hcolumn
    rw [Entries.field, hname]
    exact hkey
  unfold names fieldNames
  rw [hgiven]
  change (if _ then _ else _) = _
  cases columns with
  | nil => rfl
  | cons column columns =>
      rw [hkeys, Bool.or_true]
      rfl

/-- An export of comma-separated text is read as one record of the texts at the heads of the
columns and then, for every row in order, one record of the texts of its values, each with as many
fields as there are heads. -/
theorem render_read_as_records {formatName : String}
    (hformat : formatName = "csv" ∨ formatName = "excel")
    (hnames : ∀ column ∈ columns, ∃ name, column.field? "name" = some name ∧ name.isKey = true) :
    ∃ file, render rows columns formatName = .ok file ∧
      Csv.records? file.content.toList =
        some (headTexts rows columns :: rows.map (fieldTexts rows columns)) ∧
      ∀ row ∈ rows, (fieldTexts rows columns row).length = (headTexts rows columns).length := by
  let records := rows.map fun row =>
    (fieldNames rows columns).map fun name => (row.get? name).getD .null
  let content := Csv.write (headings columns (fieldNames rows columns) :: records)
  have hcontent : csvContent rows columns = .ok content := by
    unfold csvContent
    rw [names_eq_ok hnames]
    rfl
  have hfields (row : Entries) : ((fieldNames rows columns).map fun name =>
      (row.get? name).getD .null).map Csv.cell = fieldTexts rows columns row := by
    rw [List.map_map]
    exact List.map_congr_left fun name _ => cell_get? row name
  have hread : Csv.records? content.toList =
      some (headTexts rows columns :: rows.map (fieldTexts rows columns)) := by
    rw [Csv.records?_write, List.map_cons, map_cell_headings, List.map_map]
    exact congrArg _ (congrArg _ (List.map_congr_left fun row _ => hfields row))
  have hrender (format : ExportFormat) (hcsv : contentOf format rows columns = .ok content)
      (hname : ExportFormat.ofName? formatName = some format) :
      render rows columns formatName = .ok ⟨content, format.extension, format.contentType⟩ := by
    unfold render
    rw [hname]
    dsimp only
    rw [hcsv]
    rfl
  rcases hformat with rfl | rfl
  · exact ⟨_, hrender .csv hcontent rfl, hread, fun row _ => length_fieldTexts rows columns row⟩
  · exact ⟨_, hrender .excel hcontent rfl, hread, fun row _ => length_fieldTexts rows columns row⟩

/-- Quotes, commas and line ends stay in their fields. -/
theorem render_read_as_records_of_marks :
    let rows : List Entries := [[(.text "a", .text "x,\"y\r\nz"), (.text "b", .null)],
      [(.text "c", .int 1), (.int 2, .list [.bool true])]]
    let columns : List Entries := [.ofPairs [(.text "name", .text "a"), (.text "label", .text "")],
      .ofPairs [(.text "name", .int 2), (.text "label", .text "\",")]]
    (∀ column ∈ columns, ∃ name, column.field? "name" = some name ∧ name.isKey = true) ∧
      ∃ file, render rows columns "excel" = .ok file ∧
        Csv.records? file.content.toList = some [["a".toList, "\",".toList],
          ["x,\"y\r\nz".toList, []], [[], "[True]".toList]] := by
  intro rows columns
  have hnames : ∀ column ∈ columns,
      ∃ name, column.field? "name" = some name ∧ name.isKey = true := by
    rw [List.forall_mem_cons, List.forall_mem_singleton]
    exact ⟨⟨_, rfl, rfl⟩, ⟨_, rfl, rfl⟩⟩
  obtain ⟨file, hfile, hread, -⟩ := @render_read_as_records rows columns "excel" (.inr rfl) hnames
  exact ⟨hnames, file, hfile, hread⟩

end ExportFile

/-! JSON text -/

/-- Rows are put into plain form as the list of them is. -/
theorem toPlain_rows (rows : List Entries) : (Value.list (rows.map .mapping)).toPlain =
    do return .list ((← rowsToPlain rows).map .mapping) := by
  have hitems : Value.itemsToPlain (rows.map .mapping) =
      do return (← rowsToPlain rows).map .mapping := by
    induction rows with
    | nil => rfl
    | cons row rows ih =>
        rw [List.map_cons, Value.itemsToPlain, Value.toPlain, ih, rowsToPlain, rowsToPlain,
          List.mapM_cons]
        cases Value.entriesToPlain row with
        | error fault => rfl
        | ok pairs =>
            cases rows.mapM fun row => do return Entries.ofPairs (← Value.entriesToPlain row) with
            | error fault => rfl
            | ok plain => rfl
  rw [Value.toPlain, hitems]
  cases rowsToPlain rows <;> rfl

namespace ExportFile

variable {rows : List Entries}

theorem render_json {plain : Value}
    (h : (Value.list (rows.map .mapping)).toPlain = .ok plain) (columns : List Entries) :
    render rows columns "json" = .ok ⟨Json.write plain, "json", "application/json"⟩ := by
  rw [toPlain_rows] at h
  obtain ⟨plainRows, hrows, heq⟩ := bind_eq_ok.mp h
  cases heq
  have hcontent : contentOf .json rows columns =
      .ok (Json.write (.list (plainRows.map .mapping))) := by
    unfold contentOf jsonContent
    rw [hrows]
    rfl
  unfold render
  change (contentOf .json rows columns >>= _) = _
  rw [hcontent]
  rfl

/-- An export of JSON text is ASCII, does not depend on the columns, and is read as the plain form
of the rows. -/
theorem render_read_as_json (hrows : ∀ row ∈ rows, (Value.mapping row).isDiscrete = true) :
    ∃ plain content, (Value.list (rows.map .mapping)).toPlain = .ok plain ∧
      (∀ columns, render rows columns "json" = .ok ⟨content, "json", "application/json"⟩) ∧
      (∀ c ∈ content.toList, c.toNat < 128) ∧
      Json.readBy? Json.standardRules content = some plain := by
  have hdiscrete : (Value.list (rows.map .mapping)).isDiscrete = true := by
    rw [Value.isDiscrete, Value.allDiscrete_iff]
    exact List.forall_mem_map.mpr hrows
  obtain ⟨plain, hplain, hdiscrete⟩ := Value.exists_toPlain hdiscrete
  have hsettled := Value.isSettled_of_toPlain hplain
  refine ⟨plain, Json.write plain, hplain, render_json hplain, ?_,
    Json.readBy?_write hsettled hdiscrete⟩
  rw [Json.write, String.toList_ofList]
  exact (Json.roundTrips hsettled hdiscrete).ascii

/-- Texts beyond ASCII, escapes, and values in values come back as the plain form has them. -/
theorem render_read_as_json_of_marks :
    let rows : List Entries := [
      [(.text "a\"b", .text "\\\n\x01\x7f é😀"),
        (.text "", .tuple [.date ⟨2024, 5, 1⟩, .int (-10), .bytes [0x0F, 0xA0]])],
      [(.text "😀", .mapping [(.text "none", .null), (.text "all", .list [.bool true, .list []])])]]
    (∀ row ∈ rows, (Value.mapping row).isDiscrete = true) ∧
      ∃ content,
        (∀ columns, render rows columns "json" = .ok ⟨content, "json", "application/json"⟩) ∧
        (∀ c ∈ content.toList, c.toNat < 128) ∧
        Json.readBy? Json.standardRules content = some (.list [
          .mapping [(.text "a\"b", .text "\\\n\x01\x7f é😀"),
            (.text "", .list [.text "2024-05-01", .int (-10), .text "0fa0"])],
          .mapping [(.text "😀",
            .mapping [(.text "none", .null), (.text "all", .list [.bool true, .list []])])]]) := by
  intro rows
  have hrows : ∀ row ∈ rows, (Value.mapping row).isDiscrete = true := by
    rw [List.forall_mem_cons, List.forall_mem_singleton]
    exact ⟨rfl, rfl⟩
  obtain ⟨plain, content, hplain, hrender, hascii, hread⟩ := render_read_as_json hrows
  refine ⟨hrows, content, hrender, hascii, hread.trans ?_⟩
  exact (congrArg Except.toOption hplain).symm

end ExportFile

end TenantReports
