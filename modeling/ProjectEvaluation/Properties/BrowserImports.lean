import ProjectEvaluation.Lib.CutCsv
import ProjectEvaluation.Pages.EMRStandardClause
import ProjectEvaluation.Pages.VendorImport

/-!
# The imports in the browser

What the three importers that run in the browser make of a text that follows RFC 4180.

Results:
* `browser_imports_iff`: each of them reads the rows of the text exactly when the records
  with seven fields or more are written without quotes and without CR, and no line of a
  shorter one has seven values; its requests are then those of the rows.
-/

namespace ProjectEvaluation.Pages

open Python JavaScript Rfc4180

/-! ## The rows -/

/-- A document as a text. -/
def csvText (doc : Document) : String := String.ofList doc.render

/-- The rows of a document: the texts of the records after the header that have seven
    fields or more, as the importers ask for. -/
def csvRows (doc : Document) : List (List String) :=
  (doc.rows 7).map fun row => row.map String.ofList

/-- The first record of a document has the names of a page's columns. -/
def HasHeader (headers : List String) (doc : Document) : Prop :=
  doc.records.head?.map texts = some (headers.map String.toList)

instance (headers : List String) (doc : Document) : Decidable (HasHeader headers doc) := by
  unfold HasHeader
  infer_instance

/-- After the header, each record with seven fields or more has no quoted field and does
    not end in CRLF, and no line of a shorter record has seven values. -/
def Unquoted (doc : Document) : Prop := ∀ record ∈ doc.ended.drop 1, CutRight 7 record

instance (doc : Document) : Decidable (Unquoted doc) := by
  unfold Unquoted
  infer_instance

theorem split_lines (text : List Char) :
    (split '\n' (String.ofList text)).map (split ',') = (cutLines text).map fun values =>
      values.map String.ofList := by
  simp only [split, cutLines, String.toList_ofList, List.map_map]
  refine List.map_congr_left fun line _ => ?_
  simp [split]

/-- The rows of the vendor importers are cut out of the text. -/
theorem vendorRows_eq (text : List Char) :
    vendorRows (String.ofList text) = (cutRows 7 text).map fun values =>
      values.map String.ofList := by
  rw [vendorRows, List.map_drop, split_lines, ← List.map_drop, List.filter_map, cutRows]
  refine congrArg (List.map _) (List.filter_congr fun values _ => ?_)
  simp

/-- A line with seven values is not blank. -/
theorem trim_of_values {line : String} (h : 7 ≤ (split ',' line).length) : trim line ≠ "" := by
  have hcount : 0 < line.toList.count ',' := by
    rw [split, List.length_map, length_splitOn] at h
    omega
  exact trim_ne_empty (List.count_pos_iff.mp hcount) (by decide)

/-- So are those of the importer of clauses. -/
theorem clauseRows_eq (csvContent : String) : clauseRows csvContent = vendorRows csvContent := by
  rw [clauseRows, vendorRows, List.filter_map, List.filter_map, List.filter_filter]
  refine congrArg (List.map _) (List.filter_congr fun line _ => ?_)
  by_cases hseven : 7 ≤ (split ',' line).length
  · simp [hseven, trim_of_values hseven]
  · simp [hseven]

/-- **Reading a document.** The rows of the importers are those of the document exactly
    when it needs no quotes. -/
theorem vendorRows_eq_csvRows_iff {doc : Document} {headers : List String}
    (hheader : HasHeader headers doc)
    (hfeed : ∀ s ∈ headers, '\n' ∉ s.toList) : vendorRows (csvText doc) = csvRows doc ↔
    Unquoted doc := by
  obtain ⟨header, hfirst, htexts⟩ := Option.map_eq_some_iff.mp hheader
  have hcell : ∀ cell ∈ header, '\n' ∉ cell.text := by
    intro cell hmem
    have htext := List.mem_map_of_mem (f := Cell.text) hmem
    rw [← texts, htexts] at htext
    obtain ⟨s, hs, hsame⟩ := List.mem_map.mp htext
    exact hsame ▸ hfeed s hs
  have hinj : Function.Injective fun row : List (List Char) => row.map String.ofList :=
    List.map_injective_iff.mpr fun s t hst => String.ofList_inj.mp hst
  rw [csvText, vendorRows_eq, csvRows, List.map_inj_right hinj]
  exact cutRows_eq_rows_iff (by norm_num) hfirst hcell

/-! ## The importers -/

/-- **The imports in the browser.** Under the header of its page, each importer reads the
    rows of a document exactly when the document needs no quotes; it then sends what is to
    be sent for these rows. -/
theorem browser_imports_iff (doc : Document) :
    (HasHeader clauseHeaders doc →
      (clauseRows (csvText doc) = csvRows doc ↔ Unquoted doc) ∧
        (Unquoted doc → ∀ standardId,
          handleFileUpload standardId (csvText doc) = (csvRows doc).map (clauseData standardId))) ∧
    (HasHeader vendorHeaders doc →
      (vendorRows (csvText doc) = csvRows doc ↔ Unquoted doc) ∧
        (Unquoted doc → ∀ today newDate now server,
          (∀ (page : ResearchPage) task,
            page.handleImportTemplate today newDate now task (csvText doc) server =
            page.importRows today newDate now task (csvRows doc) server) ∧
          ∀ form : VendorResearchForm,
            form.handleImportTemplate today newDate now (csvText doc) server =
            form.importRows today newDate now (csvRows doc) server)) := by
  constructor
  · intro hheader
    have hiff := vendorRows_eq_csvRows_iff hheader (by decide +kernel)
    rw [← clauseRows_eq] at hiff
    exact ⟨hiff, fun hplain standardId => by rw [handleFileUpload, hiff.mpr hplain]⟩
  · intro hheader
    have hiff := vendorRows_eq_csvRows_iff hheader (by decide +kernel)
    refine ⟨hiff, fun hplain today newDate now server => ⟨fun page task => ?_, fun form => ?_⟩⟩
    · rw [ResearchPage.handleImportTemplate, hiff.mpr hplain]
    · rw [VendorResearchForm.handleImportTemplate, hiff.mpr hplain]

/-- A document with one record under a header, its fields quoted where they must be. -/
def oneRecord (headers fields : List String) (e : LineEnd) : Document where
  lines := [(headers.map fun s => Cell.ofText s.toList, .lf),
    (fields.map fun s => Cell.ofText s.toList, e)]
  last := none

/-- A manufacturer and a content with a comma, and remarks before CRLF. -/
def commaVendor : Document := oneRecord vendorHeaders ["", "", "", "", "", "东软,集团", ""] .lf

def crlfVendor : Document := oneRecord vendorHeaders ["", "", "", "", "", "东软", "已上线"] .crlf

def commaClause : Document :=
  oneRecord clauseHeaders ["S1", "P1", "医生", "门诊", "基本", "挂号,收费", "85.5", "完整"] .lf

/-- A page of a task without projects and systems. -/
def emptyForm : VendorResearchForm := ⟨"任务", [], [], some 1⟩

/-- The comma shifts the columns and the quotes stay; CR stays at the end of the remarks. -/
theorem quoted_fields_cut :
    (HasHeader vendorHeaders commaVendor ∧
      (vendorRows (csvText commaVendor)).map (fun values =>
          let data := emptyForm.importRecord (fun _ => .null) .null values
          (data.manufacturer, data.remarks)) = [("\"东软", "集团\"")] ∧
      (csvRows commaVendor).map (fun values =>
          let data := emptyForm.importRecord (fun _ => .null) .null values
          (data.manufacturer, data.remarks)) = [("东软,集团", "")]) ∧
    (HasHeader vendorHeaders crlfVendor ∧
      (vendorRows (csvText crlfVendor)).map (fun values =>
          (emptyForm.importRecord (fun _ => .null) .null values).remarks) = ["已上线\r"] ∧
      (csvRows crlfVendor).map (fun values =>
          (emptyForm.importRecord (fun _ => .null) .null values).remarks) = ["已上线"]) ∧
    HasHeader clauseHeaders commaClause ∧
      (handleFileUpload "" (csvText commaClause)).map (fun clause =>
          (clause.mainEvaluationContent, clause.functionScore.map (·.value),
            clause.dataQualityEvaluationContent)) = [("\"挂号", none, "85.5")] ∧
      ((csvRows commaClause).map (clauseData "")).map (fun clause =>
          (clause.mainEvaluationContent, clause.functionScore.map (·.value),
            clause.dataQualityEvaluationContent)) = [("挂号,收费", some (171 / 2), "完整")] := by
  decide +kernel

/-- A record that needs no quotes. -/
def plainClause : Document :=
  oneRecord clauseHeaders ["S1", "P1", "医生", "门诊", "基本", "挂号", "85.5", "完整"] .lf

/-- It is imported as it is. -/
theorem plain_clause_imported :
    handleFileUpload "S1" (csvText plainClause) = (csvRows plainClause).map (clauseData "S1") :=
  ((browser_imports_iff plainClause).1 (by decide +kernel)).2 (by decide +kernel) "S1"

end ProjectEvaluation.Pages
