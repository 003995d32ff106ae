import ProjectEvaluation.Pages.Templates
import ProjectEvaluation.Properties.Imports
import ProjectEvaluation.Python.Csv

/-!
# Templates in CSV files

A list of templates, encoded by RFC 4180 under the two rows `handleDownloadTemplate`
writes, and what the import makes of the file.

Results:
* `template_csv_iff`: the import adds the rows of the templates exactly when no text has
  a line boundary and the numbers and the lengths of the cells are in their ranges.
-/

namespace ProjectEvaluation.Backend

open Python Relational Transaction Rfc4180 Pages

/-! ## The file -/

/-- A document under the two rows the page writes. -/
def templateFile (e e' : LineEnd) (doc : Document) : List Char :=
  templateHeading ++ (e.chars ++ (templateDescription ++ (e'.chars ++ doc.render)))

/-- The names of the columns as the reader gets them. -/
def headingFields : CsvFields := templateHeaders.map String.toList

/-- The descriptions as fields of a record. -/
def descriptionCells : List Cell :=
  ["项目类别ID(evaluation_type_id)", "项目级别ID", "系统名称ID", "标准要求", "要求类型", "考察项目", "参考截图URL",
   "备注说明", "标准条款ID", "启用状态(1=启用", "0=禁用)"].map fun s => Cell.ofText s.toList

theorem heading_oneLine : OneLine templateHeading := by decide +kernel

theorem heading_parse : (marksOf templateHeading).foldlM Reader.parseChar .start =
    .ok ⟨.startRecord, [], headingFields⟩ := by decide +kernel

theorem heading_named : (headingFields.map fun name => Field.named (String.ofList name)) =
    templateFields := by
  decide +kernel

theorem description_render : renderRecord descriptionCells = templateDescription := by
  decide +kernel

theorem description_intact : 2 ≤ descriptionCells.length ∧ ∀ cell ∈ descriptionCells,
    Intact cell ∧ Fits cell := by
  decide +kernel

/-- **The records of the file**: those of the document, after one for the descriptions. -/
theorem read_templateFile (e e' : LineEnd) {doc : Document}
    (h : ∀ cells ∈ doc.records, cells ≠ []) :
    dictReader (splitLines (templateFile e e' doc)) =
      ((fieldsOf descriptionCells :: (finish (readRecords doc.records)).1).map
        (dictRow templateFields), (finish (readRecords doc.records)).2) := by
  have hrest : feed .start ((templateDescription ++ (e'.chars ++ doc.render)).map mark ++ [none]) =
      after [fieldsOf descriptionCells] (readRecords doc.records) := by
    have hrecords : Document.records ⟨(descriptionCells, e') :: doc.lines, doc.last⟩ =
        descriptionCells :: doc.records := rfl
    have hfilled : ∀ cells ∈ Document.records ⟨(descriptionCells, e') :: doc.lines, doc.last⟩,
        cells ≠ [] := by
      rw [hrecords]
      intro cells hmem
      rcases List.mem_cons.mp hmem with rfl | hmem
      · exact List.ne_nil_of_length_pos (lt_of_lt_of_le Nat.zero_lt_two description_intact.1)
      · exact h cells hmem
    have hread := feed_document hfilled
    have hrows :=
      recordRows_intact description_intact.1 fun cell hcell => (description_intact.2 cell hcell).1
    rw [if_pos fun cell hcell => (description_intact.2 cell hcell).2] at hrows
    rw [Document.render_cons, description_render, hrecords] at hread
    rw [hread, readRecords, hrows]
  rw [templateFile, dictReader_of_headings heading_oneLine heading_parse, hrest, finish_after,
    heading_named]
  rfl

/-- A field of a row by its position. -/
def column (fields : CsvFields) (i : ℕ) : Option String := fields[i]?.map String.ofList

/-- The row an import makes of the fields of a record; `none` where the record is
    skipped. -/
def accepted (k : Clock) (fields : CsvFields) : Option Op :=
  unlessRaised (templateRow k (dictRow templateFields fields))

theorem unlessRaised_eq_some {x : Except Exn (Option Op)} {o : Op} :
    unlessRaised x = some o ↔ x = .ok (some o) := by
  rcases x with e | _ | o' <;> simp [unlessRaised, Except.toOption]

/-- The fields of a record by the names of their columns. -/
theorem dictRow_get (fields : CsvFields) :
    (∀ d, CsvRow.get (dictRow templateFields fields) .projectCategory d = column fields 0) ∧
    (∀ d, CsvRow.get (dictRow templateFields fields) .projectLevel d = column fields 1) ∧
    (∀ d, CsvRow.get (dictRow templateFields fields) .systemName d = column fields 2) ∧
    (∀ d, CsvRow.get (dictRow templateFields fields) .standardRequirement d = column fields 3) ∧
    (∀ d, CsvRow.get (dictRow templateFields fields) .requirementType d = column fields 4) ∧
    (∀ d, CsvRow.get (dictRow templateFields fields) .inspectionProject d = column fields 5) ∧
    (∀ d, CsvRow.get (dictRow templateFields fields) .referenceScreenshot d = column fields 6) ∧
    (∀ d, CsvRow.get (dictRow templateFields fields) .remarks d = column fields 7) ∧
    (∀ d, CsvRow.get (dictRow templateFields fields) .clauseId d = column fields 8) ∧
    (∀ d, CsvRow.get (dictRow templateFields fields) .enabledStatus d = column fields 9) :=
  ⟨fun _ => rfl, fun _ => rfl, fun _ => rfl, fun _ => rfl, fun _ => rfl, fun _ => rfl,
    fun _ => rfl, fun _ => rfl, fun _ => rfl, fun _ => rfl⟩

/-! ## Records -/

/-- A template: numbers, texts, and three texts that are not
    blank. -/
structure TemplateRecord where
  projectCategory : ℤ
  projectLevel : ℤ
  systemName : Option ℤ
  standardRequirement : String
  requirementType : String
  inspectionProject : String
  referenceScreenshot : String
  remarks : String
  clauseId : Option ℤ
  enabled : Bool
  filled : ∀ s ∈ [standardRequirement, requirementType, inspectionProject], strip s ≠ ""

/-! ### Numbers -/

theorem decimal_oneLine (n : ℤ) : OneLine (toString n).toList := by
  intro c hc
  by_contra hbreak
  have hspace := isSpace_of_boundary (by simpa using hbreak)
  rw [isSpace_toString n c hc] at hspace
  cases hspace

/-- A number of 64 bits is read as it is written. -/
theorem pyInt_decimal {n : ℤ} (h : inInt64 n = true) : pyInt (toString n) = some n := by
  refine pyInt_toString ?_
  have hlength : (Nat.toDigits 10 n.natAbs).length ≤ 19 := by
    rw [Nat.length_toDigits_le_iff (by norm_num) (by norm_num)]
    rw [inInt64_iff] at h
    omega
  omega

theorem intOrNone_decimal {n : ℤ} (h : inInt64 n = true) :
    intOrNone (some (toString n)) = .ok (some (.json (.int n))) := by
  have hstrip : strip (toString n) = toString n := strip_of_no_space (isSpace_toString n)
  have hempty : toString n ≠ "" := by
    intro hempty
    have hread := pyInt_decimal h
    rw [hempty] at hread
    cases hread
  unfold intOrNone
  rw [Option.getD_some, hstrip, if_neg hempty, intAttr, pyInt_decimal h]
  rfl

/-- A text without its line boundaries. -/
def joined (s : String) : String := String.ofList (joinLines s.toList)

theorem joined_of_oneLine {s : String} (h : OneLine s.toList) : joined s = s := by
  rw [joined, joinLines_of_oneLine h, String.ofList_toList]

theorem strip_joined {s : String} (h : OneLine (strip s).toList) : strip (joined s) = strip s := by
  have hchars : OneLine (stripChars s.toList) := by
    rw [strip, String.toList_ofList] at h
    exact h
  rw [strip, joined, String.toList_ofList, stripChars_joinLines, joinLines_of_oneLine hchars]
  rfl

theorem fieldsOf_texts (written : List Cell) :
    fieldsOf written = (texts written).map joinLines := by
  rw [fieldsOf, texts, List.map_map]
  rfl

theorem intOrNone_empty : intOrNone (some "") = .ok none := rfl

namespace TemplateRecord

/-- The cells of a record. -/
def cells (r : TemplateRecord) : List String :=
  [toString r.projectCategory, toString r.projectLevel, r.systemName.elim "" toString,
   r.standardRequirement, r.requirementType, r.inspectionProject, r.referenceScreenshot, r.remarks,
   r.clauseId.elim "" toString, if r.enabled then "1" else "0"]

/-- The values of a record, the required texts trimmed. -/
def value (r : TemplateRecord) : Field → Value
  | .projectCategory => .int r.projectCategory
  | .projectLevel => .int r.projectLevel
  | .systemName => r.systemName.elim .null .int
  | .standardRequirement => .text (strip r.standardRequirement)
  | .requirementType => .text (strip r.requirementType)
  | .inspectionProject => .text (strip r.inspectionProject)
  | .referenceScreenshot => .text r.referenceScreenshot
  | .remarks => .text r.remarks
  | .clauseId => r.clauseId.elim .null .int
  | .enabledStatus => .int (if r.enabled then 1 else 0)
  | _ => .null

/-- A row with the values of a record. -/
def Stored (r : TemplateRecord) (row : Record) : Prop :=
  ∀ c ∈ Table.researchTemplate.columns, row.cell c.field = r.value c.field

/-- The numbers of a record. -/
def numbers (r : TemplateRecord) : List ℤ :=
  [r.projectCategory, r.projectLevel] ++ r.systemName.toList ++ r.clauseId.toList

/-- A record that comes through the import: its numbers have 64 bits, its texts have no
    line boundary, but for blanks around a required text that is quoted, and no cell is
    longer than the reader allows. -/
structure ComesThrough (r : TemplateRecord) (written : List Cell) : Prop where
  numbers : ∀ n ∈ r.numbers, inInt64 n = true
  required : ∀ s ∈ [r.standardRequirement, r.requirementType, r.inspectionProject],
    OneLine (strip s).toList
  optional : ∀ s ∈ [r.referenceScreenshot, r.remarks], OneLine s.toList
  intact : ∀ cell ∈ written, Intact cell
  fits : ∀ cell ∈ written, Fits cell

/-- The attributes of the row of a record. -/
def attrs (r : TemplateRecord) : List (Field × Attr) :=
  [(.projectCategory, .json (.int r.projectCategory)), (.projectLevel, .json (.int r.projectLevel)),
   (.systemName, .json (r.systemName.elim .null .int)),
   (.standardRequirement, .json (.str (strip r.standardRequirement))),
   (.requirementType, .json (.str (strip r.requirementType))),
   (.inspectionProject, .json (.str (strip r.inspectionProject))),
   (.referenceScreenshot, .json (.str r.referenceScreenshot)), (.remarks, .json (.str r.remarks)),
   (.clauseId, .json (r.clauseId.elim .null .int)),
   (.enabledStatus, .json (.int (if r.enabled then 1 else 0)))]

theorem initial_attrs (k : Clock) {r : TemplateRecord} (h : ∀ n ∈ r.numbers, inInt64 n = true) :
    ∀ c ∈ Table.researchTemplate.columns, c.initial k r.attrs = .ok (r.value c.field) := by
  have hcategory := h r.projectCategory (by simp [numbers])
  have hlevel := h r.projectLevel (by simp [numbers])
  have hint : ∀ n, inInt64 n = true → bindJson .integer (.int n) = .ok (.int n) :=
    fun n hn => by simp [bindJson, hn]
  have hoption : ∀ (f : Field) (x : Option ℤ), (∀ n ∈ x.toList, inInt64 n = true) → ∀ c : Column,
      c.field = f → c.type = .integer → c.default = none →
      r.attrs.lookup f = some (.json (x.elim .null .int)) →
      c.initial k r.attrs = .ok (x.elim .null .int) := by
    intro f x hx c hf hty hdefault hattr
    rw [← hf] at hattr
    rw [Column.initial_eq_bind k hattr (Or.inl hdefault), hty]
    cases x with
    | none => rfl
    | some n => exact hint n (hx n (Option.mem_toList.mpr rfl))
  intro c hc
  simp only [Table.columns, List.mem_cons, List.not_mem_nil, or_false] at hc
  rcases hc with rfl | rfl | rfl | rfl | rfl | rfl | rfl | rfl | rfl | rfl
  · exact hint _ hcategory
  · exact hint _ hlevel
  · exact hoption .systemName r.systemName
      (fun n hn => h n (by simp [numbers, hn])) _ rfl rfl rfl rfl
  · rfl
  · rfl
  · rfl
  · rfl
  · rfl
  · exact hoption .clauseId r.clauseId (fun n hn => h n (by simp [numbers, hn])) _ rfl rfl rfl rfl
  · exact hint _ (by cases r.enabled <;> decide)

theorem value_null (r : TemplateRecord) :
    ∀ c ∈ Table.researchTemplate.columns, r.value c.field = .null → c.nullable = true := by
  intro c hc hnull
  simp only [Table.columns, List.mem_cons, List.not_mem_nil, or_false] at hc
  rcases hc with rfl | rfl | rfl | rfl | rfl | rfl | rfl | rfl | rfl | rfl
  · cases hnull
  · cases hnull
  · rfl
  · cases hnull
  · cases hnull
  · cases hnull
  · rfl
  · rfl
  · rfl
  · cases hnull

theorem stored_of_built {k : Clock} {r : TemplateRecord} (h : ∀ n ∈ r.numbers, inInt64 n = true)
    {row : Record}
    (hrow : Built k .researchTemplate r.attrs row) : r.Stored row := by
  intro c hc
  have hvalue := (hrow c hc).symm.trans (initial_attrs k h c hc)
  exact Except.ok.inj hvalue

/-- **A record that comes through**: the importer accepts it and makes its row. -/
theorem accepted_of_comesThrough (k : Clock) {r : TemplateRecord} {written : List Cell}
    (hwritten : texts written = r.cells.map String.toList) (h : r.ComesThrough written) :
    accepted k (fieldsOf written) = some (.insert k .researchTemplate r.attrs) := by
  have hfields : fieldsOf written = r.cells.map fun s => joinLines s.toList := by
    rw [fieldsOf_texts, hwritten, List.map_map]
    rfl
  have hcolumn : ∀ i, column (fieldsOf written) i = r.cells[i]?.map joined := by
    intro i
    rw [column, hfields, List.getElem?_map, Option.map_map]
    rfl
  have hoption : ∀ x : Option ℤ, (∀ n ∈ x.toList, inInt64 n = true) →
      intOrNone (some (joined (x.elim "" toString))) = .ok (x.map fun n => .json (.int n)) := by
    intro x hx
    cases x with
    | none => exact intOrNone_empty
    | some n =>
      rw [Option.elim_some, joined_of_oneLine (decimal_oneLine n)]
      exact intOrNone_decimal (hx n (by simp))
  have hrequired : ∀ s ∈ [r.standardRequirement, r.requirementType, r.inspectionProject],
      stripped (some (joined s)) = .ok (strip s) := by
    intro s hs
    exact congrArg Except.ok (strip_joined (h.required s hs))
  have hcategory := h.numbers r.projectCategory (by simp [numbers])
  rw [accepted, unlessRaised_eq_some, templateRow_eq_ok]
  obtain ⟨h₀, h₁, h₂, h₃, h₄, h₅, h₆, h₇, h₈, h₉⟩ := dictRow_get (fieldsOf written)
  simp only [h₀, h₁, h₂, h₃, h₄, h₅, h₆, h₇, h₈, h₉, hcolumn]
  refine ⟨?_, .json (.int r.projectCategory), .json (.int r.projectLevel),
    r.systemName.map fun n => .json (.int n), r.clauseId.map fun n => .json (.int n),
    .json (.int (if r.enabled then 1 else 0)), strip r.standardRequirement, strip r.requirementType,
    strip r.inspectionProject, ?_, ?_, ?_, ?_, ?_, ?_, ?_, ?_, ?_, ?_⟩
  · intro hdescription
    have hread := pyInt_decimal hcategory
    have hcell : joined (toString r.projectCategory) = "项目类别ID(evaluation_type_id)" :=
      Option.some.inj hdescription
    rw [joined_of_oneLine (decimal_oneLine _)] at hcell
    have hnone : pyInt "项目类别ID(evaluation_type_id)" = none := by decide +kernel
    rw [hcell, hnone] at hread
    cases hread
  · exact hoption (some r.projectCategory) fun n hn => by
      rw [Option.toList_some, List.mem_singleton] at hn
      rw [hn]; exact hcategory
  · exact hoption (some r.projectLevel) fun n hn => by
      rw [Option.toList_some, List.mem_singleton] at hn
      rw [hn]; exact h.numbers _ (by simp [numbers])
  · exact hoption r.systemName fun n hn =>
      h.numbers n (by simp only [numbers, List.mem_append]; exact Or.inl (Or.inr hn))
  · exact hoption r.clauseId fun n hn =>
      h.numbers n (by simp only [numbers, List.mem_append]; exact Or.inr hn)
  · change intUnlessEmpty (some (joined (if r.enabled then "1" else "0"))) = _
    cases r.enabled <;> rfl
  · exact hrequired _ (by simp)
  · exact hrequired _ (by simp)
  · exact hrequired _ (by simp)
  · have hfilled := r.filled
    simp only [List.mem_cons, List.not_mem_nil, or_false, forall_eq_or_imp, forall_eq] at hfilled
    rintro (hblank | hblank | hblank)
    · exact hfilled.1 hblank
    · exact hfilled.2.1 hblank
    · exact hfilled.2.2 hblank
  · have hscreenshot := joined_of_oneLine (h.optional r.referenceScreenshot (by simp))
    have hremarks := joined_of_oneLine (h.optional r.remarks (by simp))
    have hattr : ∀ x : Option ℤ, ((x.map fun n => Attr.json (.int n)).getD (.json .null)) =
        .json (x.elim .null .int) := by
      intro x
      cases x <;> rfl
    simp only [attrs, hattr, cells]
    simp [textAttr, hscreenshot, hremarks]

/-- **A row that was made from some fields** and has the values of a record: the fields
    reach to the remarks, and the values could be stored. -/
theorem stored_of_accepted {k : Clock} {fields : CsvFields} {o : Op} {row : Record}
    {r : TemplateRecord}
    (haccepted : accepted k fields = some o) (hbuilt : Built k .researchTemplate o.attrs row)
    (hstored : r.Stored row)
    (hclean : ∀ field ∈ fields, OneLine field) :
    8 ≤ fields.length ∧ (∀ n ∈ r.numbers, inInt64 n = true) ∧
      (∀ s ∈ [r.standardRequirement, r.requirementType, r.inspectionProject],
        OneLine (strip s).toList) ∧
      ∀ s ∈ [r.referenceScreenshot, r.remarks], OneLine s.toList := by
  obtain ⟨-, category, level, system, clause, status, requirement, type, inspection, -, -, -, -, -,
    hrequirement, htype, hinspection, -, rfl⟩ :=
      templateRow_eq_ok.mp (unlessRaised_eq_some.mp haccepted)
  obtain ⟨-, -, -, h₃, h₄, h₅, h₆, h₇, -, -⟩ := dictRow_get fields
  rw [h₃] at hrequirement
  rw [h₄] at htype
  rw [h₅] at hinspection
  have hvalue : ∀ c ∈ Table.researchTemplate.columns, c.initial k _ = .ok (r.value c.field) :=
    fun c hc => (hbuilt c hc).trans (congrArg Except.ok (hstored c hc))
  have hcolumn : ∀ i s, column fields i = some s → OneLine s.toList := by
    intro i s hs
    obtain ⟨field, hfield, rfl⟩ := Option.map_eq_some_iff.mp hs
    rw [String.toList_ofList]
    exact hclean field (List.mem_of_getElem? hfield)
  have hstripped : ∀ i s, stripped (column fields i) = .ok s → OneLine s.toList := by
    intro i s hs
    cases hfield : column fields i with
    | none => rw [hfield] at hs; cases hs
    | some t =>
      rw [hfield] at hs
      cases hs
      rw [strip, String.toList_ofList]
      exact (hcolumn i t hfield).strip
  have htext : ∀ i s (c : Column), c.type = .string → c.default = none →
      (if (textAttr (column fields i)).isNone then .ok (c.absent k)
        else (textAttr (column fields i)).bind c.type) =
        (.ok (.text s) : Except Exn Value) → column fields i = some s := by
    intro i s c hty hdefault hs
    cases hfield : column fields i with
    | none =>
      rw [hfield] at hs
      simp [textAttr, Attr.isNone, Column.absent, hdefault] at hs
    | some t =>
      rw [hfield] at hs
      simpa [textAttr, Attr.isNone, Attr.bind, bindJson, hty] using hs
  have hnumber : ∀ c ∈ Table.researchTemplate.columns, c.type = .integer → ∀ n,
      r.value c.field = .int n →
      inInt64 n = true := by
    intro c hc hty n hn
    have hcanonical := Column.initial_canonical hc (hvalue c hc)
    rw [hty, hn] at hcanonical
    rcases hcanonical with hnull | hfits
    · cases hnull
    · exact hfits
  have hremarks : column fields 7 = some r.remarks := by
    have hinit := hvalue _ (List.mem_of_getElem? (i := 7) rfl)
    rw [h₇] at hinit
    exact htext 7 _ _ rfl rfl hinit
  have hscreenshot : column fields 6 = some r.referenceScreenshot := by
    have hinit := hvalue _ (List.mem_of_getElem? (i := 6) rfl)
    rw [h₆] at hinit
    exact htext 6 _ _ rfl rfl hinit
  have hrequirement' : requirement = strip r.standardRequirement :=
    Value.text.inj (Except.ok.inj (hvalue _ (List.mem_of_getElem? (i := 3) rfl)))
  have htype' : type = strip r.requirementType :=
    Value.text.inj (Except.ok.inj (hvalue _ (List.mem_of_getElem? (i := 4) rfl)))
  have hinspection' : inspection = strip r.inspectionProject :=
    Value.text.inj (Except.ok.inj (hvalue _ (List.mem_of_getElem? (i := 5) rfl)))
  refine ⟨?_, ?_, ?_, ?_⟩
  · obtain ⟨field, hfield, -⟩ := Option.map_eq_some_iff.mp hremarks
    exact (List.getElem?_eq_some_iff.mp hfield).1
  · intro n hn
    simp only [numbers, List.cons_append, List.nil_append, List.mem_cons, List.mem_append,
      Option.mem_toList] at hn
    rcases hn with rfl | rfl | hn | hn
    · exact hnumber _ (List.mem_of_getElem? (i := 0) rfl) rfl _ rfl
    · exact hnumber _ (List.mem_of_getElem? (i := 1) rfl) rfl _ rfl
    · exact hnumber _ (List.mem_of_getElem? (i := 2) rfl) rfl n
        (by simp [value, optional, required, Column.to, hn])
    · exact hnumber _ (List.mem_of_getElem? (i := 8) rfl) rfl n
        (by simp [value, optional, required, Column.to, hn])
  · intro s hs
    simp only [List.mem_cons, List.not_mem_nil, or_false] at hs
    rcases hs with rfl | rfl | rfl
    · exact hrequirement' ▸ hstripped 3 _ hrequirement
    · exact htype' ▸ hstripped 4 _ htype
    · exact hinspection' ▸ hstripped 5 _ hinspection
  · intro s hs
    simp only [List.mem_cons, List.not_mem_nil, or_false] at hs
    rcases hs with rfl | rfl
    · exact hcolumn 6 _ hscreenshot
    · exact hcolumn 7 _ hremarks

/-- A record with a line boundary outside quotes is broken before its remarks. -/
theorem widest_of_broken {r : TemplateRecord} {written : List Cell}
    (hwritten : texts written = r.cells.map String.toList)
    (hoptional : ∀ s ∈ [r.referenceScreenshot, r.remarks], OneLine s.toList)
    (hbroken : ¬ ∀ cell ∈ written, Intact cell) : widest 0 written ≤ 7 := by
  have hnumber : ∀ x : Option ℤ, OneLine (x.elim "" toString).toList := by
    intro x
    cases x with
    | none => exact fun c hc => (nomatch hc)
    | some n => exact decimal_oneLine n
  have henabled : OneLine (if r.enabled then "1" else "0").toList := by cases r.enabled <;> decide
  have hintact : ∀ {cell : Cell} {s : String}, cell.text = s.toList → OneLine s.toList →
      Intact cell :=
    fun htext h _ => htext ▸ h
  unfold texts cells at hwritten
  obtain ⟨c₁, written, rfl, h₁, hwritten⟩ := List.map_eq_cons_iff.mp hwritten
  obtain ⟨c₂, written, rfl, h₂, hwritten⟩ := List.map_eq_cons_iff.mp hwritten
  obtain ⟨c₃, written, rfl, h₃, hwritten⟩ := List.map_eq_cons_iff.mp hwritten
  obtain ⟨c₄, written, rfl, -, hwritten⟩ := List.map_eq_cons_iff.mp hwritten
  obtain ⟨c₅, written, rfl, -, hwritten⟩ := List.map_eq_cons_iff.mp hwritten
  obtain ⟨c₆, written, rfl, -, hwritten⟩ := List.map_eq_cons_iff.mp hwritten
  obtain ⟨c₇, written, rfl, h₇, hwritten⟩ := List.map_eq_cons_iff.mp hwritten
  obtain ⟨c₈, written, rfl, h₈, hwritten⟩ := List.map_eq_cons_iff.mp hwritten
  obtain ⟨c₉, written, rfl, h₉, hwritten⟩ := List.map_eq_cons_iff.mp hwritten
  obtain ⟨c₁₀, written, rfl, h₁₀, hwritten⟩ := List.map_eq_cons_iff.mp hwritten
  obtain rfl := List.map_eq_nil_iff.mp hwritten
  have i₁ := hintact h₁ (decimal_oneLine _)
  have i₂ := hintact h₂ (decimal_oneLine _)
  have i₃ := hintact h₃ (hnumber _)
  have i₇ := hintact h₇ (hoptional _ (by simp))
  have i₈ := hintact h₈ (hoptional _ (by simp))
  have i₉ := hintact h₉ (hnumber _)
  have i₁₀ := hintact h₁₀ henabled
  simp only [List.forall_mem_cons, i₁, i₂, i₃, i₇, i₈, i₉, i₁₀, true_and, List.not_mem_nil,
    false_imp_iff, implies_true, and_true] at hbroken
  simp only [widest, i₁, i₂, i₃, i₇, i₈, i₉, i₁₀, if_true]
  split_ifs <;> first | omega | tauto

end TemplateRecord

/-! ## Importing the file -/

/-- Lists of at most one entry that are as many as their entries. -/
theorem each_one {α β : Type} {f : α → List β} {xs : List α} (hf : ∀ x ∈ xs, (f x).length ≤ 1)
    (hlength : (xs.flatMap f).length = xs.length) : ∀ x ∈ xs, (f x).length = 1 := by
  have hbound : ∀ ys : List α,
      (∀ y ∈ ys, (f y).length ≤ 1) → (ys.flatMap f).length ≤ ys.length := by
    intro ys hys
    rw [List.length_flatMap]
    have hsum :=
      List.sum_le_card_nsmul (ys.map fun y => (f y).length) 1 (List.forall_mem_map.mpr hys)
    rwa [List.length_map, smul_eq_mul, mul_one] at hsum
  induction xs with
  | nil => exact fun x hx => (nomatch hx)
  | cons x xs ih =>
    have hx := hf x List.mem_cons_self
    have hrest := hbound xs fun y hy => hf y (List.mem_cons_of_mem _ hy)
    rw [List.flatMap_cons, List.length_append, List.length_cons] at hlength
    intro y hy
    rcases List.mem_cons.mp hy with rfl | hy
    · omega
    · exact ih (fun z hz => hf z (List.mem_cons_of_mem _ hz)) (by omega) y hy

/-- The rows the import makes of a record of the document. -/
def rowsOf (k : Clock) (written : List Cell) : List Op :=
  (recordRows written).1.filterMap (accepted k)

/-- The row of the descriptions is skipped. -/
theorem accepted_description (k : Clock) : accepted k (fieldsOf descriptionCells) = none := by
  have hcategory : column (fieldsOf descriptionCells) 0 = some "项目类别ID(evaluation_type_id)" := by
    decide +kernel
  have hskipped : templateRow k (dictRow templateFields (fieldsOf descriptionCells)) =
      .ok none := by
    unfold templateRow
    rw [(dictRow_get _).1, hcategory]
    rfl
  rw [accepted, hskipped]
  rfl

/-- **The import of the file.** -/
theorem run_templateFile (k : Clock) {file : Upload} (hname : endsWith file.filename ".csv" = true)
    {e e' : LineEnd}
    {doc : Document} (hfile : file.csv = .ok (dictReader (splitLines (templateFile e e' doc))))
    (hne : ∀ written ∈ doc.records, written ≠ []) (db : DB) :
    (run (importResearchTemplates k (some file)) db).2 =
      imported db (finish (readRecords doc.records)).2
        (applyAll applyOp (doc.records.flatMap (rowsOf k)) db) := by
  rw [read_templateFile e e' hne] at hfile
  rw [run_importCsv k hname hfile]
  rcases hread : readRecords doc.records with ⟨rows, e | s⟩
  · rfl
  · obtain ⟨rfl, rfl, -⟩ := readRecords_eq_ok hne hread
    have hops : csvOps (templateRow k) ((fieldsOf descriptionCells ::
        doc.records.flatMap fun cells => (recordRows cells).1).map (dictRow templateFields)) =
        doc.records.flatMap (rowsOf k) := by
      have hmap : ∀ rows : List CsvFields, csvOps (templateRow k)
          (rows.map (dictRow templateFields)) = rows.filterMap (accepted k) := by
        intro rows
        rw [csvOps, List.filterMap_map]
        rfl
      rw [hmap, List.filterMap_cons, accepted_description, List.filterMap_flatMap]
      rfl
    have hfinish : finish (doc.records.flatMap (fun cells => (recordRows cells).1),
        .ok Reader.start) =
        (doc.records.flatMap (fun cells => (recordRows cells).1), none) := by
      simp [finish, Reader.start]
    simp only [hfinish, hops]

/-- What the import of a list of records is to do: a row for each of them, in their order,
    with their values, and nothing else. -/
def ImportedAs (records : List TemplateRecord) (db db' : DB) : Prop :=
  ∃ new, db' .researchTemplate = db .researchTemplate ++ new ∧
    List.Forall₂ TemplateRecord.Stored records new ∧
    ∀ t, t ≠ .researchTemplate → db' t = db t

/-- Pairs of the same record. -/
theorem forall₂_written {records : List TemplateRecord} {doc : Document}
    (hdoc : doc.records.map texts = records.map fun r => r.cells.map String.toList) :
    List.Forall₂ (fun (r : TemplateRecord) written => texts written = r.cells.map String.toList)
      records doc.records := by
  have hsame : List.Forall₂ Eq (doc.records.map texts)
      (records.map fun r => r.cells.map String.toList) := by
    rw [List.forall₂_eq_eq_eq]
    exact hdoc
  rw [List.forall₂_map_left_iff, List.forall₂_map_right_iff] at hsame
  exact hsame.flip

theorem written_length {r : TemplateRecord} {written : List Cell}
    (hwritten : texts written = r.cells.map String.toList) : written.length = 10 := by
  have hlength := congrArg List.length hwritten
  rw [texts, List.length_map, List.length_map] at hlength
  exact hlength

/-- A record that comes through is one row. -/
theorem rowsOf_comesThrough (k : Clock) {r : TemplateRecord} {written : List Cell}
    (hwritten : texts written = r.cells.map String.toList) (h : r.ComesThrough written) :
    recordRows written = ([fieldsOf written], .ok .start) ∧
      rowsOf k written = [.insert k .researchTemplate r.attrs] := by
  have hlength := written_length hwritten
  have hrows := recordRows_intact (by omega) h.intact
  rw [if_pos h.fits] at hrows
  refine ⟨hrows, ?_⟩
  rw [rowsOf, hrows, List.filterMap_cons, r.accepted_of_comesThrough k hwritten h]
  rfl

theorem rowsOf_all (k : Clock) {records : List TemplateRecord} {written : List (List Cell)}
    (htexts : List.Forall₂ (fun (r : TemplateRecord) cells =>
      texts cells = r.cells.map String.toList) records written)
    (h : List.Forall₂ TemplateRecord.ComesThrough records written) :
    (readRecords written).2 = .ok .start ∧
      written.flatMap (rowsOf k) =
        (records.map TemplateRecord.attrs).map (.insert k .researchTemplate) := by
  induction h with
  | nil => exact ⟨rfl, rfl⟩
  | cons hcomes hrest ih =>
    cases htexts with
    | cons hwritten htexts =>
      obtain ⟨hrows, hops⟩ := rowsOf_comesThrough k hwritten hcomes
      obtain ⟨ihread, ihops⟩ := ih htexts
      constructor
      · rw [readRecords, hrows]
        exact ihread
      · rw [List.flatMap_cons, hops, ihops]
        rfl

/-- Records that come through are imported. -/
theorem importedAs_of_comesThrough (k : Clock) {db : DB} {records : List TemplateRecord}
    {written : List (List Cell)}
    (htexts : List.Forall₂ (fun (r : TemplateRecord) cells =>
      texts cells = r.cells.map String.toList) records written)
    (h : List.Forall₂ TemplateRecord.ComesThrough records written)
    (hkeys : records ≠ [] → nextId (db .researchTemplate) + records.length ≤ 2 ^ 63) :
    ImportedAs records db
      (imported db (finish (readRecords written)).2
        (applyAll applyOp (written.flatMap (rowsOf k)) db)) := by
  obtain ⟨hread, hops⟩ := rowsOf_all k htexts h
  have hnumbers : ∀ r ∈ records, ∀ n ∈ r.numbers, inInt64 n = true :=
    ((List.forall₂_and_left _ _).mp (h.imp fun r cells hcomes => ⟨hcomes.numbers, hcomes⟩)).1
  have hsucceeds : ∃ db', applyAll applyOp
      ((records.map TemplateRecord.attrs).map (.insert k .researchTemplate)) db = .ok db' := by
    rw [insertAll_succeeds (by decide)]
    refine ⟨fun attrs hattrs c hc => ?_, fun hne => ?_⟩
    · obtain ⟨r, hr, rfl⟩ := List.mem_map.mp hattrs
      exact ⟨_, r.initial_attrs k (hnumbers r hr) c hc, r.value_null c hc⟩
    · rw [List.length_map]
      exact hkeys fun hnil => hne (by rw [hnil]; rfl)
  obtain ⟨db', hall⟩ := hsucceeds
  obtain ⟨new, hnew, hbuilt, hother⟩ := insertAll_new hall
  have hfinish : (finish (readRecords written)).2 = none := by
    rcases hrows : readRecords written with ⟨rows, x⟩
    rw [hrows] at hread
    rw [show x = .ok .start from hread]
    rfl
  rw [hfinish, hops, hall]
  refine ⟨new, hnew, ?_, hother⟩
  rw [List.forall₂_map_left_iff] at hbuilt
  have hboth := (List.forall₂_and_left _ _).mpr ⟨hnumbers, hbuilt⟩
  exact hboth.imp fun r row hrow => r.stored_of_built hrow.1 hrow.2

/-- What an import of the records tells about the rows that were made: each was made for
    a record, whose values it has. -/
theorem paired_of_importedAs {k : Clock} {db db' : DB} {records : List TemplateRecord}
    {ops : List Op}
    (hops : ∀ o ∈ ops, ∃ attrs, o = .insert k .researchTemplate attrs)
    (hall : applyAll applyOp ops db = .ok db')
    (h : ImportedAs records db db') :
    List.Forall₂ (fun o (r : TemplateRecord) => ∃ row, Built k .researchTemplate o.attrs row ∧
      r.Stored row) ops
      records := by
  obtain ⟨new, hnew, hstored, -⟩ := h
  rw [eq_map_insert hops] at hall
  obtain ⟨new', hnew', hbuilt, -⟩ := insertAll_new hall
  obtain rfl : new' = new := List.append_cancel_left (hnew'.symm.trans hnew)
  rw [List.forall₂_map_left_iff] at hbuilt
  clear hnew hnew' hall hops
  induction hbuilt generalizing records with
  | nil => cases hstored; exact List.Forall₂.nil
  | cons hrow _ ih =>
    cases hstored with
    | cons hvalue hstored => exact List.Forall₂.cons ⟨_, hrow, hvalue⟩ (ih hstored)

theorem rowsOf_insert (k : Clock) (written : List (List Cell)) :
    ∀ o ∈ written.flatMap (rowsOf k), ∃ attrs, o = .insert k .researchTemplate attrs := by
  intro o ho
  obtain ⟨cells, -, ho⟩ := List.mem_flatMap.mp ho
  obtain ⟨fields, -, ho⟩ := List.mem_filterMap.mp ho
  obtain ⟨_, _, _, _, attrs, -, -, -, -, rfl, -⟩ := templateRow_insert (unlessRaised_eq_some.mp ho)
  exact ⟨attrs, rfl⟩

/-- The fields of the rows of a record have no line boundary. -/
theorem recordRows_clean (written : List Cell) : ∀ fields ∈ (recordRows written).1,
    ∀ field ∈ fields, OneLine field := by
  refine (feed_clean (fun c hc => ?_) start_clean).1
  rcases List.mem_append.mp hc with hc | hc
  · obtain ⟨d, -, hd⟩ := List.mem_map.mp hc
    unfold mark at hd
    split_ifs at hd with hbreak
    cases hd
    simpa using hbreak
  · simp at hc

/-- Records that are imported come through. -/
theorem comesThrough_of_importedAs {k : Clock} {db db' : DB} {records : List TemplateRecord}
    {written : List (List Cell)}
    (htexts : List.Forall₂ (fun (r : TemplateRecord) cells =>
      texts cells = r.cells.map String.toList) records written)
    (hread : ∀ cells ∈ written, (recordRows cells).2 = .ok .start)
    (hall : applyAll applyOp (written.flatMap (rowsOf k)) db = .ok db')
    (h : ImportedAs records db db') :
    List.Forall₂ TemplateRecord.ComesThrough records written := by
  have hpairs := paired_of_importedAs (rowsOf_insert k written) hall h
  have hmade : ∀ o ∈ written.flatMap (rowsOf k), ∃ cells ∈ written, ∃ fields ∈ (recordRows cells).1,
      accepted k fields = some o := by
    intro o ho
    obtain ⟨cells, hcells, ho⟩ := List.mem_flatMap.mp ho
    obtain ⟨fields, hfields, ho⟩ := List.mem_filterMap.mp ho
    exact ⟨cells, hcells, fields, hfields, ho⟩
  have hvalues : ∀ r ∈ records, (∀ n ∈ r.numbers, inInt64 n = true) ∧
      (∀ s ∈ [r.standardRequirement, r.requirementType, r.inspectionProject],
        OneLine (strip s).toList) ∧
      ∀ s ∈ [r.referenceScreenshot, r.remarks], OneLine s.toList := by
    intro r hr
    obtain ⟨o, ho, row, hbuilt, hstored⟩ := exists_of_forall₂ hpairs.flip r hr
    obtain ⟨cells, -, fields, hfields, haccepted⟩ := hmade o ho
    exact (r.stored_of_accepted haccepted hbuilt hstored (recordRows_clean cells fields hfields)).2
  -- a row that stops before the remarks was not made for any record
  have hlong : ∀ cells ∈ written, ∀ fields ∈ (recordRows cells).1,
      fields.length ≤ 7 → accepted k fields = none := by
    intro cells hcells fields hfields hshort
    by_contra hsome
    obtain ⟨o, ho⟩ := Option.ne_none_iff_exists'.mp hsome
    have hmem : o ∈ written.flatMap (rowsOf k) :=
      List.mem_flatMap.mpr ⟨cells, hcells, List.mem_filterMap.mpr ⟨fields, hfields, ho⟩⟩
    obtain ⟨r, -, row, hbuilt, hstored⟩ := exists_of_forall₂ hpairs o hmem
    have hle := (r.stored_of_accepted ho hbuilt hstored (recordRows_clean cells fields hfields)).1
    omega
  have hbroken : ∀ cells ∈ written, (¬ ∀ cell ∈ cells, Intact cell) → rowsOf k cells = [] := by
    intro cells hcells hbroken
    obtain ⟨r, hr, hwritten⟩ := exists_of_forall₂ htexts.flip cells hcells
    have hne : cells ≠ [] := List.ne_nil_of_length_pos (by rw [written_length hwritten]; norm_num)
    have hwidest := r.widest_of_broken hwritten (hvalues r hr).2.2 hbroken
    have hrows : recordRows cells = ((recordRows cells).1, .ok .start) :=
      Prod.ext rfl (hread cells hcells)
    have hwidths := (recordRows_widths hne hrows).2
    exact List.filterMap_eq_nil_iff.mpr fun fields hfields =>
      hlong cells hcells fields hfields ((hwidths fields hfields).trans hwidest)
  have hintact : ∀ cells ∈ written, ∀ cell ∈ cells, Intact cell := by
    have hlength : (written.flatMap (rowsOf k)).length = written.length := by
      rw [hpairs.length_eq, htexts.length_eq]
    have hle : ∀ cells ∈ written, (rowsOf k cells).length ≤ 1 := by
      intro cells hcells
      by_cases hnot : ∀ cell ∈ cells, Intact cell
      · obtain ⟨r, -, hwritten⟩ := exists_of_forall₂ htexts.flip cells hcells
        have hrows := recordRows_intact (by rw [written_length hwritten]; norm_num) hnot
        refine (List.length_filterMap_le _ _).trans ?_
        rw [hrows]
        split_ifs <;> simp
      · rw [hbroken cells hcells hnot]
        exact Nat.zero_le _
    intro cells hcells
    by_contra hnot
    have hlen := each_one hle hlength cells hcells
    rw [hbroken cells hcells hnot] at hlen
    cases hlen
  have hfits : ∀ cells ∈ written, ∀ cell ∈ cells, Fits cell := by
    intro cells hcells
    by_contra hnot
    obtain ⟨r, -, hwritten⟩ := exists_of_forall₂ htexts.flip cells hcells
    have hrows :=
      recordRows_intact (by rw [written_length hwritten]; norm_num) (hintact cells hcells)
    have hok := hread cells hcells
    rw [hrows, if_neg hnot] at hok
    cases hok
  refine List.forall₂_iff_zip.mpr ⟨htexts.length_eq, fun hmem => ?_⟩
  obtain ⟨hr, hcells⟩ := List.of_mem_zip hmem
  obtain ⟨hnumbers, hrequired, hoptional⟩ := hvalues _ hr
  exact ⟨hnumbers, hrequired, hoptional, hintact _ hcells, hfits _ hcells⟩

/-- **Templates in CSV files.** The import of the RFC 4180 encoding of a list of records
    adds their rows exactly when every record comes through and the keys suffice. -/
theorem template_csv_iff (k : Clock) (db : DB) (records : List TemplateRecord) (file : Upload)
    (e e' : LineEnd)
    (doc : Document) (hname : endsWith file.filename ".csv" = true)
    (hfile : file.csv = .ok (dictReader (splitLines (templateFile e e' doc))))
    (hdoc : doc.records.map texts = records.map fun r => r.cells.map String.toList) :
    ImportedAs records db (run (importResearchTemplates k (some file)) db).2 ↔
      List.Forall₂ TemplateRecord.ComesThrough records doc.records ∧
        (records ≠ [] → nextId (db .researchTemplate) + records.length ≤ 2 ^ 63) := by
  have htexts := forall₂_written hdoc
  have hne : ∀ written ∈ doc.records, written ≠ [] := by
    intro written hmem
    obtain ⟨r, -, hwritten⟩ := exists_of_forall₂ htexts.flip written hmem
    exact List.ne_nil_of_length_pos (by rw [written_length hwritten]; norm_num)
  rw [run_templateFile k hname hfile hne]
  constructor
  · intro h
    have hnothing : ImportedAs records db db →
        List.Forall₂ TemplateRecord.ComesThrough records doc.records ∧
        (records ≠ [] → nextId (db .researchTemplate) + records.length ≤ 2 ^ 63) := by
      rintro ⟨new, hnew, hstored, -⟩
      obtain rfl : new = [] := List.append_right_eq_self.mp hnew.symm
      cases hstored
      rw [List.forall₂_nil_left_iff] at htexts
      rw [htexts]
      exact ⟨List.Forall₂.nil, fun hnil => absurd rfl hnil⟩
    rcases hread : readRecords doc.records with ⟨rows, e | s⟩
    · rw [hread] at h
      exact hnothing h
    · obtain ⟨rfl, -, hrows⟩ := readRecords_eq_ok hne hread
      have hfinish : (finish (rows, .ok Reader.start)).2 = none := rfl
      rw [hread, hfinish] at h
      cases hall : applyAll applyOp (doc.records.flatMap (rowsOf k)) db with
      | error e =>
        rw [hall] at h
        exact hnothing h
      | ok db' =>
        rw [hall] at h
        have hcomes := comesThrough_of_importedAs htexts hrows hall h
        refine ⟨hcomes, fun hnil => ?_⟩
        rw [(rowsOf_all k htexts hcomes).2] at hall
        have hkeys := ((insertAll_succeeds (by decide)).mp ⟨db', hall⟩).2
        rw [List.length_map] at hkeys
        exact hkeys (by simpa using hnil)
  · rintro ⟨hcomes, hkeys⟩
    exact importedAs_of_comesThrough k htexts hcomes hkeys

/-- A file with some text. -/
def csvFile (text : List Char) : Upload where
  filename := "templates.csv"
  json := .decodeError
  csv := .ok (dictReader (splitLines text))

/-- A template whose requirement is written in two lines. -/
def twoLines : TemplateRecord where
  projectCategory := 1
  projectLevel := 2
  systemName := none
  standardRequirement := "甲\n乙"
  requirementType := "功能要求"
  inspectionProject := "丙"
  referenceScreenshot := ""
  remarks := "丁,戊"
  clauseId := some 3
  enabled := true
  filled := by decide

/-- A document of one record. -/
def documentOf (r : TemplateRecord) : Document where
  lines := [(r.cells.map fun s => Cell.ofText s.toList, .lf)]
  last := none

/-- A requirement in two lines comes out in one. -/
theorem template_csv_line_break :
    (documentOf twoLines).records.map texts = [twoLines].map (fun r => r.cells.map String.toList) ∧
      ¬ ImportedAs [twoLines] (fun _ => [])
        (run (importResearchTemplates .epoch
          (some (csvFile (templateFile .lf .lf (documentOf twoLines))))) fun _ =>
          []).2 := by
  refine ⟨by decide, ?_⟩
  have hrows : ((run (importResearchTemplates .epoch
      (some (csvFile (templateFile .lf .lf (documentOf twoLines))))) fun _ => []).2
        .researchTemplate).map
        (fun row => row.cell .standardRequirement) = [.text "甲乙"] := by decide +kernel
  rintro ⟨new, hnew, hstored, -⟩
  rw [hnew] at hrows
  cases hstored with
  | cons hrow hrest =>
    cases hrest
    have hcell := hrow _ (List.mem_of_getElem? (i := 3) rfl)
    simp only [List.nil_append, List.map_cons, List.map_nil, List.cons.injEq, and_true] at hrows
    exact absurd (hrows.symm.trans hcell) (by decide)

/-- A template with a comma in its remarks. -/
def oneLine : TemplateRecord := { twoLines with standardRequirement := "甲乙", filled := by decide }

theorem oneLine_comesThrough :
    oneLine.ComesThrough (oneLine.cells.map fun s => Cell.ofText s.toList) where
  numbers := by decide
  required := by decide +kernel
  optional := by decide +kernel
  intact := by decide +kernel
  fits := by decide +kernel

/-- The import of it keeps its values. -/
theorem template_csv_comma :
    ImportedAs [oneLine] (fun _ => [])
      (run (importResearchTemplates .epoch
        (some (csvFile (templateFile .lf .lf (documentOf oneLine))))) fun _ => []).2 :=
  (template_csv_iff .epoch (fun _ => []) [oneLine]
    (csvFile (templateFile .lf .lf (documentOf oneLine))) .lf .lf (documentOf oneLine)
      (by decide) rfl
    (by decide)).mpr ⟨.cons oneLine_comesThrough .nil, fun _ => by decide⟩

end ProjectEvaluation.Backend
