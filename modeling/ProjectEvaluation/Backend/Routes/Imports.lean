import ProjectEvaluation.Backend.Handlers

/-!
# `routes.py`: the imports

The two import handlers catch every exception, the one of a single row as well
as the one of the commit. An uploaded file is given by what `json.load` and
`csv.DictReader` make of it.

Results:
* `importSystemDictionaries_cases`, `importResearchTemplates_cases`: the runs of
  the imports.
-/

namespace ProjectEvaluation.Backend

open Python Relational Transaction

/-! ## Uploaded files -/

/-- A record of `csv.DictReader`; the value of a field is `None` where the line is
    too short. -/
abbrev CsvRow := List (Field × Option String)

/-- `row.get(f, default)`. -/
def CsvRow.get (row : CsvRow) (f : Field) (default : Option String) : Option String :=
  (row.lookup f).getD default

/-- What `json.load` does with a file. -/
inductive Loaded
  | value (j : Json)
  | decodeError
  | raises (e : Exn)

/-- An uploaded file: its name, what `json.load` makes of it, and the records of its
    lines, with the exception that ends them if there is one; decoding it may fail
    before the first record. -/
structure Upload where
  filename : String
  json : Loaded
  csv : Except Exn (List CsvRow × Option Exn)

/-! ## Rows -/

/-- The truth value of a text or `None`. -/
def present (s : Option String) : Bool := s.isSome && s != some ""

/-- A text or `None` as an attribute. -/
def textAttr (s : Option String) : Attr := .json (s.elim .null .str)

/-- `int(s)`. -/
def intAttr (s : String) : Except Exn Attr :=
  (pyInt s).elim (.error .valueError) fun n => .ok (.json (.int n))

/-- `if s: s = int(s)` (`routes.py`, lines 1441–1442 and 1791–1792). -/
def intUnlessEmpty (s : Option String) : Except Exn Attr :=
  if present s then intAttr (s.getD "") else .ok (textAttr s)

/-- `s.strip()`. -/
def stripped : Option String → Except Exn String
  | some s => .ok (strip s)
  | none => .error .attributeError

/-- A record of a dictionary import as a new row (`routes.py`, lines 1429–1458); `none` where it is
    skipped. -/
def dictionaryRow (k : Clock) (row : CsvRow) : Except Exn (Option Op) := do
  let systemName := row.get .systemName none
  let remarks := row.get .remarks (some "")
  if systemName = some "系统名称" then return none
  let enabledStatus ← intUnlessEmpty (row.get .enabledStatus (some "1"))
  let name := strip (systemName.getD "")
  if name = "" then return none
  return some (.insert k .systemDictionary
    [(.systemName, .json (.str name)), (.remarks, .json (.str (strip (remarks.getD "")))),
     (.enabledStatus, enabledStatus)])

/-- `if s and s.strip(): int(s.strip())`, and `None` otherwise (`routes.py`, lines 1781–1789). -/
def intOrNone (s : Option String) : Except Exn (Option Attr) :=
  let text := strip (s.getD "")
  if text = "" then .ok none else (intAttr text).map some

/-- A record of a template import as a new row (`routes.py`, lines 1755–1819); `none` where it is
    skipped. -/
def templateRow (k : Clock) (row : CsvRow) : Except Exn (Option Op) := do
  let projectCategory := row.get .projectCategory none
  if projectCategory = some "项目类别ID(evaluation_type_id)" then return none
  let some projectCategory ← intOrNone projectCategory | return none
  let some projectLevel ← intOrNone (row.get .projectLevel none) | return none
  let systemName ← intOrNone (row.get .systemName none)
  let clauseId ← intOrNone (row.get .clauseId none)
  let enabledStatus ← intUnlessEmpty (row.get .enabledStatus (some "1"))
  let standardRequirement ← stripped (row.get .standardRequirement (some ""))
  let requirementType ← stripped (row.get .requirementType (some "功能要求"))
  let inspectionProject ← stripped (row.get .inspectionProject (some ""))
  if standardRequirement = "" ∨ requirementType = "" ∨ inspectionProject = "" then return none
  return some (.insert k .researchTemplate
    [(.projectCategory, projectCategory), (.projectLevel, projectLevel),
     (.systemName, systemName.getD (.json .null)),
     (.standardRequirement, .json (.str standardRequirement)),
     (.requirementType, .json (.str requirementType)),
     (.inspectionProject, .json (.str inspectionProject)),
     (.referenceScreenshot, textAttr (row.get .referenceScreenshot (some ""))),
     (.remarks, textAttr (row.get .remarks (some ""))),
     (.clauseId, clauseId.getD (.json .null)), (.enabledStatus, enabledStatus)])

/-- The constructor arguments of the JSON import (`routes.py`, lines 1705–1714). -/
def importSources : List Source :=
  [.get .projectCategory .null, .get .projectLevel .null, .get .systemName .null,
   .get .standardRequirement (.str ""), .get .requirementType (.str "功能要求"),
   .get .inspectionProject (.str ""), .get .referenceScreenshot (.str ""), .get .remarks (.str ""),
   .get .clauseId .null, .get .enabledStatus (.int 1)]

/-- The row of an item of the JSON import (`routes.py`, lines 1704–1715 and 1724–1735). -/
def templateItem (k : Clock) (item : Json) : Except Exn Op :=
  (construct item importSources).map (.insert k .researchTemplate)

/-- `try: … except Exception: continue` (`routes.py`, lines 1703–1719): an item that raises is
    passed over. -/
def unlessRaised (x : Except Exn (Option Op)) : Option Op := x.toOption.join

/-! ## The handlers -/

/-- The message of an import that counts its rows (`routes.py`, lines 1466 and 1827). -/
def importedMessage (imported skipped : ℕ) : String :=
  "成功导入 " ++ toString imported ++ " 条数据，跳过 " ++ toString skipped ++ " 条数据"

/-- The answer to an import that counts its rows. -/
def importedAnswer (imported skipped : ℕ) : Response :=
  { status := 200, body := done (importedMessage imported skipped) }

/-- The loop over the records of a CSV file (`routes.py`, lines 1428–1458 and 1754–1819): a record
    is added, skipped, or raises and is skipped, and is counted. -/
def importRows (rowOp : CsvRow → Except Exn (Option Op)) :
    List CsvRow → ℕ → ℕ → Txn DB Op Exn (ℕ × ℕ)
  | [], imported, skipped => pure (imported, skipped)
  | row :: rows, imported, skipped =>
    match rowOp row with
    | .ok (some o) => do
      stage o
      importRows rowOp rows (imported + 1) skipped
    | .ok none => importRows rowOp rows imported (skipped + 1)
    | .error _ => importRows rowOp rows imported (skipped + 1)

/-- The CSV part of both imports (`routes.py`, lines 1416–1468 and 1742–1829): every record is
    tried, then everything is committed at once. -/
def importCsv (rowOp : CsvRow → Except Exn (Option Op)) (file : Upload) : Handler :=
  catching
    (do
      let (rows, failed) ← ofResult file.csv
      catching
        (do
          let (imported, skipped) ← importRows rowOp rows 0 0
          ofResult (failed.elim (.ok ()) .error)
          commit applyOp
          pure (importedAnswer imported skipped))
        (fun e => do
          rollback
          pure (refuse 500 ("数据库操作失败: " ++ e.str))))
    (fun e => pure (refuse 400 ("CSV文件格式错误: " ++ e.str)))

/-- `POST /api/system-dictionaries/import` (`routes.py`, lines 1397–1470). -/
def importSystemDictionaries (k : Clock) (file : Option Upload) : Handler :=
  catching
    (match file with
    | none => pure (refuse 400 "请上传文件")
    | some file =>
      if file.filename = "" then pure (refuse 400 "请选择文件")
      else if endsWith file.filename ".csv" then importCsv (dictionaryRow k) file
      else pure (refuse 400 "只支持CSV文件"))
    (fun e => pure (refuse 500 ("导入失败: " ++ e.str)))

/-- The loop over the items of a JSON list (`routes.py`, lines 1702–1719): an item is added and
    counted, or raises. -/
def importItems (k : Clock) : List Json → ℕ → Txn DB Op Exn ℕ
  | [], imported => pure imported
  | item :: items, imported =>
    match templateItem k item with
    | .ok o => do
      stage o
      importItems k items (imported + 1)
    | .error _ => importItems k items imported

/-- The answer to an import of a JSON list (`routes.py`, lines 1720–1721). -/
def itemsAnswer (imported : ℕ) : Response :=
  { status := 200, body := done ("成功导入 " ++ toString imported ++ " 条数据") }

/-- The JSON part of the template import (`routes.py`, lines 1692–1738): a list is imported item by
    item, anything else as one template. -/
def importJson (k : Clock) (file : Upload) : Handler :=
  match file.json with
  | .decodeError => pure (refuse 400 "JSON文件格式错误")
  | .raises e => throw e
  | .value (.list items) => do
    let imported ← importItems k items 0
    commit applyOp
    pure (itemsAnswer imported)
  | .value data => do
    stage (← ofResult (templateItem k data))
    commit applyOp
    pure { status := 200, body := done "数据导入成功" }

/-- `POST /api/research-templates/import` (`routes.py`, lines 1676–1834). -/
def importResearchTemplates (k : Clock) (file : Option Upload) : Handler :=
  catching
    (match file with
    | none => pure (refuse 400 "请上传文件")
    | some file =>
      if file.filename = "" then pure (refuse 400 "请选择文件")
      else if endsWith file.filename ".json" then importJson k file
      else if endsWith file.filename ".csv" then importCsv (templateRow k) file
      else pure (refuse 400 "只支持JSON和CSV文件"))
    (fun e => pure (refuse 500 ("导入失败: " ++ e.str)))

/-! ## What the imports do -/

/-- The rows of a CSV import. -/
def csvOps (rowOp : CsvRow → Except Exn (Option Op)) (rows : List CsvRow) : List Op :=
  rows.filterMap fun row => unlessRaised (rowOp row)

/-- The rows of a JSON import. -/
def jsonOps (k : Clock) : Json → List Op
  | .list items => items.filterMap fun item => unlessRaised ((templateItem k item).map some)
  | data => (templateItem k data).toOption.toList

/-- The items of a JSON import. -/
def importedItems : Json → List Json
  | .list items => items
  | data => [data]

theorem jsonOps_eq (k : Clock) (data : Json) :
    jsonOps k data = (importedItems data).filterMap fun item =>
      unlessRaised ((templateItem k item).map some) := by
  have hsingle : ∀ item, (templateItem k item).toOption.toList =
      [item].filterMap fun item => unlessRaised ((templateItem k item).map some) := by
    intro item
    rw [List.filterMap_cons, List.filterMap_nil]
    cases templateItem k item <;> rfl
  cases data with
  | list items => rfl
  | null => exact hsingle .null
  | bool b => exact hsingle (.bool b)
  | int n => exact hsingle (.int n)
  | float x => exact hsingle (.float x)
  | str s => exact hsingle (.str s)
  | dict entries => exact hsingle (.dict entries)

/-- **A record of a dictionary import** that is not skipped: it is not the row of the descriptions,
    its status is a number or empty, and its name is not blank. -/
theorem dictionaryRow_eq_ok {k : Clock} {row : CsvRow} {o : Op} :
    dictionaryRow k row = .ok (some o) ↔
      row.get .systemName none ≠ some "系统名称" ∧
      ∃ status, intUnlessEmpty (row.get .enabledStatus (some "1")) = .ok status ∧
        strip ((row.get .systemName none).getD "") ≠ "" ∧
        o = .insert k .systemDictionary
          [(.systemName, .json (.str (strip ((row.get .systemName none).getD "")))),
           (.remarks, .json (.str (strip ((row.get .remarks (some "")).getD "")))),
           (.enabledStatus, status)] := by
  constructor
  · intro h
    simp only [dictionaryRow] at h
    split_ifs at h with hdescription hblank
    · cases h
    · obtain ⟨status, -, h⟩ := do_eq_ok.mp h
      cases h
    · obtain ⟨status, hstatus, h⟩ := do_eq_ok.mp h
      cases h
      exact ⟨hdescription, status, hstatus, hblank, rfl⟩
  · rintro ⟨hdescription, status, hstatus, hblank, rfl⟩
    simp only [dictionaryRow, if_neg hdescription, hstatus]
    exact if_neg hblank

/-- A record of a dictionary import that is not skipped. -/
theorem dictionaryRow_insert {k : Clock} {row : CsvRow} {o : Op}
    (h : dictionaryRow k row = .ok (some o)) :
    ∃ attrs, o = .insert k .systemDictionary attrs := by
  obtain ⟨-, _, -, -, ho⟩ := dictionaryRow_eq_ok.mp h
  exact ⟨_, ho⟩

/-- **A record of a template import** that is not skipped: it is not the row of the
    descriptions, its numbers are numbers, and the required texts are not blank. -/
theorem templateRow_eq_ok {k : Clock} {row : CsvRow} {o : Op} :
    templateRow k row = .ok (some o) ↔
      row.get .projectCategory none ≠ some "项目类别ID(evaluation_type_id)" ∧
      ∃ category level system clause status requirement type inspection,
        intOrNone (row.get .projectCategory none) = .ok (some category) ∧
        intOrNone (row.get .projectLevel none) = .ok (some level) ∧
        intOrNone (row.get .systemName none) = .ok system ∧
          intOrNone (row.get .clauseId none) = .ok clause ∧
        intUnlessEmpty (row.get .enabledStatus (some "1")) = .ok status ∧
        stripped (row.get .standardRequirement (some "")) = .ok requirement ∧
        stripped (row.get .requirementType (some "功能要求")) = .ok type ∧
        stripped (row.get .inspectionProject (some "")) = .ok inspection ∧
        ¬(requirement = "" ∨ type = "" ∨ inspection = "") ∧
        o = .insert k .researchTemplate
          [(.projectCategory, category), (.projectLevel, level),
           (.systemName, system.getD (.json .null)),
           (.standardRequirement, .json (.str requirement)), (.requirementType, .json (.str type)),
           (.inspectionProject, .json (.str inspection)),
           (.referenceScreenshot, textAttr (row.get .referenceScreenshot (some ""))),
           (.remarks, textAttr (row.get .remarks (some ""))),
           (.clauseId, clause.getD (.json .null)), (.enabledStatus, status)] := by
  constructor
  · intro h
    simp only [templateRow] at h
    split_ifs at h with hdescription
    · cases h
    obtain ⟨category, hcategory, h⟩ := do_eq_ok.mp h
    split at h
    swap
    · cases h
    obtain ⟨level, hlevel, h⟩ := do_eq_ok.mp h
    split at h
    swap
    · cases h
    obtain ⟨system, hsystem, h⟩ := do_eq_ok.mp h
    obtain ⟨clause, hclause, h⟩ := do_eq_ok.mp h
    obtain ⟨status, hstatus, h⟩ := do_eq_ok.mp h
    obtain ⟨requirement, hrequirement, h⟩ := do_eq_ok.mp h
    obtain ⟨type, htype, h⟩ := do_eq_ok.mp h
    obtain ⟨inspection, hinspection, h⟩ := do_eq_ok.mp h
    split_ifs at h with hblank
    · cases h
    cases h
    exact ⟨hdescription, _, _, system, clause, status, requirement, type, inspection, hcategory,
      hlevel, hsystem, hclause, hstatus, hrequirement, htype, hinspection, hblank, rfl⟩
  · rintro ⟨hdescription, category, level, system, clause, status, requirement, type, inspection,
      hcategory, hlevel, hsystem, hclause, hstatus, hrequirement, htype, hinspection, hblank, rfl⟩
    simp only [templateRow, if_neg hdescription, hcategory, hlevel, hsystem, hclause, hstatus,
      hrequirement, htype, hinspection]
    exact if_neg hblank

/-- The foreign keys of a record of a template import that is not skipped. -/
theorem templateRow_insert {k : Clock} {row : CsvRow} {o : Op}
    (h : templateRow k row = .ok (some o)) :
    ∃ category level system clause attrs,
      intOrNone (row.get .projectCategory none) = .ok (some category) ∧
      intOrNone (row.get .projectLevel none) = .ok (some level) ∧
      intOrNone (row.get .systemName none) = .ok system ∧
        intOrNone (row.get .clauseId none) = .ok clause ∧
      o = .insert k .researchTemplate attrs ∧
      attrs.lookup .projectCategory = some category ∧ attrs.lookup .projectLevel = some level ∧
      attrs.lookup .systemName = some (system.getD (.json .null)) ∧
      attrs.lookup .clauseId = some (clause.getD (.json .null)) := by
  obtain ⟨-, category, level, system, clause, status, requirement, type, inspection, hcategory,
    hlevel, hsystem, hclause, -, -, -, -, -, rfl⟩ := templateRow_eq_ok.mp h
  exact ⟨category, level, system, clause, _, hcategory, hlevel, hsystem, hclause, rfl, rfl,
    rfl, rfl, rfl⟩

/-- The operations of a CSV import, where `rowOp` inserts into one table. -/
theorem csvOps_inserts {k : Clock} {t : Table} {rowOp : CsvRow → Except Exn (Option Op)}
    (h : ∀ row o, rowOp row = .ok (some o) → ∃ attrs, o = .insert k t attrs) (rows : List CsvRow) :
    ∀ o ∈ csvOps rowOp rows, ∃ attrs, o = .insert k t attrs := by
  intro o ho
  obtain ⟨row, -, hrow⟩ := List.mem_filterMap.mp ho
  unfold unlessRaised at hrow
  cases hop : rowOp row with
  | error e => rw [hop] at hrow; cases hrow
  | ok x => rw [hop] at hrow; exact h row o (hop.trans (congrArg Except.ok hrow))

theorem jsonOps_inserts (k : Clock) (data : Json) :
    ∀ o ∈ jsonOps k data, ∃ attrs, o = .insert k .researchTemplate attrs := by
  intro o ho
  rw [jsonOps_eq] at ho
  obtain ⟨item, -, hitem⟩ := List.mem_filterMap.mp ho
  unfold templateItem at hitem
  cases hattrs : construct item importSources with
  | error e => rw [hattrs] at hitem; cases hitem
  | ok attrs => rw [hattrs] at hitem; cases hitem; exact ⟨attrs, rfl⟩

/-- **The loop over the records** stages a row for each record that is not skipped, and
    counts every record once. -/
theorem exec_importRows (rowOp : CsvRow → Except Exn (Option Op)) (rows : List CsvRow)
    (imported skipped : ℕ)
    (s : Session DB Op) :
    exec (importRows rowOp rows imported skipped) s =
      (.ok (imported + (csvOps rowOp rows).length,
        skipped + (rows.length - (csvOps rowOp rows).length)),
          { s with pending := s.pending ++ csvOps rowOp rows }) := by
  have hle : ∀ rows, (csvOps rowOp rows).length ≤ rows.length :=
    fun rows => List.length_filterMap_le _ _
  induction rows generalizing imported skipped s with
  | nil => simp [importRows, csvOps]
  | cons row rows ih =>
    have hrows := hle rows
    have hskipped : unlessRaised (rowOp row) = none →
        exec (importRows rowOp rows imported (skipped + 1)) s =
          (.ok (imported + (csvOps rowOp (row :: rows)).length,
            skipped + ((row :: rows).length - (csvOps rowOp (row :: rows)).length)),
            { s with pending := s.pending ++ csvOps rowOp (row :: rows) }) := by
      intro hnone
      have hops : csvOps rowOp (row :: rows) = csvOps rowOp rows := by simp [csvOps, hnone]
      have hcount : skipped + 1 + (rows.length - (csvOps rowOp rows).length) =
          skipped + ((row :: rows).length - (csvOps rowOp rows).length) := by
        rw [List.length_cons]; omega
      rw [ih, hops, hcount]
    cases hop : rowOp row with
    | error e =>
      simp only [importRows, hop]
      exact hskipped (by rw [hop]; rfl)
    | ok x =>
      cases x with
      | none =>
        simp only [importRows, hop]
        exact hskipped (by rw [hop]; rfl)
      | some o =>
        have hops : csvOps rowOp (row :: rows) = o :: csvOps rowOp rows := by
          simp [csvOps, hop, unlessRaised, Except.toOption]
        have hcount : imported + 1 + (csvOps rowOp rows).length = imported +
            (o :: csvOps rowOp rows).length := by
          rw [List.length_cons]; omega
        simp only [importRows, hop, exec_bind, exec_stage, ih, hops, hcount, List.length_cons,
          Nat.add_sub_add_right, List.append_assoc, List.singleton_append]

/-- **The loop over the items.** -/
theorem exec_importItems (k : Clock) (items : List Json) (imported : ℕ) (s : Session DB Op) :
    exec (importItems k items imported) s =
      (.ok (imported + (jsonOps k (.list items)).length),
        { s with pending := s.pending ++ jsonOps k (.list items) }) := by
  induction items generalizing imported s with
  | nil => simp [importItems, jsonOps]
  | cons item items ih =>
    cases hop : templateItem k item with
    | error e =>
      have hops : jsonOps k (.list (item :: items)) = jsonOps k (.list items) := by
        simp [jsonOps, hop, unlessRaised, Except.toOption, Except.map]
      simp only [importItems, hop, ih, hops]
    | ok o =>
      have hops : jsonOps k (.list (item :: items)) = o :: jsonOps k (.list items) := by
        simp [jsonOps, hop, unlessRaised, Except.toOption, Except.map]
      have hcount : imported + 1 + (jsonOps k (.list items)).length =
          imported + (o :: jsonOps k (.list items)).length := by
        rw [List.length_cons]; omega
      simp only [importItems, hop, exec_bind, exec_stage, ih, hops, hcount, List.append_assoc,
        List.singleton_append]

/-- A request that ended in a session: it did not succeed and committed nothing, or
    it answered and committed a list of operations. -/
def Ended (ops : Response → List Op → Prop) (db : DB)
    (out : Except Exn Response × Session DB Op) : Prop :=
  ((∀ r, out.1 = .ok r → ¬ r.Success) ∧ out.2.committed = db) ∨
    ∃ r os, out.1 = .ok r ∧ r.Success ∧ ops r os ∧ applyAll applyOp os db = .ok out.2.committed

theorem Ended.refused {ops : Response → List Op → Prop} {db : DB} {r : Response} {s : Session DB Op}
    (hr : ¬ r.Success) (hs : s.committed = db) : Ended ops db (.ok r, s) :=
  Or.inl ⟨fun _ h => by cases h; exact hr, hs⟩

theorem Ended.raised {ops : Response → List Op → Prop} {db : DB} {e : Exn} {s : Session DB Op}
    (hs : s.committed = db) : Ended ops db (.error e, s) :=
  Or.inl ⟨fun _ h => (nomatch h), hs⟩

/-- What a CSV import that succeeds does: it adds a row for each record it does not skip,
    and answers with both counts. -/
def CsvImported (rowOp : CsvRow → Except Exn (Option Op)) (file : Upload) (r : Response)
    (os : List Op) : Prop :=
  ∃ rows, file.csv = .ok (rows, none) ∧ os = csvOps rowOp rows ∧
    r = importedAnswer os.length (rows.length - os.length)

/-- **The CSV part of the imports.** -/
theorem exec_importCsv (rowOp : CsvRow → Except Exn (Option Op)) (file : Upload) (db : DB) :
    exec (importCsv rowOp file) (Session.init db) =
      match file.csv with
      | .error e => (.ok (refuse 400 ("CSV文件格式错误: " ++ e.str)), Session.init db)
      | .ok (_, some e) => (.ok (refuse 500 ("数据库操作失败: " ++ e.str)), Session.init db)
      | .ok (rows, none) =>
        match applyAll applyOp (csvOps rowOp rows) db with
        | .error e => (.ok (refuse 500 ("数据库操作失败: " ++ e.str)), Session.init db)
        | .ok db' =>
          (.ok (importedAnswer (csvOps rowOp rows).length
            (rows.length - (csvOps rowOp rows).length)), Session.init db') := by
  cases hcsv : file.csv with
  | error e => simp [importCsv, exec_catching, exec_bind, hcsv]
  | ok read =>
    obtain ⟨rows, failed⟩ := read
    have hloop := exec_importRows rowOp rows 0 0 (Session.init db)
    cases failed with
    | some e =>
      simp [importCsv, exec_catching, exec_bind, exec_map, hcsv, hloop]
      rfl
    | none =>
      cases hall : applyAll applyOp (csvOps rowOp rows) db <;>
        simp [importCsv, exec_catching, exec_bind, exec_map, hcsv, hloop, exec_commit, hall] <;> rfl

theorem importCsv_ended (rowOp : CsvRow → Except Exn (Option Op)) (file : Upload) (db : DB) :
    Ended (CsvImported rowOp file) db (exec (importCsv rowOp file) (Session.init db)) := by
  rw [exec_importCsv]
  cases hcsv : file.csv with
  | error e => exact Ended.refused (refuse_not_success (by norm_num) _) rfl
  | ok read =>
    obtain ⟨rows, failed⟩ := read
    cases failed with
    | some e => exact Ended.refused (refuse_not_success (by norm_num) _) rfl
    | none =>
      simp only
      cases hall : applyAll applyOp (csvOps rowOp rows) db with
      | error e => exact Ended.refused (refuse_not_success (by norm_num) _) rfl
      | ok db' => exact Or.inr ⟨_, _, rfl, (by norm_num : 200 < 400), ⟨rows, hcsv, rfl, rfl⟩, hall⟩

/-- What a JSON import that succeeds does: it adds a row for each item of a list that
    does not raise, and answers with their number, or it adds one row. -/
def JsonImported (k : Clock) (file : Upload) (r : Response) (os : List Op) : Prop :=
  ∃ data, file.json = .value data ∧ os = jsonOps k data ∧
    match data with
    | .list _ => r = itemsAnswer os.length
    | _ => r = { status := 200, body := done "数据导入成功" } ∧ os.length = 1

/-- **The JSON part of the template import**, for a list. -/
theorem exec_importJson (k : Clock) {file : Upload} {items : List Json}
    (h : file.json = .value (.list items))
    (db : DB) :
    ∃ s, exec (importJson k file) (Session.init db) = s ∧
      match applyAll applyOp (jsonOps k (.list items)) db with
      | .error e => s.1 = .error e ∧ s.2.committed = db
      | .ok db' => s = (.ok (itemsAnswer (jsonOps k (.list items)).length), Session.init db') := by
  have hloop := exec_importItems k items 0 (Session.init db)
  refine ⟨_, rfl, ?_⟩
  unfold importJson
  rw [h]
  cases hall : applyAll applyOp (jsonOps k (.list items)) db with
  | error e =>
    simp only [exec_bind, hloop, exec_commit, Session.init_pending, Session.init_work,
      List.nil_append, hall]
    exact ⟨trivial, rfl⟩
  | ok db' =>
    simp only [exec_bind, hloop, exec_commit, Session.init_pending, Session.init_work,
      List.nil_append, hall, exec_pure, Nat.zero_add]
    rfl

theorem importJson_ended (k : Clock) (file : Upload) (db : DB) :
    Ended (JsonImported k file) db (exec (importJson k file) (Session.init db)) := by
  by_cases hitems : ∃ items, file.json = .value (.list items)
  · obtain ⟨items, hitems⟩ := hitems
    obtain ⟨s, hexec, hs⟩ := exec_importJson k hitems db
    rw [hexec]
    cases hall : applyAll applyOp (jsonOps k (.list items)) db with
    | error e =>
      rw [hall] at hs
      obtain ⟨x, s⟩ := s
      obtain ⟨rfl, hs⟩ := hs
      exact Ended.raised hs
    | ok db' =>
      rw [hall] at hs
      subst hs
      exact Or.inr ⟨_, _, rfl, (by norm_num : 200 < 400), ⟨_, hitems, rfl, rfl⟩, hall⟩
  unfold importJson
  split
  · exact Ended.refused (refuse_not_success (by norm_num) _) rfl
  · exact Ended.raised rfl
  · rename_i items hlist
    exact absurd ⟨items, hlist⟩ hitems
  · rename_i data hlist hdata
    cases hitem : templateItem k data with
    | error e =>
      simp only [exec_bind, exec_ofResult]
      exact Ended.raised rfl
    | ok o =>
      have hops : jsonOps k data = [o] := by
        unfold jsonOps
        split
        · exact absurd rfl (hlist _)
        · rw [hitem]; rfl
      have himported : JsonImported k file { status := 200, body := done "数据导入成功" } [o] := by
        refine ⟨data, hdata, hops.symm, ?_⟩
        split
        · exact absurd rfl (hlist _)
        · exact ⟨rfl, rfl⟩
      cases hall : applyAll applyOp [o] db with
      | error e =>
        simp only [exec_bind, exec_ofResult, exec_stage, exec_commit, Session.init_pending,
          Session.init_work, List.nil_append, hall]
        exact Ended.raised rfl
      | ok db' =>
        simp only [exec_bind, exec_ofResult, exec_stage, exec_commit, Session.init_pending,
          Session.init_work, List.nil_append, hall, exec_pure]
        exact Or.inr ⟨_, _, rfl, (by norm_num : 200 < 400), himported, hall⟩

/-- The outermost `try` of the imports. -/
theorem Ended.run_catching {P : Response → List Op → Prop} {db : DB} {m : Handler}
    {message : Exn → String}
    (h : Ended P db (exec m (Session.init db))) {out : Response × DB}
    (hout : run (catching m fun e => pure (refuse 500 (message e))) db = out) :
    Runs db out fun db' => ∃ os, P out.1 os ∧ applyAll applyOp os db = .ok db' := by
  have hcatch := exec_catching m (fun e => pure (refuse 500 (message e))) (Session.init db)
  rcases hm : exec m (Session.init db) with ⟨e | r, s⟩
  · rw [hm] at h hcatch
    rw [run, serve_of_exec_ok hcatch] at hout
    subst hout
    rcases h with ⟨-, hs⟩ | ⟨r, os, hr, -⟩
    · exact Or.inl ⟨refuse_not_success (by norm_num) _, hs⟩
    · cases hr
  · rw [hm] at h hcatch
    rw [run, serve_of_exec_ok hcatch] at hout
    subst hout
    rcases h with ⟨hr, hs⟩ | ⟨r', os, hr, hgood, hos, hall⟩
    · exact Or.inl ⟨hr r rfl, hs⟩
    · cases hr
      exact Or.inr ⟨hgood, os, hos, hall⟩

theorem Ended.imp {ops ops' : Response → List Op → Prop} {db : DB}
    {out : Except Exn Response × Session DB Op} (h : Ended ops db out)
    (himp : ∀ r os, ops r os → ops' r os) : Ended ops' db out :=
  h.imp_right fun ⟨r, os, hr, hgood, hops, hall⟩ => ⟨r, os, hr, hgood, himp r os hops, hall⟩

/-- **The runs of the dictionary import.** -/
theorem importSystemDictionaries_cases {k : Clock} {file : Option Upload} {db : DB}
    {out : Response × DB}
    (hout : run (importSystemDictionaries k file) db = out) :
    Runs db out fun db' =>
      ∃ os, (∃ upload, file = some upload ∧ CsvImported (dictionaryRow k) upload out.1 os) ∧
        applyAll applyOp os db = .ok db' := by
  refine Ended.run_catching (P := fun r os => ∃ upload, file = some upload ∧
    CsvImported (dictionaryRow k) upload r os) ?_ hout
  cases file with
  | none => exact Ended.refused (refuse_not_success (by norm_num) _) rfl
  | some upload =>
    simp only
    split_ifs
    · exact Ended.refused (refuse_not_success (by norm_num) _) rfl
    · exact (importCsv_ended (dictionaryRow k) upload db).imp fun r os h => ⟨upload, rfl, h⟩
    · exact Ended.refused (refuse_not_success (by norm_num) _) rfl

/-- **The runs of the template import.** -/
theorem importResearchTemplates_cases {k : Clock} {file : Option Upload} {db : DB}
    {out : Response × DB}
    (hout : run (importResearchTemplates k file) db = out) :
    Runs db out fun db' =>
      ∃ os, (∃ upload, file = some upload ∧
          ((endsWith upload.filename ".json" = true ∧ JsonImported k upload out.1 os) ∨
            (endsWith upload.filename ".json" = false ∧
              CsvImported (templateRow k) upload out.1 os))) ∧
        applyAll applyOp os db = .ok db' := by
  refine Ended.run_catching (P := fun r os => ∃ upload, file = some upload ∧
    ((endsWith upload.filename ".json" = true ∧ JsonImported k upload r os) ∨
      (endsWith upload.filename ".json" = false ∧ CsvImported (templateRow k) upload r os))) ?_ hout
  cases file with
  | none => exact Ended.refused (refuse_not_success (by norm_num) _) rfl
  | some upload =>
    simp only
    split_ifs with _ hjson
    · exact Ended.refused (refuse_not_success (by norm_num) _) rfl
    · exact (importJson_ended k upload db).imp fun r os h => ⟨upload, rfl, Or.inl ⟨hjson, h⟩⟩
    · exact (importCsv_ended (templateRow k) upload db).imp fun r os h =>
        ⟨upload, rfl, Or.inr ⟨by simpa using hjson, h⟩⟩
    · exact Ended.refused (refuse_not_success (by norm_num) _) rfl

/-! ## Files of one kind -/

/-- A file is of one kind. -/
theorem not_json_of_csv {filename : String} (h : endsWith filename ".csv" = true) :
    endsWith filename ".json" = false := by
  refine Bool.eq_false_iff.mpr fun hjson => ?_
  obtain ⟨front, hfront⟩ := List.isSuffixOf_iff_suffix.mp h
  obtain ⟨front', hfront'⟩ := List.isSuffixOf_iff_suffix.mp hjson
  have hcsv : ".csv".toList.getLast? = some 'v' := rfl
  have hn : ".json".toList.getLast? = some 'n' := rfl
  have hlast := congrArg List.getLast? (hfront.trans hfront'.symm)
  rw [List.getLast?_append, List.getLast?_append, hcsv, hn] at hlast
  exact absurd hlast (by simp)

theorem filename_ne_empty {filename suffix : String} (h : endsWith filename suffix = true)
    (hsuffix : suffix.toList ≠ []) : filename ≠ "" := by
  rintro rfl
  exact hsuffix (List.suffix_nil.mp (List.isSuffixOf_iff_suffix.mp h))

/-- The database after an import: nothing is kept where the reader or the commit
    fails. -/
def imported (db : DB) : Option Exn → Except Exn DB → DB
  | none, .ok db' => db'
  | _, _ => db

/-- **The import of a CSV file** adds the rows of its records, or nothing where the reader
    or the commit fails. -/
theorem run_importCsv (k : Clock) {file : Upload} (hname : endsWith file.filename ".csv" = true)
    {rows : List CsvRow}
    {failed : Option Exn} (hcsv : file.csv = .ok (rows, failed)) (db : DB) :
    (run (importResearchTemplates k (some file)) db).2 =
      imported db failed (applyAll applyOp (csvOps (templateRow k) rows) db) := by
  have hexec := exec_importCsv (templateRow k) file db
  rw [hcsv] at hexec
  have hhandler : importResearchTemplates k (some file) =
      catching (importCsv (templateRow k) file) fun e => pure (refuse 500 ("导入失败: " ++ e.str)) := by
    unfold importResearchTemplates
    simp only [if_neg (filename_ne_empty hname (by decide)), not_json_of_csv hname, hname, if_true]
    rfl
  rw [hhandler, run]
  cases failed with
  | some e =>
    rw [serve_of_exec_ok (a := refuse 500 ("数据库操作失败: " ++ e.str)) (s := Session.init db)
      (by rw [exec_catching, hexec])]
    rfl
  | none =>
    cases hall : applyAll applyOp (csvOps (templateRow k) rows) db with
    | error e =>
      simp only [hall] at hexec
      rw [serve_of_exec_ok (a := refuse 500 ("数据库操作失败: " ++ e.str)) (s := Session.init db)
        (by rw [exec_catching, hexec])]
      rfl
    | ok db' =>
      simp only [hall] at hexec
      rw [serve_of_exec_ok (s := Session.init db') (by rw [exec_catching, hexec])]
      rfl

/-- **The import of a JSON list** adds the rows of its items, or nothing where the commit
    fails. -/
theorem run_importJson (k : Clock) {file : Upload} (hname : endsWith file.filename ".json" = true)
    {items : List Json} (hjson : file.json = .value (.list items)) (db : DB) :
    (run (importResearchTemplates k (some file)) db).2 =
      imported db none (applyAll applyOp (jsonOps k (.list items)) db) := by
  obtain ⟨⟨x, s⟩, hexec, hs⟩ := exec_importJson k hjson db
  have hhandler : importResearchTemplates k (some file) =
      catching (importJson k file) fun e => pure (refuse 500 ("导入失败: " ++ e.str)) := by
    unfold importResearchTemplates
    simp only [if_neg (filename_ne_empty hname (by decide)), hname, if_true]
  rw [hhandler, run]
  cases hall : applyAll applyOp (jsonOps k (.list items)) db with
  | error e =>
    rw [hall] at hs
    obtain ⟨rfl, hs⟩ := hs
    rw [serve_of_exec_ok (a := refuse 500 ("导入失败: " ++ e.str)) (s := s)
      (by rw [exec_catching, hexec]; rfl)]
    exact hs
  | ok db' =>
    rw [hall] at hs
    cases hs
    rw [serve_of_exec_ok (s := Session.init db') (by rw [exec_catching, hexec])]
    rfl

end ProjectEvaluation.Backend
