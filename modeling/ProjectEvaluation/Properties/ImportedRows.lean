import ProjectEvaluation.Properties.StoredRows

/-!
# The rows an import stores

The columns that an import fills have more meaning than their types say: `enabled_status` is 0
or 1, and the texts a template requires are not blank.

Results:
* `imported_rows_iff`: the files whose rows are all as they should be.
-/

namespace ProjectEvaluation.Backend

open Python Relational Transaction

/-! ## What should be stored -/

/-- `enabled_status` is 0 or 1. -/
def GoodStatus (row : Record) : Prop :=
  row.cell .enabledStatus = .int 0 ∨ row.cell .enabledStatus = .int 1

/-- A column holds an integer. -/
def HoldsInteger (f : Field) (row : Record) : Prop := ∃ n, row.cell f = .int n

/-- A column holds a text that is not blank. -/
def HoldsText (f : Field) (row : Record) : Prop := ∃ s, row.cell f = .text s ∧ strip s ≠ ""

/-- A template as it should be. -/
structure GoodTemplate (row : Record) : Prop where
  status : GoodStatus row
  category : HoldsInteger .projectCategory row
  level : HoldsInteger .projectLevel row
  requirement : HoldsText .standardRequirement row
  type : HoldsText .requirementType row
  inspection : HoldsText .inspectionProject row

/-- The rows of a table that were not there before. -/
def IsNew (t : Table) (db db' : DB) (row : Record) : Prop :=
  row ∈ db' t ∧ ∀ old ∈ db t, old.id ≠ row.id

/-- **The new rows** of a list of insertions have a property iff each insertion gives it. -/
theorem new_rows_iff {k : Clock} {t : Table} {ops : List Op} {db db' : DB} {P : Record → Prop}
    {Q : Op → Prop}
    (hops : ∀ o ∈ ops, ∃ attrs, o = .insert k t attrs) (hall : applyAll applyOp ops db = .ok db')
    (hrow : ∀ o ∈ ops, ∀ row, Built k t o.attrs row → (P row ↔ Q o)) :
    (∀ row, IsNew t db db' row → P row) ↔ ∀ o ∈ ops, Q o := by
  rw [eq_map_insert hops] at hall
  obtain ⟨new, hnew, hlength, hnumbered⟩ := insertAll_numbered hall
  rw [List.length_map] at hlength
  constructor
  · intro hgood o ho
    obtain ⟨i, hi⟩ := List.mem_iff_getElem?.mp ho
    obtain ⟨row, hget, hid, hbuilt⟩ := hnumbered i o.attrs (by rw [List.getElem?_map, hi]; rfl)
    refine (hrow o ho row hbuilt).mp
      (hgood row ⟨hnew ▸ List.mem_append_right _ (List.mem_of_getElem? hget), ?_⟩)
    intro old hold
    have hlt := lt_nextId hold
    omega
  · rintro hgood row ⟨hmem, hfresh⟩
    rcases List.mem_append.mp (hnew ▸ hmem) with hold | hmem
    · exact absurd rfl (hfresh row hold)
    obtain ⟨i, hi⟩ := List.mem_iff_getElem?.mp hmem
    have hlt : i < ops.length := hlength ▸ (List.getElem?_eq_some_iff.mp hi).1
    obtain ⟨row', hget, -, hbuilt⟩ :=
      hnumbered i (ops[i]).attrs (by rw [List.getElem?_map, List.getElem?_eq_getElem hlt]; rfl)
    obtain rfl : row' = row := Option.some.inj (hget.symm.trans hi)
    have ho : ops[i] ∈ ops := List.getElem_mem hlt
    exact (hrow _ ho row' hbuilt).mpr (hgood _ ho)

/-! ## CSV records -/

/-- `int(s)` raises on what `enabled_status` holds, and the record is skipped. -/
def StatusRaises (s : Option String) : Prop := ∃ t, s = some t ∧ t ≠ "" ∧ pyInt t = none

/-- What `enabled_status` holds is stored as 0 or 1: a number that is one of them, or no cell at
    all. -/
def StatusStored (s : Option String) : Prop :=
  s = none ∨ ∃ t, s = some t ∧ (pyInt t = some 0 ∨ pyInt t = some 1)

theorem intUnlessEmpty_isOk {s : Option String} : (∃ a, intUnlessEmpty s = .ok a) ↔
    ¬ StatusRaises s := by
  cases s with
  | none => exact iff_of_true ⟨_, rfl⟩ fun ⟨t, hnone, _⟩ => by cases hnone
  | some t =>
    by_cases hempty : t = ""
    · subst hempty
      refine iff_of_true ⟨_, rfl⟩ ?_
      rintro ⟨t, hsome, hne, -⟩
      exact hne (Option.some.inj hsome).symm
    · have hpresent : present (some t) = true := by simp [present, hempty]
      rw [intUnlessEmpty, if_pos hpresent, Option.getD_some, intAttr]
      cases hnumber : pyInt t with
      | none => exact iff_of_false (fun ⟨a, ha⟩ => by cases ha) fun h => h ⟨t, rfl, hempty, hnumber⟩
      | some n =>
        refine iff_of_true ⟨_, rfl⟩ ?_
        rintro ⟨t', hsome, -, hnone⟩
        obtain rfl := Option.some.inj hsome
        rw [hnumber] at hnone
        cases hnone

/-- The column `enabled_status` of both tables. -/
def statusColumn : Column := (required .enabledStatus .integer).defaulting (.int 1)

/-- **The status a CSV record gives a row.** -/
theorem status_of_record {k : Clock} {t : Table} (hc : statusColumn ∈ t.columns)
    {attrs : List (Field × Attr)}
    {row : Record} (hbuilt : Built k t attrs row) {s : Option String} {a : Attr}
    (ha : intUnlessEmpty s = .ok a)
    (hlookup : attrs.lookup .enabledStatus = some a) : GoodStatus row ↔ StatusStored s := by
  have hcell : statusColumn.initial k attrs = .ok (row.cell .enabledStatus) :=
    hbuilt statusColumn hc
  cases s with
  | none =>
    obtain rfl := Except.ok.inj ha
    have hdefault : statusColumn.initial k attrs = .ok (.int 1) := by
      rw [Column.initial, show attrs.lookup statusColumn.field = _ from hlookup]
      rfl
    exact iff_of_true (Or.inr (Except.ok.inj (hcell.symm.trans hdefault))) (Or.inl rfl)
  | some t =>
    by_cases hempty : t = ""
    · subst hempty
      obtain rfl := Except.ok.inj ha
      -- an empty cell is stored as an empty text
      rw [Column.initial_eq_bind k hlookup (Or.inr rfl)] at hcell
      have htext : row.cell .enabledStatus = .text "" := (Except.ok.inj hcell).symm
      refine iff_of_false ?_ ?_
      · rintro (h | h) <;> rw [htext] at h <;> cases h
      · rintro (h | ⟨t, hsome, hnumber⟩)
        · cases h
        · obtain rfl := Option.some.inj hsome
          exact absurd hnumber (by decide)
    · have hpresent : present (some t) = true := by simp [present, hempty]
      rw [intUnlessEmpty, if_pos hpresent, Option.getD_some, intAttr] at ha
      cases hnumber : pyInt t with
      | none => rw [hnumber] at ha; cases ha
      | some n =>
        rw [hnumber] at ha
        obtain rfl := Except.ok.inj ha
        rw [Column.initial_eq_bind k hlookup (Or.inr rfl)] at hcell
        have hint : row.cell .enabledStatus = .int n := bindJson_int hcell
        simp [GoodStatus, StatusStored, hint, hnumber]

/-- A record that the dictionary import adds a row for: not the row of the descriptions, with a name
    that is not blank, and without a status that raises. -/
structure EntryImported (row : CsvRow) : Prop where
  description : row.get .systemName none ≠ some "系统名称"
  status : ¬ StatusRaises (row.get .enabledStatus (some "1"))
  name : strip ((row.get .systemName none).getD "") ≠ ""

theorem entryImported_iff {k : Clock} {row : CsvRow} : (∃ o, dictionaryRow k row = .ok (some o)) ↔
    EntryImported row := by
  constructor
  · rintro ⟨o, ho⟩
    obtain ⟨hdescription, status, hstatus, hname, -⟩ := dictionaryRow_eq_ok.mp ho
    exact ⟨hdescription, intUnlessEmpty_isOk.mp ⟨status, hstatus⟩, hname⟩
  · intro h
    obtain ⟨status, hstatus⟩ := intUnlessEmpty_isOk.mpr h.status
    exact ⟨_, dictionaryRow_eq_ok.mpr ⟨h.description, status, hstatus, h.name, rfl⟩⟩

/-- A cell that holds a number. -/
def IsNumber (s : Option String) : Prop := ∃ n, pyInt (strip (s.getD "")) = some n

/-- A cell that holds nothing. -/
def IsBlank (s : Option String) : Prop := strip (s.getD "") = ""

/-- A cell that holds a text. -/
def IsFilled (s : Option String) : Prop := ∃ t, s = some t ∧ strip t ≠ ""

/-- A record that the template import adds a row for. -/
structure TemplateImported (row : CsvRow) : Prop where
  description : row.get .projectCategory none ≠ some "项目类别ID(evaluation_type_id)"
  category : IsNumber (row.get .projectCategory none)
  level : IsNumber (row.get .projectLevel none)
  system : IsBlank (row.get .systemName none) ∨ IsNumber (row.get .systemName none)
  clause : IsBlank (row.get .clauseId none) ∨ IsNumber (row.get .clauseId none)
  status : ¬ StatusRaises (row.get .enabledStatus (some "1"))
  requirement : IsFilled (row.get .standardRequirement (some ""))
  type : IsFilled (row.get .requirementType (some "功能要求"))
  inspection : IsFilled (row.get .inspectionProject (some ""))

theorem intOrNone_some {s : Option String} {a : Attr} :
    intOrNone s = .ok (some a) ↔ ∃ n, pyInt (strip (s.getD "")) = some n ∧ a = .json (.int n) := by
  unfold intOrNone
  by_cases hblank : strip (s.getD "") = ""
  · rw [if_pos hblank, hblank]
    have hnone : pyInt "" = none := by decide
    simp [hnone]
  · rw [if_neg hblank, intAttr]
    cases pyInt (strip (s.getD "")) with
    | none => exact iff_of_false (fun h => by cases h) fun ⟨_, h, _⟩ => by cases h
    | some n => simp [Except.map, eq_comm]

theorem intOrNone_isOk {s : Option String} :
    (∃ a, intOrNone s = .ok a) ↔ IsBlank s ∨ IsNumber s := by
  unfold intOrNone IsBlank IsNumber
  by_cases hblank : strip (s.getD "") = ""
  · rw [if_pos hblank]
    exact iff_of_true ⟨none, rfl⟩ (Or.inl hblank)
  · rw [if_neg hblank, intAttr, or_iff_right hblank]
    cases pyInt (strip (s.getD "")) with
    | none => exact iff_of_false (fun ⟨_, h⟩ => by cases h) fun ⟨_, h⟩ => by cases h
    | some n => exact iff_of_true ⟨_, rfl⟩ ⟨n, rfl⟩

theorem isFilled_iff {s : Option String} : IsFilled s ↔ ∃ t, stripped s = .ok t ∧ t ≠ "" := by
  cases s with
  | none => exact iff_of_false (fun ⟨t, h, _⟩ => by cases h) fun ⟨t, h, _⟩ => by cases h
  | some t =>
    constructor
    · rintro ⟨t', hsome, hne⟩
      obtain rfl := Option.some.inj hsome
      exact ⟨strip t, rfl, hne⟩
    · rintro ⟨t', ht', hne⟩
      obtain rfl := Except.ok.inj ht'
      exact ⟨t, rfl, hne⟩

theorem templateImported_iff {k : Clock} {row : CsvRow} :
    (∃ o, templateRow k row = .ok (some o)) ↔ TemplateImported row := by
  constructor
  · rintro ⟨o, ho⟩
    obtain ⟨hdescription, category, level, system, clause, status, requirement, type, inspection,
      hcategory, hlevel, hsystem, hclause, hstatus, hrequirement, htype, hinspection, hblank, -⟩ :=
        templateRow_eq_ok.mp ho
    obtain ⟨hrequirement', htype', hinspection'⟩ : requirement ≠ "" ∧ type ≠ "" ∧
        inspection ≠ "" := by
      simpa only [not_or] using hblank
    exact
      { description := hdescription
        category := (intOrNone_some.mp hcategory).imp fun n hn => hn.1
        level := (intOrNone_some.mp hlevel).imp fun n hn => hn.1
        system := intOrNone_isOk.mp ⟨system, hsystem⟩
        clause := intOrNone_isOk.mp ⟨clause, hclause⟩
        status := intUnlessEmpty_isOk.mp ⟨status, hstatus⟩
        requirement := isFilled_iff.mpr ⟨requirement, hrequirement, hrequirement'⟩
        type := isFilled_iff.mpr ⟨type, htype, htype'⟩
        inspection := isFilled_iff.mpr ⟨inspection, hinspection, hinspection'⟩ }
  · intro h
    obtain ⟨category, hcategory⟩ := h.category
    obtain ⟨level, hlevel⟩ := h.level
    obtain ⟨system, hsystem⟩ := intOrNone_isOk.mpr h.system
    obtain ⟨clause, hclause⟩ := intOrNone_isOk.mpr h.clause
    obtain ⟨status, hstatus⟩ := intUnlessEmpty_isOk.mpr h.status
    obtain ⟨requirement, hrequirement, hrequirement'⟩ := isFilled_iff.mp h.requirement
    obtain ⟨type, htype, htype'⟩ := isFilled_iff.mp h.type
    obtain ⟨inspection, hinspection, hinspection'⟩ := isFilled_iff.mp h.inspection
    have hfilled : ¬(requirement = "" ∨ type = "" ∨ inspection = "") := by
      rintro (hempty | hempty | hempty)
      · exact hrequirement' hempty
      · exact htype' hempty
      · exact hinspection' hempty
    exact ⟨_, templateRow_eq_ok.mpr ⟨h.description, _, _, system, clause, status, requirement,
      type, inspection, intOrNone_some.mpr ⟨category, hcategory, rfl⟩,
      intOrNone_some.mpr ⟨level, hlevel, rfl⟩, hsystem, hclause, hstatus, hrequirement, htype,
      hinspection, hfilled, rfl⟩⟩

theorem holdsInteger_of_number {k : Clock} {t : Table} {attrs : List (Field × Attr)} {row : Record}
    (hbuilt : Built k t attrs row) {f : Field} {c : Column} (hc : t.column f = some c)
    (hty : c.type = .integer)
    {s : Option String} {a : Attr} (ha : intOrNone s = .ok (some a))
    (hlookup : attrs.lookup f = some a) :
    HoldsInteger f row := by
  obtain ⟨n, -, rfl⟩ := intOrNone_some.mp ha
  have hbind := built_cell hbuilt hc hlookup rfl
  rw [hty] at hbind
  exact ⟨n, bindJson_int hbind⟩

theorem holdsText_of_stripped {k : Clock} {t : Table} {attrs : List (Field × Attr)} {row : Record}
    (hbuilt : Built k t attrs row) {f : Field} {c : Column} (hc : t.column f = some c)
    (hty : c.type = .string)
    {s : Option String} {u : String} (hu : stripped s = .ok u) (hne : u ≠ "")
    (hlookup : attrs.lookup f = some (.json (.str u))) : HoldsText f row := by
  have hbind := built_cell hbuilt hc hlookup rfl
  rw [hty] at hbind
  refine ⟨u, (Except.ok.inj hbind).symm, ?_⟩
  cases s with
  | none => cases hu
  | some v =>
    obtain rfl := Except.ok.inj hu
    rwa [strip_strip]

/-- **The template a CSV record gives.** Its numbers and texts are checked, its status is not. -/
theorem template_of_record {k : Clock} {record : CsvRow} {o : Op}
    (ho : templateRow k record = .ok (some o)) {row : Record}
    (hbuilt : Built k .researchTemplate o.attrs row) :
    GoodTemplate row ↔ StatusStored (record.get .enabledStatus (some "1")) := by
  obtain ⟨-, category, level, system, clause, status, requirement, type, inspection,
    hcategory, hlevel, -, -, hstatus, hrequirement, htype, hinspection, hblank, rfl⟩ :=
      templateRow_eq_ok.mp ho
  obtain ⟨hrequirement', htype', hinspection'⟩ : requirement ≠ "" ∧ type ≠ "" ∧
      inspection ≠ "" := by
    simpa only [not_or] using hblank
  have hstored : GoodStatus row ↔ StatusStored (record.get .enabledStatus (some "1")) :=
    status_of_record (by decide) hbuilt hstatus rfl
  refine ⟨fun h => hstored.mp h.status, fun h => ?_⟩
  exact
    { status := hstored.mpr h
      category := holdsInteger_of_number hbuilt (f := .projectCategory) rfl rfl hcategory rfl
      level := holdsInteger_of_number hbuilt (f := .projectLevel) rfl rfl hlevel rfl
      requirement := holdsText_of_stripped hbuilt
        (f := .standardRequirement) rfl rfl hrequirement hrequirement' rfl
      type := holdsText_of_stripped hbuilt (f := .requirementType) rfl rfl htype htype' rfl
      inspection := holdsText_of_stripped hbuilt
        (f := .inspectionProject) rfl rfl hinspection hinspection' rfl }

/-! ## JSON items -/

/-- What a JSON item has under a key is stored as an integer. -/
def GivesInteger (item : Json) (f : Field) : Prop :=
  ∃ j n, item.getD f .null = .ok j ∧ bindJson .integer j = .ok (.int n)

/-- What a JSON item has under a key is stored as a text that is not blank. -/
def GivesText (item : Json) (f : Field) (default : String) : Prop :=
  ∃ j s, item.getD f (.str default) = .ok j ∧ bindJson .string j = .ok (.text s) ∧ strip s ≠ ""

/-- A JSON item whose template is as it should be: its status is `None` or stored as 0 or 1, its
    category and level are stored as integers, and the texts are not blank. -/
structure GoodItem (item : Json) : Prop where
  status : ∃ j, item.getD .enabledStatus (.int 1) = .ok j ∧
    (j = .null ∨ bindJson .integer j = .ok (.int 0) ∨ bindJson .integer j = .ok (.int 1))
  category : GivesInteger item .projectCategory
  level : GivesInteger item .projectLevel
  requirement : GivesText item .standardRequirement ""
  type : GivesText item .requirementType "功能要求"
  inspection : GivesText item .inspectionProject ""

/-- An item that is no object raises. -/
theorem templateItem_isOk {k : Clock} {item : Json} :
    (∃ o, templateItem k item = .ok o) ↔ ∃ entries, item = .dict entries := by
  constructor
  · rintro ⟨o, ho⟩
    cases item with
    | dict entries => exact ⟨entries, rfl⟩
    | _ => cases ho
  · rintro ⟨entries, rfl⟩
    exact ⟨_, rfl⟩

/-- What a column without a default stores for an item. -/
theorem cell_of_item {k : Clock} {t : Table} {attrs : List (Field × Attr)} {row : Record}
    (hbuilt : Built k t attrs row)
    {f : Field} {c : Column} {ty : ColType} {j : Json} (hlookup : attrs.lookup f = some (.json j))
    (hc : t.column f = some c) (hdefault : c.default = none) (hty : c.type = ty) :
    bindJson ty j = .ok (row.cell f) := by
  subst hty
  obtain rfl := Table.column_field hc
  have hinitial := hbuilt c (Table.mem_of_column hc)
  rwa [Column.initial_eq_bind k hlookup (Or.inl hdefault)] at hinitial

theorem givesInteger_iff {item j : Json} {f : Field} (hj : item.getD f .null = .ok j) {row : Record}
    (hcell : bindJson .integer j = .ok (row.cell f)) :
    HoldsInteger f row ↔ GivesInteger item f := by
  constructor
  · rintro ⟨n, hn⟩
    exact ⟨j, n, hj, hcell.trans (congrArg Except.ok hn)⟩
  · rintro ⟨j', n, hj', hn⟩
    obtain rfl := Except.ok.inj (hj.symm.trans hj')
    exact ⟨n, Except.ok.inj (hcell.symm.trans hn)⟩

theorem givesText_iff {item j : Json} {f : Field} {default : String}
    (hj : item.getD f (.str default) = .ok j)
    {row : Record} (hcell : bindJson .string j = .ok (row.cell f)) :
    HoldsText f row ↔ GivesText item f default := by
  constructor
  · rintro ⟨s, hs, hne⟩
    exact ⟨j, s, hj, hcell.trans (congrArg Except.ok hs), hne⟩
  · rintro ⟨j', s, hj', hs, hne⟩
    obtain rfl := Except.ok.inj (hj.symm.trans hj')
    exact ⟨s, Except.ok.inj (hcell.symm.trans hs), hne⟩

/-- The status of an item: `None` counts as not given. -/
theorem status_of_item {k : Clock} {t : Table} (hc : statusColumn ∈ t.columns)
    {attrs : List (Field × Attr)}
    {row : Record} (hbuilt : Built k t attrs row) {j : Json}
    (hlookup : attrs.lookup .enabledStatus = some (.json j)) :
    GoodStatus row ↔ j = .null ∨ bindJson .integer j = .ok (.int 0) ∨
      bindJson .integer j = .ok (.int 1) := by
  have hcell : statusColumn.initial k attrs = .ok (row.cell .enabledStatus) :=
    hbuilt statusColumn hc
  by_cases hnull : j = .null
  · subst hnull
    have hdefault : statusColumn.initial k attrs = .ok (.int 1) := by
      rw [Column.initial, show attrs.lookup statusColumn.field = _ from hlookup]
      rfl
    exact iff_of_true (Or.inr (Except.ok.inj (hcell.symm.trans hdefault))) (Or.inl rfl)
  · have hsome : (Attr.json j).isNone = false := by
      cases j with
      | null => exact absurd rfl hnull
      | _ => rfl
    rw [Column.initial_eq_bind k hlookup (Or.inr hsome)] at hcell
    have hbind : bindJson .integer j = .ok (row.cell .enabledStatus) := hcell
    simp only [GoodStatus, hbind, hnull, false_or, Except.ok.injEq]

/-- **The template a JSON item gives.** Nothing of it is checked. -/
theorem template_of_item {k : Clock} {item : Json} {o : Op} (ho : templateItem k item = .ok o)
    {row : Record}
    (hbuilt : Built k .researchTemplate o.attrs row) : GoodTemplate row ↔ GoodItem item := by
  obtain ⟨entries, rfl⟩ := templateItem_isOk.mp ⟨o, ho⟩
  obtain rfl := Except.ok.inj ho
  have hget : ∀ f d, (Json.dict entries).getD f d = .ok ((entries.lookup f).getD d) :=
    fun _ _ => rfl
  have hstatus :=
    status_of_item (by decide) hbuilt (j := (entries.lookup .enabledStatus).getD (.int 1)) rfl
  have hcategory :=
    givesInteger_iff (hget .projectCategory .null) (cell_of_item hbuilt rfl rfl rfl rfl)
  have hlevel := givesInteger_iff (hget .projectLevel .null) (cell_of_item hbuilt rfl rfl rfl rfl)
  have hrequirement :=
    givesText_iff (hget .standardRequirement (.str "")) (cell_of_item hbuilt rfl rfl rfl rfl)
  have htype :=
    givesText_iff (hget .requirementType (.str "功能要求")) (cell_of_item hbuilt rfl rfl rfl rfl)
  have hinspection :=
    givesText_iff (hget .inspectionProject (.str "")) (cell_of_item hbuilt rfl rfl rfl rfl)
  constructor
  · intro h
    exact ⟨⟨_, rfl, hstatus.mp h.status⟩, hcategory.mp h.category, hlevel.mp h.level,
      hrequirement.mp h.requirement, htype.mp h.type, hinspection.mp h.inspection⟩
  · rintro ⟨⟨j, hj, hgood⟩, hc, hl, hr, ht, hi⟩
    obtain rfl := Except.ok.inj hj
    exact ⟨hstatus.mpr hgood, hcategory.mpr hc, hlevel.mpr hl, hrequirement.mpr hr, htype.mpr ht,
      hinspection.mpr hi⟩

/-! ## Files -/

/-- The records of a dictionary file that are imported have a status that is 0 or 1, or no cell for
    it. -/
def EntriesFile (file : Upload) : Prop :=
  ∀ records, file.csv = .ok (records, none) → ∀ record ∈ records, EntryImported record →
    StatusStored (record.get .enabledStatus (some "1"))

/-- The items of a JSON file that are objects are templates as they should be; the records of a CSV
    file that are imported have a status that is 0 or 1, or no cell for it. -/
def TemplatesFile (file : Upload) : Prop :=
  if endsWith file.filename ".json" then
    ∀ data, file.json = .value data → ∀ item ∈ importedItems data,
      (∃ entries, item = .dict entries) → GoodItem item
  else
    ∀ records, file.csv = .ok (records, none) → ∀ record ∈ records, TemplateImported record →
      StatusStored (record.get .enabledStatus (some "1"))

/-- What the records of a CSV file give. -/
theorem csvOps_iff {rowOp : CsvRow → Except Exn (Option Op)} {records : List CsvRow}
    {Imported Stored : CsvRow → Prop}
    (himported : ∀ record, (∃ o, rowOp record = .ok (some o)) ↔ Imported record) :
    (∀ o ∈ csvOps rowOp records, ∀ record ∈ records, rowOp record = .ok (some o) → Stored record) ↔
      ∀ record ∈ records, Imported record → Stored record := by
  constructor
  · intro h record hrecord hi
    obtain ⟨o, ho⟩ := (himported record).mpr hi
    exact h o (List.mem_filterMap.mpr ⟨record, hrecord, by rw [unlessRaised, ho]; rfl⟩)
      record hrecord ho
  · intro h o _ record hrecord ho
    exact h record hrecord ((himported record).mp ⟨o, ho⟩)

/-- A row that a CSV import stages comes from a record. -/
theorem record_of_csvOps {rowOp : CsvRow → Except Exn (Option Op)} {records : List CsvRow} {o : Op}
    (h : o ∈ csvOps rowOp records) : ∃ record ∈ records, rowOp record = .ok (some o) := by
  obtain ⟨record, hrecord, ho⟩ := List.mem_filterMap.mp h
  refine ⟨record, hrecord, ?_⟩
  unfold unlessRaised at ho
  cases hrow : rowOp record with
  | error e => rw [hrow] at ho; cases ho
  | ok x => rw [hrow] at ho; exact congrArg Except.ok ho

/-- **The new rows of a CSV import** are as they should be iff the records it imports are. -/
theorem csv_new_rows_iff {k : Clock} {t : Table} {rowOp : CsvRow → Except Exn (Option Op)}
    {records : List CsvRow}
    {db db' : DB} {P : Record → Prop} {Imported Stored : CsvRow → Prop}
    (hinserts : ∀ record o, rowOp record = .ok (some o) → ∃ attrs, o = .insert k t attrs)
    (himported : ∀ record, (∃ o, rowOp record = .ok (some o)) ↔ Imported record)
    (hstored : ∀ record o, rowOp record = .ok (some o) → ∀ row,
      Built k t o.attrs row → (P row ↔ Stored record))
    (hall : applyAll applyOp (csvOps rowOp records) db = .ok db') :
    (∀ row, IsNew t db db' row → P row) ↔ ∀ record ∈ records, Imported record → Stored record := by
  rw [← csvOps_iff himported]
  refine new_rows_iff (csvOps_inserts hinserts records) hall fun o ho row hbuilt => ?_
  constructor
  · intro hP record _ hrecord
    exact (hstored record o hrecord row hbuilt).mp hP
  · intro h
    obtain ⟨record, hmem, hrecord⟩ := record_of_csvOps ho
    exact (hstored record o hrecord row hbuilt).mpr (h record hmem hrecord)

/-- **The new rows of a JSON import** are as they should be iff the items it imports are. -/
theorem json_new_rows_iff {k : Clock} {data : Json} {db db' : DB}
    (hall : applyAll applyOp (jsonOps k data) db = .ok db') :
    (∀ row, IsNew .researchTemplate db db' row → GoodTemplate row) ↔
      ∀ item ∈ importedItems data, (∃ entries, item = .dict entries) → GoodItem item := by
  have hmem : ∀ o, o ∈ jsonOps k data ↔ ∃ item ∈ importedItems data,
      templateItem k item = .ok o := by
    intro o
    rw [jsonOps_eq, List.mem_filterMap]
    refine exists_congr fun item => and_congr_right fun _ => ?_
    cases templateItem k item <;> simp [unlessRaised, Except.map, Except.toOption]
  have hrows : (∀ row, IsNew .researchTemplate db db' row → GoodTemplate row) ↔
      ∀ o ∈ jsonOps k data, ∀ item ∈ importedItems data,
        templateItem k item = .ok o → GoodItem item := by
    refine new_rows_iff (jsonOps_inserts k data) hall fun o ho row hbuilt => ?_
    constructor
    · intro hP item _ hitem
      exact (template_of_item hitem hbuilt).mp hP
    · intro h
      obtain ⟨item, hin, hitem⟩ := (hmem o).mp ho
      exact (template_of_item hitem hbuilt).mpr (h item hin hitem)
  rw [hrows]
  constructor
  · intro h item hin hobject
    obtain ⟨o, ho⟩ := templateItem_isOk.mpr hobject
    exact h o ((hmem o).mpr ⟨item, hin, ho⟩) item hin ho
  · intro h o _ item hin hitem
    exact h item hin (templateItem_isOk.mp ⟨o, hitem⟩)

/-! ## The result -/

/-- An import that answers 200 committed its rows. -/
theorem runs_of_status {db : DB} {out : Response × DB} {done : DB → Prop} (h : Runs db out done)
    (hstatus : out.1.status = 200) : done out.2 := by
  rcases h with ⟨hbad, -⟩ | ⟨-, hdone⟩
  · refine absurd ?_ hbad
    rw [Response.Success, hstatus]
    norm_num
  · exact hdone

/-- **The rows an import stores.** When a dictionary import answers 200, every new entry has the
    status 0 or 1 iff the status of every record it imports is a number that is one of them, or has
    no cell. When a template import answers 200, every new template is as it should be iff that
    holds of the records of the CSV file it imports, or every object of the JSON file gives such a
    template. -/
theorem imported_rows_iff (k : Clock) (file : Upload) (db : DB) :
    ((run (importSystemDictionaries k (some file)) db).1.status = 200 →
      ((∀ row, IsNew .systemDictionary db (run (importSystemDictionaries k (some file)) db).2 row →
        GoodStatus row) ↔
        EntriesFile file)) ∧
    ((run (importResearchTemplates k (some file)) db).1.status = 200 →
      ((∀ row, IsNew .researchTemplate db (run (importResearchTemplates k (some file)) db).2 row →
        GoodTemplate row) ↔
        TemplatesFile file)) := by
  constructor
  · intro hstatus
    obtain ⟨os, ⟨_, hfile, records, hcsv, rfl, -⟩, hall⟩ :=
      runs_of_status (importSystemDictionaries_cases rfl) hstatus
    obtain rfl := Option.some.inj hfile
    have hstored : ∀ record o, dictionaryRow k record = .ok (some o) → ∀ row,
        Built k .systemDictionary o.attrs row →
        (GoodStatus row ↔ StatusStored (record.get .enabledStatus (some "1"))) := by
      intro record o ho row hbuilt
      obtain ⟨-, status, hstatus, -, rfl⟩ := dictionaryRow_eq_ok.mp ho
      exact status_of_record (by decide) hbuilt hstatus rfl
    rw [csv_new_rows_iff (fun _ _ => dictionaryRow_insert)
      (fun _ => entryImported_iff) hstored hall]
    constructor
    · intro h records' hrecords'
      obtain rfl : records = records' :=
        congrArg Prod.fst (Except.ok.inj (hcsv.symm.trans hrecords'))
      exact h
    · intro h
      exact h records hcsv
  · intro hstatus
    obtain ⟨os, ⟨_, hfile, himported⟩, hall⟩ :=
      runs_of_status (importResearchTemplates_cases rfl) hstatus
    obtain rfl := Option.some.inj hfile
    rcases himported with ⟨hname, data, hjson, rfl, -⟩ | ⟨hname, records, hcsv, rfl, -⟩
    · rw [TemplatesFile, if_pos hname, json_new_rows_iff hall]
      constructor
      · intro h data' hdata'
        obtain rfl : data = data' := Loaded.value.inj (hjson.symm.trans hdata')
        exact h
      · intro h
        exact h data hjson
    · rw [TemplatesFile, hname, if_neg (by simp),
        csv_new_rows_iff (P := GoodTemplate) (fun record o ho => ?_)
        (fun _ => templateImported_iff)
          (fun record o ho row hbuilt => template_of_record ho hbuilt) hall]
      · constructor
        · intro h records' hrecords'
          obtain rfl : records = records' :=
            congrArg Prod.fst (Except.ok.inj (hcsv.symm.trans hrecords'))
          exact h
        · intro h
          exact h records hcsv
      · obtain ⟨_, _, _, _, attrs, -, -, -, -, rfl, -⟩ := templateRow_insert ho
        exact ⟨attrs, rfl⟩

/-- A CSV file with a status that is neither 0 nor 1. -/
def fifthStatus : Upload where
  filename := "entries.csv"
  json := .decodeError
  csv := .ok ([[(.systemName, some "HIS"), (.enabledStatus, some "5")]], none)

/-- A JSON file with an object that has none of the texts. -/
def blankTemplate : Upload where
  filename := "templates.json"
  json := .value (.dict [(.projectCategory, .int 1), (.projectLevel, .int 1)])
  csv := .ok ([], none)

/-- Both files are imported into a database without rows, and neither gives the rows it
    should. -/
theorem imported_rows_iff_bad :
    ¬ (∀ row, IsNew .systemDictionary (DB.ofRows [])
        (run (importSystemDictionaries .epoch (some fifthStatus)) (DB.ofRows [])).2 row →
          GoodStatus row) ∧
      ¬ ∀ row, IsNew .researchTemplate (DB.ofRows [])
        (run (importResearchTemplates .epoch (some blankTemplate)) (DB.ofRows [])).2 row →
          GoodTemplate row := by
  constructor
  · rw [(imported_rows_iff .epoch fifthStatus (DB.ofRows [])).1 (by decide +kernel)]
    intro hfile
    have himported : EntryImported [(.systemName, some "HIS"), (.enabledStatus, some "5")] :=
      entryImported_iff (k := .epoch) |>.mp ⟨_, rfl⟩
    rcases hfile _ rfl _ List.mem_cons_self himported with hnone | ⟨t, ht, hstatus⟩
    · cases hnone
    · obtain rfl := Option.some.inj ht
      revert hstatus
      decide +kernel
  · rw [(imported_rows_iff .epoch blankTemplate (DB.ofRows [])).2 (by decide +kernel)]
    intro hfile
    obtain ⟨j, s, hj, hs, hblank⟩ := (hfile _ rfl _ List.mem_cons_self ⟨_, rfl⟩).requirement
    obtain rfl : .str "" = j := Except.ok.inj hj
    obtain rfl : "" = s := Value.text.inj (Except.ok.inj hs)
    exact hblank (by decide)

/-- A row of a table that had none. -/
theorem isNew_of_mem {t : Table} {db' : DB} {row : Record} (h : row ∈ db' t) :
    IsNew t (DB.ofRows []) db' row :=
  ⟨h, fun _ hold => absurd hold List.not_mem_nil⟩

/-- **The imports answer 200 and store a status of 5 and a template without texts.** -/
theorem import_stores_bad_rows :
    ((run (importSystemDictionaries .epoch (some fifthStatus)) (DB.ofRows [])).1.status = 200 ∧
      ¬ ∀ row, IsNew .systemDictionary (DB.ofRows [])
        (run (importSystemDictionaries .epoch (some fifthStatus)) (DB.ofRows [])).2 row →
          GoodStatus row) ∧
    ((run (importResearchTemplates .epoch (some blankTemplate)) (DB.ofRows [])).1.status = 200 ∧
      ¬ ∀ row, IsNew .researchTemplate (DB.ofRows [])
        (run (importResearchTemplates .epoch (some blankTemplate)) (DB.ofRows [])).2 row →
          GoodTemplate row) := by
  refine ⟨⟨by decide +kernel, fun hgood => ?_⟩, ⟨by decide +kernel, fun hgood => ?_⟩⟩
  · have hrows : ((run (importSystemDictionaries .epoch (some fifthStatus)) (DB.ofRows [])).2
        .systemDictionary).map
        (fun row => row.cell .enabledStatus) = [.int 5] := by decide +kernel
    obtain ⟨row, hmem, hcell⟩ := List.mem_map.mp (hrows ▸ List.mem_singleton_self (Value.int 5))
    rcases hgood row (isNew_of_mem hmem) with h | h <;> rw [hcell] at h <;> cases h
  · have hrows : ((run (importResearchTemplates .epoch (some blankTemplate)) (DB.ofRows [])).2
        .researchTemplate).map
        (fun row => row.cell .standardRequirement) = [.text ""] := by decide +kernel
    obtain ⟨row, hmem, hcell⟩ := List.mem_map.mp (hrows ▸ List.mem_singleton_self (Value.text ""))
    obtain ⟨s, hs, hne⟩ := (hgood row (isNew_of_mem hmem)).requirement
    obtain rfl : "" = s := Value.text.inj (hcell.symm.trans hs)
    exact hne rfl

end ProjectEvaluation.Backend
