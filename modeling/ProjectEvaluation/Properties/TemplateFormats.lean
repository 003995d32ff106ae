import ProjectEvaluation.Properties.TemplateCsv

/-!
# Templates in JSON and in CSV files

The same texts as a list of JSON objects and as the records of a CSV file.

Results:
* `template_formats_agree_iff`: when both files leave the same database.
-/

namespace ProjectEvaluation.Backend

open Python Relational Transaction Rfc4180 Pages Sqlite

/-! ## The same texts twice -/

/-- A template given by texts; a field may be missing. -/
abbrev TextRecord := Field → Option String

namespace TextRecord

/-- The JSON object of a record. -/
def Object (r : TextRecord) (item : Json) : Prop :=
  ∀ f ∈ templateFields, item.get f = .ok ((r f).map .str)

/-- The cells of a record; a missing field is a blank one. -/
def cells (r : TextRecord) : List String := templateFields.map fun f => (r f).getD ""

/-- A cell as the reader gets it. -/
def cell (r : TextRecord) (f : Field) : String := joined ((r f).getD "")

/-- What the JSON import gives to a column. -/
def jsonOf (r : TextRecord) : Field → Json
  | .standardRequirement => (r .standardRequirement).elim (.str "") .str
  | .requirementType => (r .requirementType).elim (.str "功能要求") .str
  | .inspectionProject => (r .inspectionProject).elim (.str "") .str
  | .referenceScreenshot => (r .referenceScreenshot).elim (.str "") .str
  | .remarks => (r .remarks).elim (.str "") .str
  | .enabledStatus => (r .enabledStatus).elim (.int 1) .str
  | f => (r f).elim .null .str

/-- `int(s)` as a value; `None` where it is blank. -/
def number (s : String) : Json := (pyInt s).elim .null .int

/-- What the CSV import gives to a column. -/
def csvOf (r : TextRecord) : Field → Json
  | .standardRequirement => .str (strip (r.cell .standardRequirement))
  | .requirementType => .str (strip (r.cell .requirementType))
  | .inspectionProject => .str (strip (r.cell .inspectionProject))
  | .referenceScreenshot => .str (r.cell .referenceScreenshot)
  | .remarks => .str (r.cell .remarks)
  | .enabledStatus => if r.cell .enabledStatus = "" then .str "" else number (r.cell .enabledStatus)
  | f => number (r.cell f)

/-- The attributes of a row. -/
def attrsOf (g : Field → Json) : List (Field × Attr) := templateFields.map fun f => (f, .json (g f))

/-- The CSV import accepts a record: its numbers are numbers, where they are not blank or
    must not be, and the required texts are not blank. -/
structure Accepted (r : TextRecord) : Prop where
  required : ∀ f ∈ [Field.projectCategory, .projectLevel], pyInt (r.cell f) ≠ none
  optional : ∀ f ∈ [Field.systemName, .clauseId], strip (r.cell f) = "" ∨ pyInt (r.cell f) ≠ none
  status : r.cell .enabledStatus = "" ∨ pyInt (r.cell .enabledStatus) ≠ none
  filled : ∀ f ∈ [Field.standardRequirement, .requirementType, .inspectionProject],
    strip (r.cell f) ≠ ""

theorem accepted_iff (r : TextRecord) : r.Accepted ↔
    (∀ f ∈ [Field.projectCategory, .projectLevel], pyInt (r.cell f) ≠ none) ∧
      (∀ f ∈ [Field.systemName, .clauseId], strip (r.cell f) = "" ∨ pyInt (r.cell f) ≠ none) ∧
      (r.cell .enabledStatus = "" ∨ pyInt (r.cell .enabledStatus) ≠ none) ∧
      ∀ f ∈ [Field.standardRequirement, .requirementType, .inspectionProject],
        strip (r.cell f) ≠ "" :=
  ⟨fun h => ⟨h.required, h.optional, h.status, h.filled⟩, fun ⟨h₁, h₂, h₃, h₄⟩ => ⟨h₁, h₂, h₃, h₄⟩⟩

instance (r : TextRecord) : Decidable r.Accepted := decidable_of_iff _ r.accepted_iff.symm

/-- The numbers of a record have 64 bits. -/
def InRange (r : TextRecord) : Prop :=
  ∀ f ∈ [Field.projectCategory, .projectLevel, .systemName, .clauseId, .enabledStatus], ∀ n,
    pyInt (r.cell f) = some n → inInt64 n = true

/-- A text that `int` and SQLite read as the same number of 64 bits. -/
def SameNumber (s : String) : Prop :=
  ∃ n, inInt64 n = true ∧ pyInt (joined s) = some n ∧ applyNumericAffinity s = some (.int n)

/-- A record that both imports take for the same row. -/
structure Alike (r : TextRecord) : Prop where
  required : ∀ f ∈ [Field.projectCategory, .projectLevel], ∃ s, r f = some s ∧ SameNumber s
  optional : ∀ f ∈ [Field.systemName, .clauseId], ∀ s, r f = some s → SameNumber s
  status : ∃ s, r .enabledStatus = some s ∧ (s = "" ∨ SameNumber s)
  filled : ∀ f ∈ [Field.standardRequirement, .requirementType, .inspectionProject], ∃ s,
    r f = some s ∧ s ≠ "" ∧ strip s = s ∧ OneLine s.toList
  texts : ∀ f ∈ [Field.referenceScreenshot, .remarks], ∀ s, r f = some s → OneLine s.toList

/-! ## The CSV import of a record -/

theorem pyInt_strip (s : String) : pyInt (strip s) = pyInt s := by
  simp only [pyInt, strip, String.toList_ofList, stripChars_stripChars]

/-- `int` of a cell that may be blank. -/
theorem intOrNone_eq_ok {s : String} {a : Option Attr} :
    intOrNone (some s) = .ok a ↔
      (strip s = "" ∧ a = none) ∨ (pyInt s ≠ none ∧ a = some (.json (number s))) := by
  have hempty : strip s = "" → pyInt s = none := by
    intro hblank
    rw [← pyInt_strip, hblank]
    rfl
  unfold intOrNone
  rw [Option.getD_some]
  by_cases hblank : strip s = ""
  · rw [if_pos hblank, hempty hblank]
    simp [hblank, eq_comm]
  · rw [if_neg hblank, intAttr, pyInt_strip]
    cases hn : pyInt s with
    | none => simp [hblank, Except.map]
    | some n => simp [hblank, Except.map, number, hn, eq_comm]

/-- `int` of a cell that must not be blank. -/
theorem intOrNone_eq_some {s : String} {a : Attr} :
    intOrNone (some s) = .ok (some a) ↔ pyInt s ≠ none ∧ a = .json (number s) := by
  simp [intOrNone_eq_ok]

theorem intUnlessEmpty_eq_ok {s : String} {a : Attr} :
    intUnlessEmpty (some s) = .ok a ↔
      (s = "" ∨ pyInt s ≠ none) ∧ a = .json (if s = "" then .str "" else number s) := by
  unfold intUnlessEmpty
  by_cases hempty : s = ""
  · subst hempty
    simp [present, textAttr, eq_comm]
  · have hpresent : present (some s) = true := by simp [present, hempty]
    rw [if_pos hpresent, Option.getD_some, intAttr]
    cases hn : pyInt s with
    | none => simp [hempty]
    | some n => simp [hempty, number, hn, eq_comm]

theorem stripped_eq_ok {s t : String} : stripped (some s) = .ok t ↔ t = strip s := by
  rw [stripped, Except.ok.injEq, eq_comm]

/-- **The CSV import of a record.** -/
theorem accepted_cells (k : Clock) (r : TextRecord) :
    Backend.accepted k (r.cells.map fun s => joinLines s.toList) =
      if r.Accepted then some (.insert k .researchTemplate (attrsOf r.csvOf)) else none := by
  have hcolumn : ∀ i f, templateFields[i]? = some f →
      column (r.cells.map fun s => joinLines s.toList) i = some (r.cell f) := by
    intro i f hf
    rw [column, List.getElem?_map, cells, List.getElem?_map, hf]
    rfl
  have hspec : ∀ o, Backend.accepted k (r.cells.map fun s => joinLines s.toList) = some o ↔
      r.Accepted ∧ o = .insert k .researchTemplate (attrsOf r.csvOf) := by
    intro o
    obtain ⟨h₀, h₁, h₂, h₃, h₄, h₅, h₆, h₇, h₈, h₉⟩ :=
      dictRow_get (r.cells.map fun s => joinLines s.toList)
    rw [Backend.accepted, unlessRaised_eq_some, templateRow_eq_ok]
    simp only [h₀, h₁, h₂, h₃, h₄, h₅, h₆, h₇, h₈, h₉, hcolumn 0 _ rfl, hcolumn 1 _ rfl,
      hcolumn 2 _ rfl, hcolumn 3 _ rfl, hcolumn 4 _ rfl, hcolumn 5 _ rfl, hcolumn 6 _ rfl,
      hcolumn 7 _ rfl, hcolumn 8 _ rfl, hcolumn 9 _ rfl, intOrNone_eq_some, intUnlessEmpty_eq_ok,
      stripped_eq_ok]
    simp only [intOrNone_eq_ok]
    have hnumber : ∀ s x,
        ((strip s = "" ∧ x = none) ∨ (pyInt s ≠ none ∧ x = some (Attr.json (number s)))) →
        x.getD (.json .null) = Attr.json (number s) := by
      rintro s x (⟨hblank, rfl⟩ | ⟨-, rfl⟩)
      · rw [number, ← pyInt_strip, hblank]
        rfl
      · rfl
    constructor
    · rintro ⟨-, category, level, system, clause, status, requirement, type, inspection,
        ⟨hcategory, rfl⟩, ⟨hlevel, rfl⟩, hsystem, hclause, ⟨hstatus, rfl⟩, rfl, rfl, rfl,
        hblank, rfl⟩
      simp only [not_or] at hblank
      refine ⟨⟨?_, ?_, hstatus, ?_⟩, ?_⟩
      · simpa using ⟨hcategory, hlevel⟩
      · simpa using ⟨hsystem.imp And.left And.left, hclause.imp And.left And.left⟩
      · simpa using hblank
      · rw [hnumber _ _ hsystem, hnumber _ _ hclause]
        rfl
    · rintro ⟨haccepted, rfl⟩
      have hoption : ∀ f ∈ [Field.systemName, .clauseId], ∃ x : Option Attr,
          (strip (r.cell f) = "" ∧ x = none) ∨
          (pyInt (r.cell f) ≠ none ∧ x = some (.json (number (r.cell f)))) := by
        intro f hf
        rcases haccepted.optional f hf with hblank | hread
        · exact ⟨none, Or.inl ⟨hblank, rfl⟩⟩
        · exact ⟨_, Or.inr ⟨hread, rfl⟩⟩
      obtain ⟨system, hsystem⟩ := hoption .systemName (by simp)
      obtain ⟨clause, hclause⟩ := hoption .clauseId (by simp)
      have hcategory := haccepted.required .projectCategory (by simp)
      have hfilled := haccepted.filled
      simp only [List.mem_cons, List.not_mem_nil, or_false, forall_eq_or_imp, forall_eq] at hfilled
      refine ⟨?_, _, _, system, clause, _, _, _, _, ⟨hcategory, rfl⟩,
        ⟨haccepted.required .projectLevel (by simp), rfl⟩, hsystem, hclause,
        ⟨haccepted.status, rfl⟩, rfl, rfl, rfl, ?_, ?_⟩
      · intro hdescription
        have hnone : pyInt "项目类别ID(evaluation_type_id)" = none := by decide +kernel
        rw [Option.some.inj hdescription] at hcategory
        exact hcategory hnone
      · rintro (hblank | hblank | hblank)
        · exact hfilled.1 hblank
        · exact hfilled.2.1 hblank
        · exact hfilled.2.2 hblank
      · rw [hnumber _ _ hsystem, hnumber _ _ hclause]
        rfl
  split_ifs with haccepted
  · exact (hspec _).mpr ⟨haccepted, rfl⟩
  · exact Option.eq_none_iff_forall_ne_some.mpr fun o ho => haccepted ((hspec o).mp ho).1

/-! ## Values -/

theorem initial_attrsOf (k : Clock) (g : Field → Json) {c : Column}
    (hc : c ∈ Table.researchTemplate.columns)
    (hg : c.default = none ∨ g c.field ≠ .null) : c.initial k (attrsOf g) = bindJson c.type
    (g c.field) := by
  have hlookup : (attrsOf g).lookup c.field = some (.json (g c.field)) := by
    simp only [Table.columns, List.mem_cons, List.not_mem_nil, or_false] at hc
    rcases hc with rfl | rfl | rfl | rfl | rfl | rfl | rfl | rfl | rfl | rfl <;> rfl
  refine Column.initial_eq_bind k hlookup (hg.imp_right fun hnull => ?_)
  cases hvalue : g c.field <;> first | rfl | exact absurd hvalue hnull

theorem textAsInteger_ne_null (s : String) : textAsInteger s ≠ .null := by
  unfold textAsInteger
  cases applyNumericAffinity s with
  | none => simp
  | some number => cases number <;> simp [Value.ofNumber]

theorem textAsInteger_eq_int {s : String} {n : ℤ} :
    textAsInteger s = .int n ↔ applyNumericAffinity s = some (.int n) := by
  unfold textAsInteger
  cases applyNumericAffinity s with
  | none => simp
  | some number => cases number <;> simp [Value.ofNumber]

theorem textAsInteger_eq_empty {s : String} : textAsInteger s = .text "" ↔ s = "" := by
  constructor
  · intro h
    unfold textAsInteger at h
    cases hnumber : applyNumericAffinity s with
    | none =>
      rw [hnumber] at h
      exact Value.text.inj h
    | some number =>
      rw [hnumber] at h
      cases number <;> cases h
  · rintro rfl
    rfl

/-- The number of a cell. -/
theorem bind_number (s : String) :
    bindJson .integer (number s) =
      match pyInt s with
      | none => .ok .null
      | some n => if inInt64 n then .ok (.int n) else .error .overflowError := by
  unfold number
  cases pyInt s <;> rfl

/-- A number that may be missing. -/
theorem same_number_iff (x : Option String) :
    (∃ v, bindJson .integer (x.elim .null .str) = .ok v ∧
      bindJson .integer (number (joined (x.getD ""))) = .ok v) ↔
      ∀ s, x = some s → SameNumber s := by
  cases x with
  | none => exact iff_of_true ⟨.null, rfl, rfl⟩ fun s hs => (nomatch hs)
  | some s =>
    have hjson : bindJson .integer (.str s) = .ok (textAsInteger s) := rfl
    simp only [Option.elim_some, hjson, Option.getD_some, Option.some.injEq, forall_eq',
      Except.ok.injEq, exists_eq_left', bind_number]
    unfold SameNumber
    cases hn : pyInt (joined s) with
    | none => simpa using (textAsInteger_ne_null s).symm
    | some n =>
      by_cases hfits : inInt64 n = true
      · simp only [hfits, if_true, Except.ok.injEq, eq_comm (a := Value.int n),
          textAsInteger_eq_int]
        simp [hfits]
      · simp [hfits]

theorem cell_none {r : TextRecord} {f : Field} (h : r f = none) : r.cell f = "" := by
  rw [cell, h]
  rfl

theorem cell_some {r : TextRecord} {f : Field} {s : String} (h : r f = some s) :
    r.cell f = joined s := by
  rw [cell, h]
  rfl

theorem joined_oneLine (s : String) : OneLine (joined s).toList := by
  intro c hc
  rw [joined, String.toList_ofList] at hc
  simpa using (List.mem_filter.mp hc).2

theorem oneLine_strip {s : String} (h : OneLine s.toList) : OneLine (strip s).toList := by
  rw [strip, String.toList_ofList]
  exact h.strip

/-- A text that must not be blank. -/
theorem same_text_iff {x : Option String} {s : String} (hfilled : strip (joined (x.getD "")) ≠ "")
    (hs : x = some s) :
    s = strip (joined s) ↔ s ≠ "" ∧ strip s = s ∧ OneLine s.toList := by
  subst hs
  constructor
  · intro h
    refine ⟨fun hempty => hfilled ?_, ?_, ?_⟩
    · rw [Option.getD_some, ← h, hempty]
    · rw [h, strip_strip]
    · rw [h]
      exact oneLine_strip (joined_oneLine s)
  · rintro ⟨-, hstrip, hone⟩
    rw [joined_of_oneLine hone, hstrip]

/-- The two imports give the same value to a column. -/
def SameValue (r : TextRecord) (c : Column) : Prop :=
  ∃ v, bindJson c.type (r.jsonOf c.field) = .ok v ∧ bindJson c.type (r.csvOf c.field) = .ok v

/-- **Alike.** Both imports take the record, and give the same values to its columns. -/
theorem alike_iff (r : TextRecord) :
    r.Alike ↔ r.Accepted ∧ ∀ c ∈ Table.researchTemplate.columns, r.SameValue c := by
  have htext : ∀ s t : String,
      (∃ v, bindJson .string (.str s) = .ok v ∧ bindJson .string (.str t) = .ok v) ↔ s = t := by
    intro s t
    simp [bindJson, eq_comm]
  constructor
  · intro h
    have haccepted : r.Accepted := by
      refine ⟨fun f hf => ?_, fun f hf => ?_, ?_, fun f hf => ?_⟩
      · obtain ⟨s, hs, n, -, hn, -⟩ := h.required f hf
        rw [cell_some hs, hn]
        simp
      · cases hs : r f with
        | none => exact Or.inl (by rw [cell_none hs]; rfl)
        | some s =>
          obtain ⟨n, -, hn, -⟩ := h.optional f hf s hs
          rw [cell_some hs, hn]
          exact Or.inr (by simp)
      · obtain ⟨s, hs, rfl | ⟨n, -, hn, -⟩⟩ := h.status
        · exact Or.inl (by rw [cell_some hs]; rfl)
        · rw [cell_some hs, hn]
          exact Or.inr (by simp)
      · obtain ⟨s, hs, hne, hstrip, hone⟩ := h.filled f hf
        rw [cell_some hs, joined_of_oneLine hone, hstrip]
        exact hne
    refine ⟨haccepted, fun c hc => ?_⟩
    have hnumber : ∀ f, (∀ s, r f = some s → SameNumber s) →
        ∃ v, bindJson .integer ((r f).elim .null .str) = .ok v ∧
          bindJson .integer (number (r.cell f)) = .ok v :=
      fun f hf => (same_number_iff (r f)).mpr hf
    have hrequired : ∀ f ∈ [Field.projectCategory, .projectLevel], ∀ s,
        r f = some s → SameNumber s := by
      intro f hf s hs
      obtain ⟨t, ht, hsame⟩ := h.required f hf
      rw [hs] at ht
      cases ht
      exact hsame
    have hfilled : ∀ f ∈ [Field.standardRequirement, .requirementType, .inspectionProject], ∀ d,
        ∃ v, bindJson .string ((r f).elim d .str) = .ok v ∧
        bindJson .string (.str (strip (r.cell f))) = .ok v := by
      intro f hf d
      obtain ⟨s, hs, hne, hstrip, hone⟩ := h.filled f hf
      rw [hs, Option.elim_some, htext, cell_some hs, joined_of_oneLine hone, hstrip]
    have htexts : ∀ f ∈ [Field.referenceScreenshot, .remarks],
        ∃ v, bindJson .string ((r f).elim (.str "") .str) = .ok v ∧
        bindJson .string (.str (r.cell f)) = .ok v := by
      intro f hf
      cases hs : r f with
      | none => rw [Option.elim_none, htext, cell_none hs]
      | some s => rw [Option.elim_some, htext, cell_some hs, joined_of_oneLine (h.texts f hf s hs)]
    simp only [Table.columns, List.mem_cons, List.not_mem_nil, or_false] at hc
    rcases hc with rfl | rfl | rfl | rfl | rfl | rfl | rfl | rfl | rfl | rfl
    · exact hnumber _ (hrequired .projectCategory (by simp))
    · exact hnumber _ (hrequired .projectLevel (by simp))
    · exact hnumber _ (h.optional .systemName (by simp))
    · exact hfilled .standardRequirement (by simp) _
    · exact hfilled .requirementType (by simp) _
    · exact hfilled .inspectionProject (by simp) _
    · exact htexts .referenceScreenshot (by simp)
    · exact htexts .remarks (by simp)
    · exact hnumber _ (h.optional .clauseId (by simp))
    · obtain ⟨s, hs, rfl | hsame⟩ := h.status
      · refine ⟨.text "", ?_, ?_⟩
        · change bindJson .integer ((r .enabledStatus).elim (.int 1) .str) = _
          rw [hs]
          rfl
        · change bindJson .integer (if r.cell .enabledStatus = "" then .str ""
            else number (r.cell .enabledStatus)) = _
          rw [cell_some hs]
          rfl
      · obtain ⟨v, hjson, hcsv⟩ :=
          (same_number_iff (some s)).mpr fun t ht => by cases ht; exact hsame
        refine ⟨v, ?_, ?_⟩
        · change bindJson .integer ((r .enabledStatus).elim (.int 1) .str) = _
          rw [hs]
          exact hjson
        · change bindJson .integer (if r.cell .enabledStatus = "" then .str ""
            else number (r.cell .enabledStatus)) = _
          have hne : joined s ≠ "" := by
            obtain ⟨n, -, hn, -⟩ := hsame
            intro hempty
            rw [hempty] at hn
            cases hn
          rw [cell_some hs, if_neg hne]
          exact hcsv
  · rintro ⟨haccepted, hsame⟩
    have hnumber : ∀ f, (∃ v, bindJson .integer ((r f).elim .null .str) = .ok v ∧
        bindJson .integer (number (r.cell f)) = .ok v) → ∀ s, r f = some s → SameNumber s :=
      fun f hf => (same_number_iff (r f)).mp hf
    have hrequired : ∀ f ∈ [Field.projectCategory, .projectLevel], (∃ v,
        bindJson .integer ((r f).elim .null .str) = .ok v ∧
        bindJson .integer (number (r.cell f)) = .ok v) →
        ∃ s, r f = some s ∧ SameNumber s := by
      intro f hf hvalue
      cases hs : r f with
      | none =>
        have hread := haccepted.required f hf
        rw [cell_none hs] at hread
        exact absurd rfl hread
      | some s => exact ⟨s, rfl, hnumber f hvalue s hs⟩
    have hfilled : ∀ f ∈ [Field.standardRequirement, .requirementType, .inspectionProject], ∀ d,
        (∃ v, bindJson .string ((r f).elim d .str) = .ok v ∧
          bindJson .string (.str (strip (r.cell f))) = .ok v) →
        ∃ s, r f = some s ∧ s ≠ "" ∧ strip s = s ∧ OneLine s.toList := by
      intro f hf d hvalue
      have hne := haccepted.filled f hf
      cases hs : r f with
      | none =>
        rw [cell_none hs] at hne
        exact absurd rfl hne
      | some s =>
        rw [hs, Option.elim_some, htext, cell_some hs] at hvalue
        rw [cell_some hs] at hne
        exact ⟨s, rfl, (same_text_iff (x := some s) hne rfl).mp hvalue⟩
    have htexts : ∀ f ∈ [Field.referenceScreenshot, .remarks],
        (∃ v, bindJson .string ((r f).elim (.str "") .str) = .ok v ∧
          bindJson .string (.str (r.cell f)) = .ok v) →
        ∀ s, r f = some s → OneLine s.toList := by
      intro f hf hvalue s hs
      rw [hs, Option.elim_some, htext, cell_some hs] at hvalue
      rw [hvalue]
      exact joined_oneLine s
    refine ⟨fun f hf => ?_, fun f hf => ?_, ?_, fun f hf => ?_, fun f hf => ?_⟩
    · have hcolumn := hrequired f hf
      simp only [List.mem_cons, List.not_mem_nil, or_false] at hf
      rcases hf with rfl | rfl
      · exact hcolumn (hsame _ (List.mem_of_getElem? (i := 0) rfl))
      · exact hcolumn (hsame _ (List.mem_of_getElem? (i := 1) rfl))
    · simp only [List.mem_cons, List.not_mem_nil, or_false] at hf
      rcases hf with rfl | rfl
      · exact hnumber _ (hsame _ (List.mem_of_getElem? (i := 2) rfl))
      · exact hnumber _ (hsame _ (List.mem_of_getElem? (i := 8) rfl))
    · obtain ⟨v, hjson, hcsv⟩ := hsame _ (List.mem_of_getElem? (i := 9) rfl)
      change bindJson .integer ((r .enabledStatus).elim (.int 1) .str) = _ at hjson
      change bindJson .integer (if r.cell .enabledStatus = "" then .str ""
        else number (r.cell .enabledStatus)) = _
        at hcsv
      cases hs : r .enabledStatus with
      | none =>
        rw [hs] at hjson
        rw [cell_none hs] at hcsv
        cases hjson
        exact absurd hcsv (by decide)
      | some s =>
        refine ⟨s, rfl, ?_⟩
        rw [hs] at hjson
        rw [cell_some hs] at hcsv
        by_cases hempty : joined s = ""
        · rw [if_pos hempty] at hcsv
          have hvalue : textAsInteger s = .text "" := Except.ok.inj (hjson.trans hcsv.symm)
          exact Or.inl (textAsInteger_eq_empty.mp hvalue)
        · rw [if_neg hempty] at hcsv
          exact Or.inr ((same_number_iff (some s)).mp ⟨v, hjson, hcsv⟩ s rfl)
    · have hcolumn := hfilled f hf
      simp only [List.mem_cons, List.not_mem_nil, or_false] at hf
      rcases hf with rfl | rfl | rfl
      · exact hcolumn _ (hsame _ (List.mem_of_getElem? (i := 3) rfl))
      · exact hcolumn _ (hsame _ (List.mem_of_getElem? (i := 4) rfl))
      · exact hcolumn _ (hsame _ (List.mem_of_getElem? (i := 5) rfl))
    · have hcolumn := htexts f hf
      simp only [List.mem_cons, List.not_mem_nil, or_false] at hf
      rcases hf with rfl | rfl
      · exact hcolumn (hsame _ (List.mem_of_getElem? (i := 6) rfl))
      · exact hcolumn (hsame _ (List.mem_of_getElem? (i := 7) rfl))

/-- The JSON import can store a record that has a category and a level. -/
theorem json_stores_iff (r : TextRecord) :
    (∀ c ∈ Table.researchTemplate.columns, ∃ v, bindJson c.type (r.jsonOf c.field) = .ok v ∧
      (v = .null → c.nullable = true)) ↔ r .projectCategory ≠ none ∧ r .projectLevel ≠ none := by
  have hnumber : ∀ f, ∃ v, bindJson .integer ((r f).elim .null .str) = .ok v ∧
      (v = .null ↔ r f = none) := by
    intro f
    cases r f with
    | none => exact ⟨.null, rfl, by simp⟩
    | some s => exact ⟨textAsInteger s, rfl, by simp [textAsInteger_ne_null]⟩
  have htext : ∀ f d, ∃ v, bindJson .string ((r f).elim (.str d) .str) = .ok v ∧ v ≠ .null := by
    intro f d
    cases r f with
    | none => exact ⟨.text d, rfl, by simp⟩
    | some s => exact ⟨.text s, rfl, by simp⟩
  have hrequired : ∀ f,
      (∃ v, bindJson .integer ((r f).elim .null .str) = .ok v ∧ (v = .null → false = true)) ↔
      r f ≠ none := by
    intro f
    obtain ⟨v, hv, hnull⟩ := hnumber f
    rw [hv]
    simp only [Except.ok.injEq, exists_eq_left', Bool.false_eq_true, imp_false]
    exact not_congr hnull
  constructor
  · intro h
    exact ⟨(hrequired _).mp (h _ (List.mem_of_getElem? (i := 0) rfl)),
      (hrequired _).mp (h _ (List.mem_of_getElem? (i := 1) rfl))⟩
  · rintro ⟨hcategory, hlevel⟩ c hc
    have hoptional : ∀ f, ∃ v, bindJson .integer ((r f).elim .null .str) = .ok v ∧
        (v = .null → true = true) := by
      intro f
      obtain ⟨v, hv, -⟩ := hnumber f
      exact ⟨v, hv, fun _ => rfl⟩
    have hfilled : ∀ f d (nullable : Bool), ∃ v,
        bindJson .string ((r f).elim (.str d) .str) = .ok v ∧
        (v = .null → nullable = true) := by
      intro f d nullable
      obtain ⟨v, hv, hne⟩ := htext f d
      exact ⟨v, hv, fun hnull => absurd hnull hne⟩
    simp only [Table.columns, List.mem_cons, List.not_mem_nil, or_false] at hc
    rcases hc with rfl | rfl | rfl | rfl | rfl | rfl | rfl | rfl | rfl | rfl
    · exact (hrequired _).mpr hcategory
    · exact (hrequired _).mpr hlevel
    · exact hoptional .systemName
    · exact hfilled .standardRequirement _ _
    · exact hfilled .requirementType _ _
    · exact hfilled .inspectionProject _ _
    · exact hfilled .referenceScreenshot _ _
    · exact hfilled .remarks _ _
    · exact hoptional .clauseId
    · change ∃ v, bindJson .integer ((r .enabledStatus).elim (.int 1) .str) = .ok v ∧
        (v = .null → false = true)
      cases r .enabledStatus with
      | none => exact ⟨.int 1, rfl, by simp⟩
      | some s => exact ⟨textAsInteger s, rfl, fun hnull => absurd hnull (textAsInteger_ne_null s)⟩

/-- The CSV import can store a record it accepts, if its numbers are in their range. -/
theorem csv_stores_iff {r : TextRecord} (h : r.Accepted) :
    (∀ c ∈ Table.researchTemplate.columns, ∃ v, bindJson c.type (r.csvOf c.field) = .ok v ∧
      (v = .null → c.nullable = true)) ↔ r.InRange := by
  have hnumber : ∀ (s : String) (nullable : Bool), (pyInt s = none → nullable = true) →
      ((∃ v, bindJson .integer (number s) = .ok v ∧ (v = .null → nullable = true)) ↔
        ∀ n, pyInt s = some n → inInt64 n = true) := by
    intro s nullable hnull
    rw [bind_number]
    cases hn : pyInt s with
    | none => simp [hnull hn]
    | some n => by_cases hfits : inInt64 n = true <;> simp [hfits]
  have hrequired : ∀ f ∈ [Field.projectCategory, .projectLevel],
      pyInt (r.cell f) = none → false = true :=
    fun f hf hnone => absurd hnone (h.required f hf)
  have hstatus : (∃ v, bindJson .integer (if r.cell .enabledStatus = "" then .str ""
      else number (r.cell .enabledStatus)) = .ok v ∧ (v = .null → false = true)) ↔
        ∀ n, pyInt (r.cell .enabledStatus) = some n → inInt64 n = true := by
    by_cases hempty : r.cell .enabledStatus = ""
    · rw [if_pos hempty, hempty]
      exact iff_of_true ⟨.text "", rfl, by simp⟩ fun n hn => by cases hn
    · rw [if_neg hempty]
      exact hnumber _ _ fun hnone => absurd hnone (h.status.resolve_left hempty)
  have hcategory := hnumber (r.cell .projectCategory) false (hrequired _ (by simp))
  have hlevel := hnumber (r.cell .projectLevel) false (hrequired _ (by simp))
  have hsystem := hnumber (r.cell .systemName) true fun _ => rfl
  have hclause := hnumber (r.cell .clauseId) true fun _ => rfl
  constructor
  · intro hstores f hf
    simp only [List.mem_cons, List.not_mem_nil, or_false] at hf
    rcases hf with rfl | rfl | rfl | rfl | rfl
    · have hstored := hstores _ (List.mem_of_getElem? (i := 0) rfl)
      exact hcategory.mp hstored
    · have hstored := hstores _ (List.mem_of_getElem? (i := 1) rfl)
      exact hlevel.mp hstored
    · have hstored := hstores _ (List.mem_of_getElem? (i := 2) rfl)
      exact hsystem.mp hstored
    · have hstored := hstores _ (List.mem_of_getElem? (i := 8) rfl)
      exact hclause.mp hstored
    · have hstored := hstores _ (List.mem_of_getElem? (i := 9) rfl)
      exact hstatus.mp hstored
  · intro hrange c hc
    have htext : ∀ (s : String) (nullable : Bool), ∃ v, bindJson .string (.str s) = .ok v ∧
        (v = .null → nullable = true) := fun s nullable => ⟨.text s, rfl, by simp⟩
    simp only [Table.columns, List.mem_cons, List.not_mem_nil, or_false] at hc
    rcases hc with rfl | rfl | rfl | rfl | rfl | rfl | rfl | rfl | rfl | rfl
    · exact hcategory.mpr (hrange .projectCategory (by simp))
    · exact hlevel.mpr (hrange .projectLevel (by simp))
    · exact hsystem.mpr (hrange .systemName (by simp))
    · exact htext _ _
    · exact htext _ _
    · exact htext _ _
    · exact htext _ _
    · exact htext _ _
    · exact hclause.mpr (hrange .clauseId (by simp))
    · exact hstatus.mpr (hrange .enabledStatus (by simp))

/-! ## The JSON import of a record -/

/-- **The JSON import of a record.** -/
theorem templateItem_object (k : Clock) {r : TextRecord} {item : Json} (h : r.Object item) :
    templateItem k item = .ok (.insert k .researchTemplate (attrsOf r.jsonOf)) := by
  have hget : ∀ f ∈ templateFields, ∀ d, item.getD f d = .ok ((r f).elim d .str) := by
    intro f hf d
    rw [Json.getD, h f hf]
    cases r f <;> rfl
  simp only [templateFields, List.forall_mem_cons, List.not_mem_nil, false_imp_iff, implies_true,
    and_true] at hget
  obtain ⟨h₀, h₁, h₂, h₃, h₄, h₅, h₆, h₇, h₈, h₉⟩ := hget
  simp only [templateItem, importSources, construct, Source.eval, h₀, h₁, h₂, h₃, h₄, h₅,
    h₆, h₇, h₈, h₉]
  rfl

theorem jsonOps_objects (k : Clock) {records : List TextRecord} {items : List Json}
    (h : List.Forall₂ Object records items) :
    jsonOps k (.list items) =
      (records.map fun r => attrsOf r.jsonOf).map (.insert k .researchTemplate) := by
  induction h with
  | nil => rfl
  | cons hitem _ ih =>
    simp only [jsonOps] at ih ⊢
    rw [List.filterMap_cons, templateItem_object k hitem, ih]
    rfl

end TextRecord

/-! ## The two files -/

/-- A document under the headings. -/
def headedFile (e : LineEnd) (doc : Document) : List Char :=
  templateHeading ++ (e.chars ++ doc.render)

/-- The cells of a record have room in the reader. -/
def TextRecord.HasRoom (r : TextRecord) : Prop :=
  ∀ s ∈ r.cells, (joinLines s.toList).length ≤ fieldLimit

/-- The fields the reader gets of a record. -/
def TextRecord.fields (r : TextRecord) : CsvFields := r.cells.map fun s => joinLines s.toList

theorem fieldsOf_record {r : TextRecord} {written : List Cell}
    (h : texts written = r.cells.map String.toList) :
    fieldsOf written = r.fields := by
  rw [fieldsOf_texts, h, List.map_map]
  rfl

/-- The fields of a record have room where its cells have. -/
theorem fits_iff {r : TextRecord} {written : List Cell}
    (h : texts written = r.cells.map String.toList) :
    (∀ cell ∈ written, Fits cell) ↔ r.HasRoom := by
  have hfits : (∀ cell ∈ written, Fits cell) ↔ ∀ text ∈ texts written,
      (joinLines text).length ≤ fieldLimit := by
    rw [texts, List.forall_mem_map]
    rfl
  rw [hfits, h, List.forall_mem_map]
  rfl

/-- The rows of the records a CSV import accepts. -/
def csvRows (records : List TextRecord) : List (List (Field × Attr)) :=
  (records.filter fun r => decide r.Accepted).map fun r => TextRecord.attrsOf r.csvOf

theorem csvOps_records (k : Clock) (records : List TextRecord) :
    csvOps (templateRow k) ((records.map TextRecord.fields).map (dictRow templateFields)) =
      (csvRows records).map (.insert k .researchTemplate) := by
  have hmap : csvOps (templateRow k)
      ((records.map TextRecord.fields).map (dictRow templateFields)) =
      records.filterMap fun r => accepted k r.fields := by
    rw [csvOps, List.filterMap_map, List.filterMap_map]
    rfl
  rw [hmap, csvRows]
  clear hmap
  induction records with
  | nil => rfl
  | cons r records ih =>
    rw [List.filterMap_cons, TextRecord.fields, r.accepted_cells k, ih, List.filter_cons]
    by_cases haccepted : r.Accepted
    · simp only [haccepted, if_true, decide_true, List.map_cons]
    · simp only [haccepted, if_false, decide_false, Bool.false_eq_true]

/-- **The import of the CSV file.** -/
theorem run_headedFile (k : Clock) {file : Upload} (hname : endsWith file.filename ".csv" = true)
    {e : LineEnd}
    {doc : Document} {records : List TextRecord}
    (hfile : file.csv = .ok (dictReader (splitLines (headedFile e doc))))
    (hdoc : doc.records.map texts = records.map fun r => r.cells.map String.toList)
    (hquoted : ∀ cells ∈ doc.records, ∀ cell ∈ cells, Intact cell) (db : DB) :
    ((∀ r ∈ records, r.HasRoom) → (run (importResearchTemplates k (some file)) db).2 =
      imported db none
        (applyAll applyOp ((csvRows records).map (.insert k .researchTemplate)) db)) ∧
    ((∃ r ∈ records, ¬ r.HasRoom) → (run (importResearchTemplates k (some file)) db).2 = db) := by
  have hpairs : List.Forall₂
      (fun (r : TextRecord) written => texts written = r.cells.map String.toList) records
      doc.records := by
    have hsame : List.Forall₂ Eq (doc.records.map texts)
        (records.map fun r => r.cells.map String.toList) := by
      rw [List.forall₂_eq_eq_eq]
      exact hdoc
    rw [List.forall₂_map_left_iff, List.forall₂_map_right_iff] at hsame
    exact hsame.flip
  have hlength : ∀ written ∈ doc.records, written.length = 10 := by
    intro written hmem
    obtain ⟨r, -, hwritten⟩ := exists_of_forall₂ hpairs.flip written hmem
    have hsame := congrArg List.length hwritten
    rw [texts, List.length_map, List.length_map] at hsame
    exact hsame
  have hne : ∀ written ∈ doc.records, written ≠ [] := fun written hmem =>
    List.ne_nil_of_length_pos (by rw [hlength written hmem]; norm_num)
  rw [headedFile, dictReader_of_headings heading_oneLine heading_parse, feed_document hne,
    heading_named] at hfile
  rw [run_importCsv k hname hfile]
  constructor
  · intro hroom
    have hread : readRecords doc.records = (doc.records.map fieldsOf, .ok .start) := by
      refine readRecords_intact fun written hmem =>
        ⟨by rw [hlength written hmem]; norm_num, fun cell hcell => ?_⟩
      obtain ⟨r, hr, hwritten⟩ := exists_of_forall₂ hpairs.flip written hmem
      exact ⟨hquoted written hmem cell hcell, (fits_iff hwritten).mpr (hroom r hr) cell hcell⟩
    have hfields : doc.records.map fieldsOf = records.map TextRecord.fields := by
      rw [← List.forall₂_eq_eq_eq, List.forall₂_map_left_iff, List.forall₂_map_right_iff]
      exact hpairs.flip.imp fun written r hwritten => fieldsOf_record hwritten
    have hfinish : finish (records.map TextRecord.fields, .ok Reader.start) =
        (records.map TextRecord.fields, none) := by
      simp [finish, Reader.start]
    rw [hread, hfields, hfinish, csvOps_records]
  · rintro ⟨r, hr, hlong⟩
    obtain ⟨written, hmem, hwritten⟩ := exists_of_forall₂ hpairs r hr
    have hcell : ∃ cell ∈ written, ¬ Fits cell := by
      by_contra hall
      push Not at hall
      exact hlong ((fits_iff hwritten).mp hall)
    have hraised := readRecords_long
      (fun written hmem => ⟨by rw [hlength written hmem]; norm_num, hquoted written hmem⟩)
        ⟨written, hmem, hcell⟩
    have hfinish : (finish (readRecords doc.records)).2 = some .csvError := by
      rcases hread : readRecords doc.records with ⟨rows, x⟩
      rw [hread] at hraised
      rw [show x = .error .csvError from hraised]
      rfl
    rw [hfinish]
    rfl

/-- The rows of the items of a JSON import. -/
def jsonRows (records : List TextRecord) : List (List (Field × Attr)) :=
  records.map fun r => TextRecord.attrsOf r.jsonOf

/-- **The import of the JSON file.** -/
theorem run_listFile (k : Clock) {file : Upload} (hname : endsWith file.filename ".json" = true)
    {records : List TextRecord} {items : List Json} (hfile : file.json = .value (.list items))
    (hitems : List.Forall₂ TextRecord.Object records items) (db : DB) :
    (run (importResearchTemplates k (some file)) db).2 =
      imported db none
        (applyAll applyOp ((jsonRows records).map (.insert k .researchTemplate)) db) := by
  rw [run_importJson k hname hfile, TextRecord.jsonOps_objects k hitems]
  rfl

/-! ## When both agree -/

theorem initial_jsonOf (k : Clock) (r : TextRecord) {c : Column}
    (hc : c ∈ Table.researchTemplate.columns) :
    c.initial k (TextRecord.attrsOf r.jsonOf) = bindJson c.type (r.jsonOf c.field) := by
  refine TextRecord.initial_attrsOf k _ hc ?_
  simp only [Table.columns, List.mem_cons, List.not_mem_nil, or_false] at hc
  rcases hc with rfl | rfl | rfl | rfl | rfl | rfl | rfl | rfl | rfl | rfl
  all_goals try exact Or.inl rfl
  refine Or.inr ?_
  change (r .enabledStatus).elim (Json.int 1) Json.str ≠ Json.null
  cases r .enabledStatus <;> simp

theorem initial_csvOf (k : Clock) {r : TextRecord} (h : r.Accepted) {c : Column}
    (hc : c ∈ Table.researchTemplate.columns) :
    c.initial k (TextRecord.attrsOf r.csvOf) = bindJson c.type (r.csvOf c.field) := by
  refine TextRecord.initial_attrsOf k _ hc ?_
  simp only [Table.columns, List.mem_cons, List.not_mem_nil, or_false] at hc
  rcases hc with rfl | rfl | rfl | rfl | rfl | rfl | rfl | rfl | rfl | rfl
  all_goals try exact Or.inl rfl
  refine Or.inr ?_
  change (if r.cell .enabledStatus = "" then Json.str ""
    else TextRecord.number (r.cell .enabledStatus)) ≠ .null
  split_ifs with hempty
  · simp
  · obtain ⟨n, hn⟩ := Option.ne_none_iff_exists'.mp (h.status.resolve_left hempty)
    simp [TextRecord.number, hn]

/-- The JSON import refuses the whole list: a record has no category or no level, or the
    keys run out. -/
def JsonRefuses (records : List TextRecord) (db : DB) : Prop :=
  (∃ r ∈ records, r .projectCategory = none ∨ r .projectLevel = none) ∨
    (records ≠ [] ∧ 2 ^ 63 < nextId (db .researchTemplate) + records.length)

/-- The CSV import adds no row: a cell is too long, no record is accepted, a number of an
    accepted record is too large, or the keys run out. -/
def CsvAddsNothing (records : List TextRecord) (db : DB) : Prop :=
  (∃ r ∈ records, ¬ r.HasRoom) ∨ (∀ r ∈ records, ¬ r.Accepted) ∨
    (∃ r ∈ records, r.Accepted ∧ ¬ r.InRange) ∨
    2 ^ 63 < nextId (db .researchTemplate) + (csvRows records).length

theorem jsonRows_succeed (k : Clock) (records : List TextRecord) (db : DB) :
    (∃ db', applyAll applyOp ((jsonRows records).map (.insert k .researchTemplate)) db = .ok db') ↔
      ¬ JsonRefuses records db := by
  have hcolumns : (∀ attrs ∈ jsonRows records, ∀ c ∈ Table.researchTemplate.columns, ∃ v,
      c.initial k attrs = .ok v ∧ (v = .null → c.nullable = true)) ↔
        ∀ r ∈ records, r .projectCategory ≠ none ∧ r .projectLevel ≠ none := by
    rw [jsonRows, List.forall_mem_map]
    refine forall₂_congr fun r _ => ?_
    rw [← r.json_stores_iff]
    refine forall₂_congr fun c hc => ?_
    rw [initial_jsonOf k r hc]
  rw [insertAll_succeeds (by decide), hcolumns, jsonRows, List.length_map, JsonRefuses, not_or]
  refine and_congr ?_ ?_
  · push Not
    rfl
  · rw [not_and, not_lt, ne_eq, List.map_eq_nil_iff]

theorem csvRows_succeed (k : Clock) (records : List TextRecord) (db : DB) :
    (∃ db', applyAll applyOp ((csvRows records).map (.insert k .researchTemplate)) db = .ok db') ↔
      (∀ r ∈ records, r.Accepted → r.InRange) ∧
        (csvRows records ≠ [] → nextId (db .researchTemplate) + (csvRows records).length ≤
          2 ^ 63) := by
  have hcolumns : (∀ attrs ∈ csvRows records, ∀ c ∈ Table.researchTemplate.columns, ∃ v,
      c.initial k attrs = .ok v ∧ (v = .null → c.nullable = true)) ↔ ∀ r ∈ records,
        r.Accepted → r.InRange := by
    simp only [csvRows, List.forall_mem_map, List.mem_filter, decide_eq_true_eq, and_imp]
    refine forall₂_congr fun r _ => forall_congr' fun haccepted => ?_
    rw [← TextRecord.csv_stores_iff haccepted]
    refine forall₂_congr fun c hc => ?_
    rw [initial_csvOf k haccepted hc]
  rw [insertAll_succeeds (by decide), hcolumns]

theorem csvRows_eq_nil {records : List TextRecord} : csvRows records = [] ↔ ∀ r ∈ records,
    ¬ r.Accepted := by
  rw [csvRows, List.map_eq_nil_iff, List.filter_eq_nil_iff]
  simp

/-- Records that are alike are imported alike. -/
theorem sameRows_of_alike (k : Clock) {records : List TextRecord}
    (h : ∀ r ∈ records, r.Alike) (db : DB) :
    applyAll applyOp ((jsonRows records).map (.insert k .researchTemplate)) db =
      applyAll applyOp ((csvRows records).map (.insert k .researchTemplate)) db := by
  have hall : (records.filter fun r => decide r.Accepted) = records := by
    rw [List.filter_eq_self]
    exact fun r hr => decide_eq_true (r.alike_iff.mp (h r hr)).1
  refine insertAll_congr ?_ db
  rw [jsonRows, csvRows, hall, List.forall₂_map_left_iff, List.forall₂_map_right_iff,
    List.forall₂_same]
  intro r hr c hc
  obtain ⟨haccepted, hsame⟩ := r.alike_iff.mp (h r hr)
  obtain ⟨v, hjson, hcsv⟩ := hsame c hc
  rw [initial_jsonOf k r hc, initial_csvOf k haccepted hc, hjson, hcsv]

/-- Records of which both imports make the same rows are alike. -/
theorem alike_of_sameRows (k : Clock) {records : List TextRecord} {db db' : DB}
    (hjson : applyAll applyOp ((jsonRows records).map (.insert k .researchTemplate)) db = .ok db')
    (hcsv : applyAll applyOp ((csvRows records).map (.insert k .researchTemplate)) db = .ok db') :
    ∀ r ∈ records, r.Alike := by
  obtain ⟨new, hnew, hbuilt, -⟩ := insertAll_new hjson
  obtain ⟨new', hnew', hbuilt', -⟩ := insertAll_new hcsv
  obtain rfl : new = new' := List.append_cancel_left (hnew.symm.trans hnew')
  have hlength : (records.filter fun r => decide r.Accepted).length = records.length := by
    have hleft := hbuilt.length_eq
    have hright := hbuilt'.length_eq
    rw [jsonRows, List.length_map] at hleft
    rw [csvRows, List.length_map] at hright
    omega
  have haccepted : ∀ r ∈ records, r.Accepted := by
    intro r hr
    exact of_decide_eq_true (List.length_filter_eq_length_iff.mp hlength r hr)
  have hall : (records.filter fun r => decide r.Accepted) = records :=
    List.filter_eq_self.mpr fun r hr => decide_eq_true (haccepted r hr)
  rw [csvRows, hall, List.forall₂_map_left_iff] at hbuilt'
  rw [jsonRows, List.forall₂_map_left_iff] at hbuilt
  have hboth := List.forall₂_iff_zip.mpr ⟨hbuilt.length_eq, fun hmem =>
    And.intro ((List.forall₂_iff_zip.mp hbuilt).2 hmem) ((List.forall₂_iff_zip.mp hbuilt').2 hmem)⟩
  intro r hr
  obtain ⟨row, -, hrow, hrow'⟩ := exists_of_forall₂ hboth r hr
  refine r.alike_iff.mpr ⟨haccepted r hr, fun c hc => ⟨row.cell c.field, ?_, ?_⟩⟩
  · rw [← initial_jsonOf k r hc]
    exact hrow c hc
  · rw [← initial_csvOf k (haccepted r hr) hc]
    exact hrow' c hc

/-- An import that cannot commit changes nothing. -/
theorem imported_of_refused {db : DB} {x : Except Exn DB} (h : ¬ ∃ db', x = .ok db') :
    imported db none x = db := by
  cases x with
  | error e => rfl
  | ok db' => exact absurd ⟨db', rfl⟩ h

/-- An import that changes nothing has no rows. -/
theorem rows_of_unchanged {k : Clock} {t : Table} {rows : List (List (Field × Attr))} {db db' : DB}
    (hall : applyAll applyOp (rows.map (.insert k t)) db = .ok db') (hsame : db' = db) :
    rows = [] := by
  obtain ⟨new, hnew, hbuilt, -⟩ := insertAll_new hall
  rw [hsame] at hnew
  obtain rfl : new = [] := List.append_right_eq_self.mp hnew.symm
  cases hbuilt
  rfl

/-- **JSON and CSV.** For any list of templates given by texts, the import of the list of
    their objects and that of the CSV file of their cells leave the same database exactly
    when both take every record for the same row, or both add nothing. -/
theorem template_formats_agree_iff (k : Clock) (db : DB) (records : List TextRecord)
    {jsonFile csvFile : Upload}
    (hjsonName : endsWith jsonFile.filename ".json" = true)
    (hcsvName : endsWith csvFile.filename ".csv" = true)
    {items : List Json} (hitems : List.Forall₂ TextRecord.Object records items)
    (hjson : jsonFile.json = .value (.list items)) {e : LineEnd} {doc : Document}
    (hcsv : csvFile.csv = .ok (dictReader (splitLines (headedFile e doc))))
    (hdoc : doc.records.map texts = records.map fun r => r.cells.map String.toList)
    (hquoted : ∀ cells ∈ doc.records, ∀ cell ∈ cells, Intact cell) :
    (run (importResearchTemplates k (some jsonFile)) db).2 =
      (run (importResearchTemplates k (some csvFile)) db).2 ↔
      (∀ r ∈ records, r.Alike ∧ r.HasRoom) ∨
        (JsonRefuses records db ∧ CsvAddsNothing records db) := by
  have hjsonRun := run_listFile k hjsonName hjson hitems db
  obtain ⟨hroomRun, hlongRun⟩ := run_headedFile k hcsvName hcsv hdoc hquoted db
  by_cases hroom : ∀ r ∈ records, r.HasRoom
  swap
  · -- the reader raises before the end of the file
    have hlong : ∃ r ∈ records, ¬ r.HasRoom := by simpa using hroom
    rw [hjsonRun, hlongRun hlong]
    have hnot : ¬ ∀ r ∈ records, r.Alike ∧ r.HasRoom := fun hall => hroom fun r hr => (hall r hr).2
    have hnothing : CsvAddsNothing records db := Or.inl hlong
    rw [or_iff_right hnot, and_iff_left hnothing]
    by_cases hrefuses : JsonRefuses records db
    · exact iff_of_true (imported_of_refused
        (mt (jsonRows_succeed k records db).mp (not_not_intro hrefuses))) hrefuses
    · obtain ⟨db', hall⟩ := (jsonRows_succeed k records db).mpr hrefuses
      refine iff_of_false (fun hsame => ?_) hrefuses
      rw [hall] at hsame
      obtain ⟨r, hr, -⟩ := hlong
      have hempty := rows_of_unchanged hall hsame
      rw [jsonRows, List.map_eq_nil_iff] at hempty
      rw [hempty] at hr
      cases hr
  rw [hjsonRun, hroomRun hroom]
  constructor
  · intro hsame
    by_cases hrefuses : JsonRefuses records db
    · rw [imported_of_refused (mt (jsonRows_succeed k records db).mp (not_not_intro hrefuses))]
        at hsame
      refine Or.inr ⟨hrefuses, ?_⟩
      by_contra hadds
      simp only [CsvAddsNothing, not_or, not_lt] at hadds
      obtain ⟨-, hsome, hrange, hkeys⟩ := hadds
      push Not at hrange
      obtain ⟨db', hall⟩ := (csvRows_succeed k records db).mpr ⟨hrange, fun _ => hkeys⟩
      rw [hall] at hsame
      exact hsome (csvRows_eq_nil.mp (rows_of_unchanged hall hsame.symm))
    · obtain ⟨db', hall⟩ := (jsonRows_succeed k records db).mpr hrefuses
      rw [hall] at hsame
      refine Or.inl fun r hr => ⟨?_, hroom r hr⟩
      cases hall' : applyAll applyOp ((csvRows records).map (.insert k .researchTemplate)) db with
      | error e =>
        rw [hall'] at hsame
        have hempty := rows_of_unchanged hall hsame
        rw [jsonRows, List.map_eq_nil_iff] at hempty
        rw [hempty] at hr
        cases hr
      | ok w =>
        rw [hall'] at hsame
        obtain rfl : db' = w := hsame
        exact alike_of_sameRows k hall hall' r hr
  · rintro (halike | ⟨hrefuses, hnothing⟩)
    · rw [sameRows_of_alike k (fun r hr => (halike r hr).1) db]
    · rw [imported_of_refused (mt (jsonRows_succeed k records db).mp (not_not_intro hrefuses))]
      by_cases hnone : ∀ r ∈ records, ¬ r.Accepted
      · rw [csvRows_eq_nil.mpr hnone]
        rfl
      · refine (imported_of_refused fun hsucceeds => ?_).symm
        obtain ⟨hrange, hkeys⟩ := (csvRows_succeed k records db).mp hsucceeds
        have hle := hkeys fun hempty => hnone (csvRows_eq_nil.mp hempty)
        rcases hnothing with ⟨r, hr, hlong⟩ | hnone' | ⟨r, hr, haccepted, hbeyond⟩ | hmany
        · exact hlong (hroom r hr)
        · exact hnone hnone'
        · exact hbeyond (hrange r hr haccepted)
        · exact absurd hle (not_le.mpr hmany)

/-- A record as an object. -/
def TextRecord.object (r : TextRecord) : Json :=
  .dict (templateFields.filterMap fun f => (r f).map fun s => (f, Json.str s))

/-- A file with a list of objects. -/
def jsonFile (records : List TextRecord) : Upload where
  filename := "templates.json"
  json := .value (.list (records.map TextRecord.object))
  csv := .ok ([], none)

/-- The records of a file, every field between quotes. -/
def quotedDocument (records : List TextRecord) : Document where
  lines := records.map fun r => (r.cells.map fun s => Cell.quote s.toList, .lf)
  last := none

/-- A template with all its fields. -/
def fullRecord : TextRecord
  | .projectCategory => some "1"
  | .projectLevel => some "2"
  | .standardRequirement => some "甲"
  | .requirementType => some "功能要求"
  | .inspectionProject => some "乙"
  | .enabledStatus => some "1"
  | _ => none

/-- A template without a category. -/
def lackingCategory : TextRecord := fun f => if f = .projectCategory then none else fullRecord f

/-- Of a list with a record that has no category the JSON import takes nothing, and the CSV
    one takes the other records. -/
theorem template_formats_differ :
    (quotedDocument [fullRecord, lackingCategory]).records.map texts =
        [fullRecord, lackingCategory].map (fun r => r.cells.map String.toList) ∧
      (run (importResearchTemplates .epoch (some (jsonFile [fullRecord, lackingCategory]))) fun _ =>
        []).1.status = 500 ∧
      ((run (importResearchTemplates .epoch (some (jsonFile [fullRecord, lackingCategory])))
        fun _ => []).2
        .researchTemplate).length = 0 ∧
      ((run (importResearchTemplates .epoch (some (csvFile (headedFile .lf
        (quotedDocument [fullRecord, lackingCategory])))))
          fun _ =>
          []).2
          .researchTemplate).length =
          1 :=
  ⟨by decide, by decide +kernel⟩

theorem fullRecord_alike : fullRecord.Alike where
  required := by
    intro f hf
    simp only [List.mem_cons, List.not_mem_nil, or_false] at hf
    rcases hf with rfl | rfl
    · exact ⟨"1", rfl, 1, by decide +kernel⟩
    · exact ⟨"2", rfl, 2, by decide +kernel⟩
  optional := by
    intro f hf s hs
    simp only [List.mem_cons, List.not_mem_nil, or_false] at hf
    rcases hf with rfl | rfl <;> cases hs
  status := ⟨"1", rfl, Or.inr ⟨1, by decide +kernel⟩⟩
  filled := by
    intro f hf
    simp only [List.mem_cons, List.not_mem_nil, or_false] at hf
    rcases hf with rfl | rfl | rfl
    · exact ⟨"甲", rfl, by decide +kernel⟩
    · exact ⟨"功能要求", rfl, by decide +kernel⟩
    · exact ⟨"乙", rfl, by decide +kernel⟩
  texts := by
    intro f hf s hs
    simp only [List.mem_cons, List.not_mem_nil, or_false] at hf
    rcases hf with rfl | rfl <;> cases hs

/-- The list of the other record alone is taken alike. -/
theorem template_formats_full :
    (run (importResearchTemplates .epoch (some (jsonFile [fullRecord]))) fun _ => []).2 =
      (run (importResearchTemplates .epoch
        (some (csvFile (headedFile .lf (quotedDocument [fullRecord]))))) fun _ => []).2 := by
  refine (template_formats_agree_iff .epoch (fun _ => []) [fullRecord] (by decide) (by decide)
    (List.Forall₂.cons ?_ List.Forall₂.nil) rfl rfl (by decide) (by decide +kernel)).mpr
    (Or.inl fun r hr => ?_)
  · intro f hf
    simp only [templateFields, List.mem_cons, List.not_mem_nil, or_false] at hf
    rcases hf with rfl | rfl | rfl | rfl | rfl | rfl | rfl | rfl | rfl | rfl <;> rfl
  · obtain rfl := List.mem_singleton.mp hr
    have hroom : ∀ s ∈ fullRecord.cells, (joinLines s.toList).length ≤ fieldLimit := by
      decide +kernel
    exact ⟨fullRecord_alike, hroom⟩

end ProjectEvaluation.Backend
