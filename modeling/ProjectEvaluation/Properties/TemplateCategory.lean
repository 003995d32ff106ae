import ProjectEvaluation.Backend.Reachable
import ProjectEvaluation.Pages.ResearchTemplate
import ProjectEvaluation.Properties.StoredRows

/-!
# The category of a research template

The page submits the code of the type that was chosen, the column refers to types by their
ids, and the list shows the type that the column refers to.

Results:
* `chosen_category_shown_iff`: when the list shows the type that was chosen.
-/

namespace ProjectEvaluation.Pages.ResearchTemplate

open Python Relational Backend Sqlite

/-! ## The lists -/

/-- An object of a list is found by the id of its row. -/
theorem entryOf_map {rows : List Record} {render : Record → Json}
    (h : ∀ row id, hasId id (render row) = (row.id == id)) (id : ℕ) :
    entryOf id (.list (rows.map render)) = (find rows id).map render := by
  rw [entryOf, List.find?_map, find]
  congr 2
  funext row
  exact h row id

theorem hasId_templateObject (db : DB) (row : Record) (id : ℕ) :
    hasId id (templateObject db row) = (row.id == id) := by
  show ((row.id : ℤ) == (id : ℤ)) = (row.id == id)
  rw [Bool.eq_iff_iff, beq_iff_eq, beq_iff_eq, Nat.cast_inj]

/-- The name the list shows for a template. -/
theorem categoryCell_of_find {db : DB} {id : ℕ} {row : Record}
    (hfind : find (db .researchTemplate) id = some row) :
    categoryCell id (getResearchTemplates db).body =
      some (relatedName .evaluationType (row.cell .projectCategory) .evaluationType
        (.str "") db) := by
  rw [categoryCell, getResearchTemplates, entryOf_map (hasId_templateObject db), hfind]
  rfl

/-- **The options** are the names of the types, each with the code of its type. -/
theorem mem_categoryOptions {db : DB} {option : SelectOption} :
    option ∈ categoryOptions (getEvaluationTypes db).body ↔
      ∃ type ∈ db .evaluationType,
        option =
        { value := shown type .evaluationTypeId, label := shown type .evaluationType } := by
  have hrow : ∀ type : Record, typeOption (object (.id :: typeFields) type) =
      { value := shown type .evaluationTypeId, label := shown type .evaluationType } := fun _ => rfl
  rw [getEvaluationTypes, categoryOptions, List.map_map, List.mem_map]
  simp only [Function.comp_apply, hrow, eq_comm (a := option)]

/-- The codes are texts. -/
theorem option_code {db : DB} (hv : Valid db) {option : SelectOption}
    (h : option ∈ categoryOptions (getEvaluationTypes db).body) :
    ∃ code, option.value = .str code := by
  obtain ⟨type, htype, rfl⟩ := mem_categoryOptions.mp h
  have hc : uniqueColumn .evaluationTypeId ∈ Table.columns .evaluationType := List.mem_cons_self
  have hcanonical := hv.canonical .evaluationType _ hc type htype
  have hnull := hv.notNull .evaluationType _ hc rfl type htype
  obtain hnone | hfits := hcanonical
  · exact absurd hnone hnull
  · show ∃ code, (type.cell .evaluationTypeId).toJson = .str code
    change fits .string (type.cell .evaluationTypeId) = true at hfits
    cases hcell : type.cell .evaluationTypeId with
    | text code => exact ⟨code, rfl⟩
    | _ => rw [hcell] at hfits; cases hfits

/-! ## Numerals -/

/-- The value of an option is a text that SQLite reads as the id of a type. A numeral with a point
    or an exponent is read as a double. -/
def SelectOption.RefersTo (option : SelectOption) (type : Record) : Prop :=
  ∃ code, option.value = .str code ∧ applyNumericAffinity code = some (.int type.id)

/-- **What a foreign key refers to** that a text was bound to: the row whose id the text is read
    as. -/
theorem related_numeral {db : DB} {t : Table} (code : String) :
    related t (textAsInteger code) db =
      (db t).find? fun r => applyNumericAffinity code = some (.int r.id) := by
  unfold related
  refine List.find?_congr fun r _ => ?_
  rw [Bool.eq_iff_iff, decide_eq_true_eq, decide_eq_true_eq, textAsInteger]
  cases applyNumericAffinity code with
  | none => simp
  | some number => cases number <;> simp [Value.ofNumber, eq_comm]

/-! ## Templates -/

/-- The id of the template a submission is about. -/
def templateKey (db : DB) : Modal → ℕ
  | .add => nextId (db .researchTemplate)
  | .edit id => id

/-- **A submission stores the code** that was chosen, and changes no type. -/
theorem submitted_category {k : Clock} {db : DB} {values : FormValues} {uploadFile : Json}
    {modal : Modal}
    {request : Request} {code : String} (hchosen : values .projectCategory = some (.str code))
    (hsubmit : handleSubmit values uploadFile modal = some request)
    (hgood : (handle k request db).1.Success) :
    ∃ row, find ((handle k request db).2 .researchTemplate) (templateKey db modal) = some row ∧
      row.cell .projectCategory = textAsInteger code ∧
      (handle k request db).2 .evaluationType = db .evaluationType := by
  have hget := templateData_category uploadFile hchosen
  unfold handleSubmit at hsubmit
  split_ifs at hsubmit
  cases modal with
  | add =>
    cases hsubmit
    obtain ⟨_, attrs, row, hbody, hattrs, hbuilt, hid, hrows⟩ := create_stores (by decide) hgood
    cases hbody
    obtain ⟨a, ha, hcell⟩ := constructed_cell (f := .projectCategory) hattrs hbuilt rfl rfl
    rw [Source.eval, Json.item_of_get hget] at ha
    cases ha
    refine ⟨row, find_new hid hrows, (Except.ok.inj (hcell rfl)).symm, ?_⟩
    rcases handle_create k .template (.json (templateData values uploadFile)) db with
      ⟨hbad, -⟩ | ⟨-, _, _, w, -, -, hins, -, hsame⟩
    · exact absurd hgood hbad
    · rw [hsame (by decide)]
      exact insertRow_other hins (by decide)
  | edit id =>
    cases hsubmit
    obtain ⟨_, row, assignments, hbody, hfind, hassign, hbinds, hfind'⟩ :=
      update_stores (by decide) hgood
    cases hbody
    have hkeep : keep (templateData values uploadFile) row .projectCategory ∈ assignments :=
      Except.ok.inj hassign ▸ List.mem_cons_self
    have hvalue : keep (templateData values uploadFile) row .projectCategory =
        (.projectCategory, .ok (some (.json (.str code)))) := by
      rw [keep, hget]
      rfl
    rw [hvalue] at hkeep
    refine ⟨_, hfind', (Except.ok.inj (updated_cell hassign hbinds hkeep rfl)).symm, ?_⟩
    rcases handle_update k .template id (.json (templateData values uploadFile)) db with
      ⟨hbad, -⟩ | ⟨-, _, _, _, _, w, -, -, -, -, hops, hall, -, hsame⟩
    · exact absurd hgood hbad
    · rw [hsame (by simp)]
      exact (sameBut_updateOps hops hall).1 .evaluationType (by decide)

/-- The code of an option is read as the id of a type with the name of the option; or as the id of
    no type, and the option has no name. -/
def SelectOption.NamesItself (option : SelectOption) (db : DB) : Prop :=
  (∃ type ∈ db .evaluationType, option.RefersTo type ∧ shown type .evaluationType = option.label) ∨
    ((∀ type ∈ db .evaluationType, ¬ option.RefersTo type) ∧ option.label = .str "")

/-- **The list shows the type that was chosen** iff its code is read as the id of a type with that
    name. -/
theorem chosen_category_shown_iff (k : Clock) (values : FormValues) (uploadFile : Json)
    (modal : Modal) {db : DB}
    (hv : Valid db) {request : Request} {option : SelectOption}
    (hoption : option ∈ categoryOptions (getEvaluationTypes db).body)
    (hchosen : values .projectCategory = some option.value)
    (hsubmit : handleSubmit values uploadFile modal = some request)
    (hgood : (handle k request db).1.Success) :
    categoryCell (templateKey db modal) (getResearchTemplates (handle k request db).2).body =
      some option.label ↔
      option.NamesItself db := by
  obtain ⟨code, hcode⟩ := option_code hv hoption
  rw [hcode] at hchosen
  obtain ⟨row, hfind, hcell, htypes⟩ := submitted_category hchosen hsubmit hgood
  have hrefers : ∀ type, option.RefersTo type ↔
      applyNumericAffinity code = some (.int type.id) := by
    intro type
    constructor
    · rintro ⟨code', hcode', hnumber⟩
      obtain rfl := Json.str.inj (hcode.symm.trans hcode')
      exact hnumber
    · exact fun hnumber => ⟨code, hcode, hnumber⟩
  have hrelated : related .evaluationType (row.cell .projectCategory) (handle k request db).2 =
      (db .evaluationType).find? fun type => applyNumericAffinity code = some (.int type.id) := by
    rw [hcell, related_numeral, htypes]
  rw [categoryCell_of_find hfind, relatedName, hrelated, Option.some_inj, SelectOption.NamesItself]
  simp only [hrefers]
  cases hnamed : (db .evaluationType).find? fun type =>
      applyNumericAffinity code = some (.int type.id) with
  | none =>
    have hnone : ∀ type ∈ db .evaluationType,
        ¬ applyNumericAffinity code = some (.int type.id) := by
      simpa using hnamed
    constructor
    · exact fun h => Or.inr ⟨hnone, h.symm⟩
    · rintro (⟨type, htype, hnumber, -⟩ | ⟨-, hlabel⟩)
      · exact absurd hnumber (hnone type htype)
      · exact hlabel.symm
  | some named =>
    have hmem := List.mem_of_find?_eq_some hnamed
    have hnumber : applyNumericAffinity code = some (.int named.id) := by
      simpa using List.find?_some hnamed
    constructor
    · exact fun h => Or.inl ⟨named, hmem, hnumber, h⟩
    · rintro (⟨type, htype, hnumber', hlabel⟩ | ⟨hnone, -⟩)
      · have hid : type.id = named.id := by
          exact_mod_cast Number.int.inj (Option.some.inj (hnumber'.symm.trans hnumber))
        obtain rfl := List.inj_on_of_nodup_map (hv.keys .evaluationType) htype hmem hid
        exact hlabel
      · exact absurd hnumber (hnone named hmem)

/-- A type with a code and a name. -/
def newType (code name : String) : Request :=
  .create .evaluationType
    (.json (.dict [(.evaluationTypeId, .str code), (.evaluationType, .str name)]))

/-- Two types: one has a code of letters, the other its own id. -/
def twoTypes : DB := afterRequests .epoch [newType "EMR" "电子病历", newType "2" "互联互通"] fun _ => []

/-- The code `1.0000000000000001` is stored as the integer 1. -/
example : applyNumericAffinity "1.0000000000000001" = some (.int 1) := by decide +kernel

/-- A form with a category. -/
def formWith (code : Json) : FormValues := fun f =>
  [(Field.projectCategory, code), (.projectLevel, .int 1), (.requirementType, .str "功能要求"),
    (.inspectionProject, .str "病房医师"), (.enabledStatus, .int 1),
    (.standardRequirement, .str "标准")].lookup f

/-- The request of a new template with a category. -/
def newTemplate (code : Json) : Request :=
  .create .template (.json (templateData (formWith code) .null))

/-- The type with the code of letters is chosen; the list shows no name. -/
theorem chosen_category_not_shown :
    { value := .str "EMR", label := .str "电子病历" } ∈
      categoryOptions (getEvaluationTypes twoTypes).body ∧
      handleSubmit (formWith (.str "EMR")) .null .add = some (newTemplate (.str "EMR")) ∧
      (handle .epoch (newTemplate (.str "EMR")) twoTypes).1.Success ∧
      categoryCell 1
        (getResearchTemplates (handle .epoch (newTemplate (.str "EMR")) twoTypes).2).body =
        some (.str "") :=
  ⟨List.mem_cons_self, rfl, by decide +kernel, rfl⟩

/-- The type with its own id as code is chosen; the list shows its name. -/
theorem chosen_category_shown_iff_own_id :
    categoryCell 1 (getResearchTemplates (handle .epoch (newTemplate (.str "2")) twoTypes).2).body =
      some (.str "互联互通") := by
  have hvalid : Valid twoTypes := afterRequests_valid _ _ valid_empty
  have hoption : { value := .str "2", label := .str "互联互通" } ∈
      categoryOptions (getEvaluationTypes twoTypes).body :=
    List.mem_cons_of_mem _ List.mem_cons_self
  have hgood : (handle .epoch (newTemplate (.str "2")) twoTypes).1.Success := by decide +kernel
  have hnumber : applyNumericAffinity "2" = some (.int 2) := by decide +kernel
  apply (chosen_category_shown_iff .epoch
    (formWith (.str "2")) .null .add hvalid hoption rfl rfl hgood).mpr
  exact Or.inl ⟨_, List.mem_cons_of_mem _ List.mem_cons_self, ⟨"2", rfl, hnumber⟩, rfl⟩

end ProjectEvaluation.Pages.ResearchTemplate
