import ProjectEvaluation.Backend.Values
import ProjectEvaluation.Lib.Relational

/-!
# The tables of `models.py`

Every table with its columns, their types, nullability, uniqueness, defaults
and foreign keys. The primary key `id` of each table is the key of its rows.
Every foreign key of `models.py` has a relationship with a backref, so the
deletion of a parent sets the foreign keys of its children to NULL; the
association table `training_targets` is the `secondary` of a relationship, so
its rows are deleted instead. `String` lengths are not enforced by SQLite.

Results:
* `schema`: the foreign keys as a `Relational.Schema`.
-/

namespace ProjectEvaluation.Backend

open Python Relational

/-- The tables (`models.py`, lines 4–235). -/
inductive Table
  | user | role | menu | rolePermission | systemSkin | systemDict | systemDictionary
  | evaluationStandard | emrStandardClause | trainingTargets | trainingCourseware | learningRecord
  | evaluationType | evaluationLevel | evaluationProject | standardCatalog | researchTemplate
  | researchTask | vendorResearch
  deriving DecidableEq

/-- All tables. -/
def Table.all : List Table :=
  [.user, .role, .menu, .rolePermission, .systemSkin, .systemDict, .systemDictionary,
   .evaluationStandard, .emrStandardClause, .trainingTargets, .trainingCourseware, .learningRecord,
   .evaluationType, .evaluationLevel, .evaluationProject, .standardCatalog, .researchTemplate,
   .researchTask, .vendorResearch]

theorem Table.mem_all (t : Table) : t ∈ Table.all := by cases t <;> decide

/-- The `default=` of a column: a value, `func.current_date()` or
    `func.current_timestamp()`. -/
inductive Default
  | value (v : Value)
  | currentDate
  | currentTimestamp
  deriving DecidableEq

/-- A column of a table. -/
structure Column where
  field : Field
  type : ColType
  nullable : Bool
  unique : Bool
  default : Option Default
  references : Option Table
  deriving DecidableEq

/-- A column that is NOT NULL and has no default. -/
def required (field : Field) (type : ColType) : Column :=
  { field, type, nullable := false, unique := false, default := none, references := none }

/-- A nullable column. -/
def optional (field : Field) (type : ColType) : Column :=
  { required field type with nullable := true }

/-- A column that is NOT NULL and unique. -/
def uniqueColumn (field : Field) : Column := { required field .string with unique := true }

/-- A column with a default. -/
def Column.defaulting (c : Column) (v : Value) : Column := { c with default := some (.value v) }

/-- A foreign key. -/
def Column.to (c : Column) (t : Table) : Column := { c with references := some t }

/-- The columns of each table, in the order of `models.py` (lines 4–235). -/
def Table.columns : Table → List Column
  | .user =>
    [uniqueColumn .username, required .password .string, required .name .string,
     uniqueColumn .email, (required .roleId .integer).to .role]
  | .role => [uniqueColumn .name, optional .description .string]
  | .menu =>
    [required .name .string, required .path .string, optional .icon .string,
     (optional .parentId .integer).to .menu, (optional .order .integer).defaulting (.int 0),
     (optional .visible .boolean).defaulting (.bool true)]
  | .rolePermission =>
    [(required .roleId .integer).to .role, (required .menuId .integer).to .menu,
     (optional .canAccess .boolean).defaulting (.bool true)]
  | .systemSkin =>
    [required .name .string, required .type .string, optional .config .string,
     (optional .isDefault .boolean).defaulting (.bool false)]
  | .systemDict =>
    [required .code .string, required .name .string, required .value .string,
      required .type .string]
  | .systemDictionary =>
    [required .systemName .string, optional .remarks .string,
     (required .enabledStatus .integer).defaulting (.int 1)]
  | .evaluationStandard =>
    [uniqueColumn .standardId, required .standardName .string, required .standardShortName .string,
     required .mnemonic .string, required .content .string,
     (required .status .string).defaulting (.text "启用"),
     (required .version .string).defaulting (.text "1.0")]
  | .emrStandardClause =>
    [required .standardId .string, required .projectCode .string, required .workRole .string,
     required .businessProject .string,
     (required .evaluationCategory .string).defaulting (.text "基本"),
     required .mainEvaluationContent .string, optional .functionScore .float,
     optional .dataQualityEvaluationContent .string]
  | .trainingTargets =>
    [(required .coursewareId .integer).to .trainingCourseware, (required .roleId .integer).to .role]
  | .trainingCourseware =>
    [required .coursewareName .string, required .attachment .string, required .version .string,
     required .author .string,
     { required .uploadDate .dateTime with default := some .currentTimestamp },
     (required .courseDuration .string).defaulting (.text "1h"),
     (required .enabledStatus .integer).defaulting (.int 1),
     (optional .courseType .integer).to .evaluationType]
  | .learningRecord =>
    [required .coursewareName .string,
     (required .learningCourseware .integer).to .trainingCourseware,
     (required .learningPerson .integer).to .user, required .learningDate .date,
     required .startTime .time, required .endTime .time, required .learningDuration .string]
  | .evaluationType =>
    [uniqueColumn .evaluationTypeId, required .evaluationType .string,
     (required .enabledStatus .integer).defaulting (.int 1)]
  | .evaluationLevel =>
    [required .evaluationTypeId .string, required .evaluationLevel .string,
     optional .numericLevel .integer, (required .enabledStatus .integer).defaulting (.int 1)]
  | .evaluationProject =>
    [required .projectId .string, required .projectName .string, required .projectShortName .string,
     required .mnemonic .string, (required .projectManagerId .integer).to .user,
     (required .projectType .integer).to .evaluationType,
     (required .projectLevel .integer).to .evaluationLevel,
     (optional .siteProjectManagerId .integer).to .user,
     (required .projectAttribute .string).defaulting (.text "标准"),
     { required .establishmentDate .date with default := some .currentDate },
     (required .establishmentStatus .string).defaulting (.text "立项"),
     optional .establishmentProof .string]
  | .standardCatalog =>
    [required .standardName .string, required .standardShortName .string,
     required .mnemonic .string, required .content .string,
     (required .enabledStatus .integer).defaulting (.int 1),
     (required .version .string).defaulting (.text "1.0")]
  | .researchTemplate =>
    [(required .projectCategory .integer).to .evaluationType,
     (required .projectLevel .integer).to .evaluationLevel,
     (optional .systemName .integer).to .systemDictionary, required .standardRequirement .string,
     required .requirementType .string, required .inspectionProject .string,
     optional .referenceScreenshot .string, optional .remarks .string,
     (optional .clauseId .integer).to .emrStandardClause,
     (required .enabledStatus .integer).defaulting (.int 1)]
  | .researchTask =>
    [(required .projectType .integer).to .evaluationType,
     (required .projectLevel .integer).to .evaluationLevel,
     (required .projectId .integer).to .evaluationProject, required .taskName .string,
     (required .creatorId .integer).to .user,
     { required .createdAt .date with default := some .currentDate },
     (required .taskStatus .string).defaulting (.text "进度中"),
     required .plannedCompletionTime .date, (required .researcherId .integer).to .user,
     (optional .completerId .integer).to .user, optional .actualCompletionTime .date,
     (required .vendorStatus .integer).defaulting (.int 0),
     (required .benchmarkingStatus .integer).defaulting (.int 0)]
  | .vendorResearch =>
    [{ required .researchDate .date with default := some .currentDate },
     (required .researcherId .integer).to .user,
     (required .projectId .integer).to .evaluationProject, optional .taskName .string,
     (optional .systemId .integer).to .systemDictionary, required .manufacturer .string,
     optional .remarks .string]

/-- The column of a table that holds a field. -/
def Table.column (t : Table) (f : Field) : Option Column := t.columns.find? fun c => c.field == f

theorem Table.column_field {t : Table} {f : Field} {c : Column} (h : t.column f = some c) :
    c.field = f := by
  simpa using List.find?_some h

theorem Table.mem_of_column {t : Table} {f : Field} {c : Column} (h : t.column f = some c) :
    c ∈ t.columns := List.mem_of_find?_eq_some h

/-- No table has two columns of one name. -/
theorem Table.columns_nodup (t : Table) : (t.columns.map Column.field).Nodup := by
  cases t <;> decide

theorem Table.column_of_mem {t : Table} {c : Column} (h : c ∈ t.columns) :
    t.column c.field = some c := by
  cases hc : t.column c.field with
  | none => simpa using List.find?_eq_none.mp hc c h
  | some d =>
    rw [List.inj_on_of_nodup_map t.columns_nodup (Table.mem_of_column hc) h (Table.column_field hc)]

/-! ## Foreign keys -/

/-- The foreign keys of a table (`models.py`, lines 4–235). -/
def Table.foreignKeys (t : Table) : List (Reference Table Field) :=
  t.columns.filterMap fun c => c.references.map fun target =>
    { table := t, column := c.field, target,
      onDelete := if t = .trainingTargets then .removeRow else .setNull }

/-- All foreign keys of `models.py` (lines 4–235). -/
def foreignKeys : List (Reference Table Field) := Table.all.flatMap Table.foreignKeys

/-- The foreign keys as a schema. A column that is not in a table counts as
    nullable. -/
def schema : Schema Table Field Value where
  references := foreignKeys
  nullable t f := ((t.column f).map Column.nullable).getD true
  null := .null
  key n := .int n
  key_injective := fun m n h => by simpa using h
  one_target := by decide
  association_leaf := by decide

example : foreignKeys.length = 26 := by decide

theorem mem_tableForeignKeys {t : Table} {ref : Reference Table Field} :
    ref ∈ t.foreignKeys ↔ ref ∈ foreignKeys ∧ ref.table = t := by
  have htable : ∀ {t' : Table}, ref ∈ t'.foreignKeys → ref.table = t' := by
    intro t' h
    obtain ⟨c, -, hc⟩ := List.mem_filterMap.mp h
    obtain ⟨target, -, rfl⟩ := Option.map_eq_some_iff.mp hc
    rfl
  constructor
  · exact fun h => ⟨List.mem_flatMap.mpr ⟨t, t.mem_all, h⟩, htable h⟩
  · rintro ⟨h, rfl⟩
    obtain ⟨t', -, h⟩ := List.mem_flatMap.mp h
    rwa [htable h]

/-- A foreign key is a column of integers without a default. -/
theorem foreignKey_column {t : Table} {ref : Reference Table Field} (h : ref ∈ t.foreignKeys) :
    ∃ c, t.column ref.column = some c ∧ c.type = .integer ∧ c.default = none := by
  have hall : ∀ ref ∈ t.foreignKeys, ((t.column ref.column).any fun c =>
      c.type == .integer && c.default == none) = true := by
    cases t <;> decide
  obtain ⟨c, hc, hprop⟩ := (Option.any_eq_true _ _).mp (hall ref h)
  simp only [Bool.and_eq_true, beq_iff_eq] at hprop
  exact ⟨c, hc, hprop.1, hprop.2⟩

/-- A database. -/
abbrev DB := Store Table Field Value

/-- A row of a database. -/
abbrev Record := Row Field Value

/-- The row with the given cells; the others are NULL. -/
def record (id : ℕ) (cells : List (Field × Value)) : Record where
  id
  cell f := (cells.lookup f).getD .null

/-- The database with the given rows. -/
def DB.ofRows (rows : List (Table × Record)) : DB := fun t =>
  (rows.filter fun r => r.1 = t).map Prod.snd

end ProjectEvaluation.Backend
