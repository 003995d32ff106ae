import ProjectEvaluation.Lib.Binary64
import ProjectEvaluation.Python.Text

/-!
# JSON bodies

What `request.get_json()` can return, and the Python operations the handlers of
`routes.py` apply to it: `data['k']`, `data.get('k', d)`, truth values,
iteration.

The keys of JSON objects and the column names of `models.py` are the same
words, so one type `Field` names both; `Field.other` stands for every key that
no handler reads.
-/

namespace ProjectEvaluation.Python

/-! ## Names -/

/-- The column names of `models.py` and the JSON keys of `routes.py`. -/
inductive Field
  | id | username | password | name | email | roleId | description | path | icon | parentId
  | order | visible | menuId | canAccess | type | config | isDefault | code | value | systemName
  | remarks | enabledStatus | standardId | standardName | standardShortName | mnemonic | content
  | status | version | projectCode | workRole | businessProject | evaluationCategory
  | mainEvaluationContent | functionScore | dataQualityEvaluationContent | coursewareId
  | coursewareName | attachment | author | uploadDate | courseDuration | courseType
  | trainingTargets | learningCourseware | learningPerson | learningDate | startTime | endTime
  | learningDuration | evaluationTypeId | evaluationType | evaluationLevel | numericLevel
  | projectId | projectName | projectShortName | projectManagerId | projectManagerName
  | projectType | projectTypeName | projectLevel | projectLevelName | siteProjectManagerId
  | siteProjectManagerName | projectAttribute | establishmentDate | establishmentStatus
  | establishmentProof | projectCategory | standardRequirement | requirementType
  | inspectionProject | referenceScreenshot | clauseId | taskName | creatorId | createdAt
  | taskStatus | plannedCompletionTime | researcherId | researcherName | completerId
  | actualCompletionTime | vendorStatus | benchmarkingStatus | researchDate | systemId
  | manufacturer | children | error | message
  | other (key : String)
  deriving DecidableEq

/-- The spelling of a field in the source. -/
def Field.key : Field → String
  | .id => "id"
  | .username => "username"
  | .password => "password"
  | .name => "name"
  | .email => "email"
  | .roleId => "role_id"
  | .description => "description"
  | .path => "path"
  | .icon => "icon"
  | .parentId => "parent_id"
  | .order => "order"
  | .visible => "visible"
  | .menuId => "menu_id"
  | .canAccess => "can_access"
  | .type => "type"
  | .config => "config"
  | .isDefault => "is_default"
  | .code => "code"
  | .value => "value"
  | .systemName => "system_name"
  | .remarks => "remarks"
  | .enabledStatus => "enabled_status"
  | .standardId => "standard_id"
  | .standardName => "standard_name"
  | .standardShortName => "standard_short_name"
  | .mnemonic => "mnemonic"
  | .content => "content"
  | .status => "status"
  | .version => "version"
  | .projectCode => "project_code"
  | .workRole => "work_role"
  | .businessProject => "business_project"
  | .evaluationCategory => "evaluation_category"
  | .mainEvaluationContent => "main_evaluation_content"
  | .functionScore => "function_score"
  | .dataQualityEvaluationContent => "data_quality_evaluation_content"
  | .coursewareId => "courseware_id"
  | .coursewareName => "courseware_name"
  | .attachment => "attachment"
  | .author => "author"
  | .uploadDate => "upload_date"
  | .courseDuration => "course_duration"
  | .courseType => "course_type"
  | .trainingTargets => "training_targets"
  | .learningCourseware => "learning_courseware"
  | .learningPerson => "learning_person"
  | .learningDate => "learning_date"
  | .startTime => "start_time"
  | .endTime => "end_time"
  | .learningDuration => "learning_duration"
  | .evaluationTypeId => "evaluation_type_id"
  | .evaluationType => "evaluation_type"
  | .evaluationLevel => "evaluation_level"
  | .numericLevel => "numeric_level"
  | .projectId => "project_id"
  | .projectName => "project_name"
  | .projectShortName => "project_short_name"
  | .projectManagerId => "project_manager_id"
  | .projectManagerName => "project_manager_name"
  | .projectType => "project_type"
  | .projectTypeName => "project_type_name"
  | .projectLevel => "project_level"
  | .projectLevelName => "project_level_name"
  | .siteProjectManagerId => "site_project_manager_id"
  | .siteProjectManagerName => "site_project_manager_name"
  | .projectAttribute => "project_attribute"
  | .establishmentDate => "establishment_date"
  | .establishmentStatus => "establishment_status"
  | .establishmentProof => "establishment_proof"
  | .projectCategory => "project_category"
  | .standardRequirement => "standard_requirement"
  | .requirementType => "requirement_type"
  | .inspectionProject => "inspection_project"
  | .referenceScreenshot => "reference_screenshot"
  | .clauseId => "clause_id"
  | .taskName => "task_name"
  | .creatorId => "creator_id"
  | .createdAt => "created_at"
  | .taskStatus => "task_status"
  | .plannedCompletionTime => "planned_completion_time"
  | .researcherId => "researcher_id"
  | .researcherName => "researcher_name"
  | .completerId => "completer_id"
  | .actualCompletionTime => "actual_completion_time"
  | .vendorStatus => "vendor_Status"
  | .benchmarkingStatus => "Benchmarking_Status"
  | .researchDate => "research_date"
  | .systemId => "system_id"
  | .manufacturer => "manufacturer"
  | .children => "children"
  | .error => "error"
  | .message => "message"
  | .other key => key

/-! ## Values -/

/-- A Python float, a C double. -/
abbrev PyFloat := Binary64

/-- A value decoded by Python's JSON reader. An object is the list of its
    entries, each key once. -/
inductive Json
  | null
  | bool (b : Bool)
  | int (n : ℤ)
  | float (x : PyFloat)
  | str (s : String)
  | list (items : List Json)
  | dict (entries : List (Field × Json))

/-- The exceptions the handlers can meet, by class. -/
inductive Exn
  | badRequest
  | keyError
  | typeError
  | attributeError
  | valueError
  | overflowError
  | unicodeDecodeError
  | csvError
  | invalidRequestError
  | interfaceError
  | statementError
  | integrityError
  | operationalError
  | objectDeletedError
  | recursionError
  deriving DecidableEq

/-- The class name, which stands for `str(e)` in the messages that quote an
    exception. -/
def Exn.str : Exn → String
  | .badRequest => "BadRequest"
  | .keyError => "KeyError"
  | .typeError => "TypeError"
  | .attributeError => "AttributeError"
  | .valueError => "ValueError"
  | .overflowError => "OverflowError"
  | .unicodeDecodeError => "UnicodeDecodeError"
  | .csvError => "csv.Error"
  | .invalidRequestError => "InvalidRequestError"
  | .interfaceError => "InterfaceError"
  | .statementError => "StatementError"
  | .integrityError => "IntegrityError"
  | .operationalError => "OperationalError"
  | .objectDeletedError => "ObjectDeletedError"
  | .recursionError => "RecursionError"

/-! ## Operations -/

/-- `data['k']`. Strings, lists and `None` are not indexed by strings. -/
def Json.item (data : Json) (k : Field) : Except Exn Json :=
  match data with
  | .dict entries =>
    match entries.lookup k with
    | some v => .ok v
    | none => .error .keyError
  | _ => .error .typeError

/-- `data.get('k')`: the value, or `none` where the key is absent. -/
def Json.get (data : Json) (k : Field) : Except Exn (Option Json) :=
  match data with
  | .dict entries => .ok (entries.lookup k)
  | _ => .error .attributeError

/-- `data.get('k', default)`. -/
def Json.getD (data : Json) (k : Field) (default : Json) : Except Exn Json :=
  (data.get k).map fun v => v.getD default

/-- `'k' in data` for an object. -/
def Json.has (data : Json) (k : Field) : Bool :=
  match data with
  | .dict entries => (entries.lookup k).isSome
  | _ => false

/-- The truth value of a JSON value. -/
def Json.truthy : Json → Bool
  | .null => false
  | .bool b => b
  | .int n => n != 0
  | .float (.finite x) => x.value != 0
  | .float _ => true
  | .str s => s != ""
  | .list items => !items.isEmpty
  | .dict entries => !entries.isEmpty

/-- `for x in data`: elements of a list, characters of a string, keys of an
    object. -/
def Json.iter : Json → Except Exn (List Json)
  | .list items => .ok items
  | .str s => .ok (s.toList.map fun c => .str (String.ofList [c]))
  | .dict entries => .ok (entries.map fun e => .str e.1.key)
  | _ => .error .typeError

theorem Json.get_dict (entries : List (Field × Json)) (k : Field) :
    (Json.dict entries).get k = .ok (entries.lookup k) := rfl

theorem Json.getD_of_get {data : Json} {k : Field} {v d : Json} (h : data.get k = .ok (some v)) :
    data.getD k d = .ok v := by
  rw [Json.getD, h]; rfl

theorem Json.item_of_get {data : Json} {k : Field} {v : Json} (h : data.get k = .ok (some v)) :
    data.item k = .ok v := by
  cases data <;> first | cases h | skip
  rename_i entries
  simp only [Json.get, Except.ok.injEq] at h
  simp only [Json.item, h]

theorem Json.get_of_item {data : Json} {k : Field} {v : Json} (h : data.item k = .ok v) :
    data.get k = .ok (some v) := by
  cases data <;> first | cases h | skip
  rename_i entries
  simp only [Json.item] at h
  cases hlookup : entries.lookup k with
  | none => rw [hlookup] at h; cases h
  | some w => rw [hlookup] at h; cases h; rw [Json.get_dict, hlookup]

theorem Json.has_of_get {data : Json} {k : Field} {v : Option Json} (h : data.get k = .ok v) :
    data.has k = v.isSome := by
  cases data <;> cases h
  rfl

end ProjectEvaluation.Python
