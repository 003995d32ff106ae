import ProjectEvaluation.Properties.StoredRows

/-!
# The date fields of create and update handlers

Four date fields can be given to a create handler and to an update handler. Each handler has its
own way to read a text.

Results:
* `date_handlers_agree_iff`: when the two handlers of a field store the same date for a text.
-/

namespace ProjectEvaluation.Backend

open Python Relational Transaction

/-! ## What the handlers store -/

/-- The date fields a client can both create and update. -/
inductive DateField
  | establishmentDate | researchDate | plannedCompletionTime | actualCompletionTime
  deriving DecidableEq

/-- The resource of a date field. -/
def DateField.resource : DateField → Resource
  | .establishmentDate => .project
  | .researchDate => .vendorResearch
  | .plannedCompletionTime | .actualCompletionTime => .researchTask

/-- The name of a date field. -/
def DateField.field : DateField → Field
  | .establishmentDate => .establishmentDate
  | .researchDate => .researchDate
  | .plannedCompletionTime => .plannedCompletionTime
  | .actualCompletionTime => .actualCompletionTime

/-- The create handler stores the date `d` for the text `s`: a body with this text can be
    accepted, and whenever one is, whatever the clock and the rest of it, the date is `d`. -/
structure StoredByCreate (f : DateField) (s : String) (d : Date) : Prop where
  possible : ∃ k data db, data.get f.field = .ok (some (.str s)) ∧
    (handle k (.create f.resource (.json data)) db).1.Success
  stored : ∀ k data db row, data.get f.field = .ok (some (.str s)) →
    (handle k (.create f.resource (.json data)) db).1.Success →
    find ((handle k (.create f.resource (.json data)) db).2 f.resource.table)
      (nextId (db f.resource.table)) = some row → row.cell f.field = .date d

/-- The update handler stores the date `d` for the text `s`. -/
structure StoredByUpdate (f : DateField) (s : String) (d : Date) : Prop where
  possible : ∃ k id data db, data.get f.field = .ok (some (.str s)) ∧
    (handle k (.update f.resource id (.json data)) db).1.Success
  stored : ∀ k id data db row, data.get f.field = .ok (some (.str s)) →
    (handle k (.update f.resource id (.json data)) db).1.Success →
    find ((handle k (.update f.resource id (.json data)) db).2 f.resource.table) id = some row →
    row.cell f.field = .date d

/-! ## How the handlers read -/

/-- The date a create handler reads. A completion time that is not planned goes to the column
    as it is. -/
def createReads : DateField → String → Option Date
  | .establishmentDate, s => strptimeDate (if 'T' ∈ s.toList then beforeFirst 'T' s else s)
  | .researchDate, s => parseDate (.str s)
  | .plannedCompletionTime, s => fromisoformat (replaceZulu s)
  | .actualCompletionTime, _ => none

/-- The date an update handler reads. -/
def updateReads : DateField → String → Option Date
  | .establishmentDate, s | .researchDate, s => parseDate (.str s)
  | .plannedCompletionTime, s | .actualCompletionTime, s => fromisoformat (replaceZulu s)

/-- What a create handler stores where it reads no date. -/
def DateField.fallback (k : Clock) : DateField → Value
  | .establishmentDate => .date k.localDate
  | .researchDate => .date k.utcDate
  | .plannedCompletionTime | .actualCompletionTime => .null

/-- What an update handler leaves where it reads no date. -/
def DateField.kept (row : Record) : DateField → Value
  | .establishmentDate => row.cell .establishmentDate
  | .researchDate => row.cell .researchDate
  | .plannedCompletionTime | .actualCompletionTime => .null

/-- A text in a completion time: an empty one is not converted. -/
theorem completionTime_str {s : String} (hs : s ≠ "") :
    completionTime (.str s) = .value ((fromisoformat (replaceZulu s)).elim .null .date) := by
  have htruthy : (Json.str s).truthy = true := bne_iff_ne.mpr hs
  rw [completionTime, if_pos htruthy]

/-- The column of a completion time takes only the date in the text. -/
theorem completionTime_bind {s : String} {v : Value}
    (h : (completionTime (.str s)).bind .date = .ok v) :
    v = (fromisoformat (replaceZulu s)).elim .null .date := by
  by_cases hs : s = ""
  · subst hs
    cases h
  · rw [completionTime_str hs] at h
    cases hparsed : fromisoformat (replaceZulu s) with
    | none =>
      rw [hparsed] at h
      exact (Except.ok.inj h).symm
    | some d =>
      rw [hparsed] at h
      exact (Except.ok.inj h).symm

theorem completionTime_date {s : String} {d : Date}
    (h : (fromisoformat (replaceZulu s)).elim Value.null Value.date = .date d) :
    completionTime (.str s) = .value (.date d) := by
  have hs : s ≠ "" := by
    rintro rfl
    cases h
  rw [completionTime_str hs]
  exact congrArg Attr.value h

/-- A text that is no date is not assigned. -/
theorem assignDate_str {data : Json} {field : Field} {s : String}
    (h : data.get field = .ok (some (.str s))) :
    assignDate data field = (field, .ok ((parseDate (.str s)).map fun d => .value (.date d))) := by
  rw [assignDate, h]
  rfl

/-- Every date field is a column for dates. -/
theorem DateField.column_field (f : DateField) :
    ∃ c, f.resource.table.column f.field = some c ∧ c.type = .date := by
  cases f <;> exact ⟨_, rfl, rfl⟩

/-- **The new row has the date the create handler reads**, or what it stores instead. -/
theorem created_reads {f : DateField} {s : String} {k : Clock} {data : Json} {db : DB}
    {row : Record}
    (hget : data.get f.field = .ok (some (.str s)))
    (hgood : (handle k (.create f.resource (.json data)) db).1.Success)
    (hfind : find ((handle k (.create f.resource (.json data)) db).2 f.resource.table)
      (nextId (db f.resource.table)) = some row) :
    row.cell f.field = (createReads f s).elim (f.fallback k) .date := by
  obtain ⟨_, attrs, row', hbody, hattrs, hbuilt, hid, hrows⟩ :=
    create_stores (by cases f <;> decide) hgood
  cases hbody
  cases hfind.symm.trans (find_new hid hrows)
  have hgetD : data.getD f.field .null = .ok (.str s) := Json.getD_of_get hget
  cases f with
  | establishmentDate =>
    obtain ⟨row', date, _, hdate, -, hcell, -, hfind'⟩ := project_created hgood
    cases hfind.symm.trans hfind'
    cases hgetD.symm.trans hdate
    refine hcell.trans ?_
    unfold establishmentDate createReads
    simp only
    cases strptimeDate (if 'T' ∈ s.toList then beforeFirst 'T' s else s) <;> rfl
  | researchDate =>
    obtain ⟨date, hdate, hattrs⟩ := do_eq_ok.mp hattrs
    cases hgetD.symm.trans hdate
    obtain ⟨a, ha, hcell⟩ := constructed_cell (f := .researchDate) hattrs hbuilt rfl rfl
    cases ha
    change row.cell .researchDate = (parseDate (.str s)).elim _ _
    cases hparsed : parseDate (.str s) with
    | none =>
      rw [hparsed] at hcell
      exact (Except.ok.inj (hcell rfl)).symm
    | some d =>
      rw [hparsed] at hcell
      exact (Except.ok.inj (hcell rfl)).symm
  | plannedCompletionTime =>
    obtain ⟨date, hdate, hattrs⟩ := do_eq_ok.mp hattrs
    cases hgetD.symm.trans hdate
    obtain ⟨a, ha, hlookup⟩ := construct_lookup (f := .plannedCompletionTime) hattrs rfl
    cases ha
    have hinitial := hbuilt (required .plannedCompletionTime .date)
      (Table.mem_of_column (f := .plannedCompletionTime) rfl)
    rw [Column.initial_eq_bind k hlookup (Or.inl rfl)] at hinitial
    exact completionTime_bind hinitial
  | actualCompletionTime =>
    obtain ⟨date, hdate, hattrs⟩ := do_eq_ok.mp hattrs
    obtain ⟨a, ha, hcell⟩ := constructed_cell (f := .actualCompletionTime) hattrs hbuilt rfl rfl
    obtain ⟨j, hj, rfl⟩ := map_eq_ok.mp ha
    cases hgetD.symm.trans hj
    cases hcell rfl

/-- **The row of an update has the date the handler reads**, or what it leaves instead. -/
theorem updated_reads {f : DateField} {s : String} {k : Clock} {id : ℕ} {data : Json} {db : DB}
    {row' : Record}
    (hget : data.get f.field = .ok (some (.str s)))
    (hgood : (handle k (.update f.resource id (.json data)) db).1.Success)
    (hfind : find ((handle k (.update f.resource id (.json data)) db).2 f.resource.table) id =
      some row') :
    ∃ row, find (db f.resource.table) id = some row ∧
      row'.cell f.field = (updateReads f s).elim (f.kept row) .date := by
  obtain ⟨_, row, assignments, hbody, hrow, hassign, hbinds, hfind'⟩ :=
    update_stores (by cases f <;> decide) hgood
  cases hbody
  cases hfind.symm.trans hfind'
  have hgetD : data.getD f.field .null = .ok (.str s) := Json.getD_of_get hget
  refine ⟨row, hrow, ?_⟩
  have hdate := assignDate_str hget
  obtain ⟨c, hc, htype⟩ := f.column_field
  -- the date is assigned where it can be parsed, and the cell is left alone otherwise
  have hassigned : assignDate data f.field ∈ assignments →
      (assignCells row (updateValues f.resource.table assignments)).cell f.field =
        (parseDate (.str s)).elim (row.cell f.field) .date := by
    intro hmem
    rw [hdate] at hmem
    cases hparsed : parseDate (.str s) with
    | none =>
      refine unassigned_cell row fun v hv => ?_
      have hsame := List.inj_on_of_nodup_map (assignments_nodup hassign) hv hmem rfl
      rw [hparsed] at hsame
      cases hsame
    | some d =>
      rw [hparsed] at hmem
      have hcell := updated_cell hassign hbinds hmem hc
      rw [htype] at hcell
      exact (Except.ok.inj hcell).symm
  -- a completion time is assigned in any case
  have hcompletion : (f.field, .ok (some (completionTime (.str s)))) ∈ assignments →
      (assignCells row (updateValues f.resource.table assignments)).cell f.field =
        (fromisoformat (replaceZulu s)).elim .null .date := by
    intro hmem
    have hcell := updated_cell hassign hbinds hmem hc
    rw [htype] at hcell
    exact completionTime_bind hcell
  cases f with
  | establishmentDate =>
    have hassignments : assignments = projectAssignments data row := (Except.ok.inj hassign).symm
    exact hassigned (hassignments ▸ List.mem_of_getElem? (i := 9) rfl)
  | researchDate =>
    have hassignments : assignments = vendorAssignments data row := (Except.ok.inj hassign).symm
    exact hassigned (hassignments ▸ List.mem_cons_self)
  | plannedCompletionTime =>
    obtain ⟨planned, hplanned, hassign⟩ := do_eq_ok.mp hassign
    obtain ⟨actual, -, hassign⟩ := do_eq_ok.mp hassign
    cases hgetD.symm.trans hplanned
    cases hassign
    exact hcompletion (List.mem_of_getElem? (i := 5) rfl)
  | actualCompletionTime =>
    obtain ⟨planned, -, hassign⟩ := do_eq_ok.mp hassign
    obtain ⟨actual, hactual, hassign⟩ := do_eq_ok.mp hassign
    cases hgetD.symm.trans hactual
    cases hassign
    exact hcompletion (List.mem_of_getElem? (i := 8) rfl)

/-! ## Requests that are accepted -/

/-- A body for a create handler with a text for a date. -/
def DateField.createBody (s : String) : DateField → Json
  | .establishmentDate =>
    .dict [(.projectId, .str "1"), (.projectName, .str "项目"), (.projectManagerId, .int 1),
      (.projectType, .int 1), (.projectLevel, .int 1), (.establishmentDate, .str s)]
  | .researchDate =>
    .dict [(.researchDate, .str s), (.researcherId, .int 1), (.projectId, .int 1),
      (.manufacturer, .str "厂商")]
  | .plannedCompletionTime | .actualCompletionTime =>
    .dict [(.projectType, .int 1), (.projectLevel, .int 1), (.projectId, .int 1),
      (.taskName, .str "任务"), (.creatorId, .int 1), (.researcherId, .int 1),
      (.plannedCompletionTime, .str s)]

theorem createBody_get (f : DateField) (hf : f ≠ .actualCompletionTime) (s : String) :
    (f.createBody s).get f.field = .ok (some (.str s)) := by
  cases f with
  | actualCompletionTime => exact absurd rfl hf
  | _ => rfl

/-- The attributes of those bodies, given the date. -/
def DateField.createAttrs (date : Attr) : DateField → List (Field × Attr)
  | .establishmentDate =>
    [(.projectId, .json (.str "1")), (.projectName, .json (.str "项目")),
      (.projectShortName, .json (.str "项目")), (.mnemonic, .json (.str "1")),
      (.projectManagerId, .json (.int 1)), (.projectType, .json (.int 1)), (.projectLevel, .json
        (.int 1)), (.siteProjectManagerId, .json .null), (.projectAttribute, .json (.str "标准")),
      (.establishmentDate, date), (.establishmentStatus, .json (.str "立项")),
      (.establishmentProof, .json .null)]
  | .researchDate =>
    [(.researchDate, date), (.researcherId, .json (.int 1)), (.projectId, .json (.int 1)),
      (.taskName, .json .null), (.systemId, .json .null), (.manufacturer, .json (.str "厂商")),
      (.remarks, .json .null)]
  | .plannedCompletionTime | .actualCompletionTime =>
    [(.projectType, .json (.int 1)), (.projectLevel, .json (.int 1)), (.projectId, .json (.int 1)),
      (.taskName, .json (.str "任务")), (.creatorId, .json (.int 1)),
      (.taskStatus, .json (.str "进度中")), (.plannedCompletionTime, date),
      (.researcherId, .json (.int 1)), (.completerId, .json .null),
      (.actualCompletionTime, .json .null)]

/-- The columns can store them, if the date is one. -/
theorem createAttrs_stored (f : DateField) (k : Clock) (d : Date) :
    ∀ c ∈ f.resource.table.columns, ∃ v, c.initial k (f.createAttrs (.value (.date d))) = .ok v ∧
      (v = .null → c.nullable = true) ∧ c.unique = false := by
  intro c hc
  cases f with
  | establishmentDate =>
    simp only [DateField.resource, Resource.table, Table.columns, List.mem_cons, List.not_mem_nil,
      or_false] at hc
    rcases hc with rfl | rfl | rfl | rfl | rfl | rfl | rfl | rfl | rfl | rfl | rfl | rfl
    all_goals exact ⟨_, rfl, by first | exact fun _ => rfl | nofun, rfl⟩
  | researchDate =>
    simp only [DateField.resource, Resource.table, Table.columns, List.mem_cons, List.not_mem_nil,
      or_false] at hc
    rcases hc with rfl | rfl | rfl | rfl | rfl | rfl | rfl
    all_goals exact ⟨_, rfl, by first | exact fun _ => rfl | nofun, rfl⟩
  | plannedCompletionTime =>
    simp only [DateField.resource, Resource.table, Table.columns, List.mem_cons, List.not_mem_nil,
      or_false] at hc
    rcases hc with rfl | rfl | rfl | rfl | rfl | rfl | rfl | rfl | rfl | rfl | rfl | rfl | rfl
    all_goals exact ⟨_, rfl, by first | exact fun _ => rfl | nofun, rfl⟩
  | actualCompletionTime =>
    simp only [DateField.resource, Resource.table, Table.columns, List.mem_cons, List.not_mem_nil,
      or_false] at hc
    rcases hc with rfl | rfl | rfl | rfl | rfl | rfl | rfl | rfl | rfl | rfl | rfl | rfl | rfl
    all_goals exact ⟨_, rfl, by first | exact fun _ => rfl | nofun, rfl⟩

/-- **A create handler accepts the body** where it has a date to store. -/
theorem create_accepts {f : DateField} (hf : f ≠ .actualCompletionTime) {k : Clock}
    {s : String} {d : Date}
    (h : (createReads f s).elim (f.fallback k) .date = .date d) :
    (handle k (.create f.resource (.json (f.createBody s))) (DB.ofRows [])).1.Success := by
  cases f with
  | establishmentDate =>
    refine create_succeeds ?_ (by decide) (createAttrs_stored .establishmentDate k d) fun row db' =>
      ⟨_, rfl⟩
    have hdate : establishmentDate k (.str s) = d := by
      unfold createReads at h
      unfold establishmentDate
      simp only at h ⊢
      cases hparsed : strptimeDate (if 'T' ∈ s.toList then beforeFirst 'T' s else s) with
      | none => rw [hparsed] at h; exact Value.date.inj h
      | some e => rw [hparsed] at h; exact Value.date.inj h
    rw [← hdate]
    rfl
  | researchDate =>
    change (parseDate (.str s)).elim (Value.date k.utcDate) Value.date = Value.date d at h
    have hdate : ((parseDate (.str s)).elim k.currentDate fun d => .value (.date d)) =
        Attr.value (.date d) := by
      cases hparsed : parseDate (.str s) with
      | none => rw [hparsed] at h; exact congrArg Attr.value h
      | some e => rw [hparsed] at h; exact congrArg Attr.value h
    have hattrs : vendorAttrs k (DateField.researchDate.createBody s) =
        .ok (DateField.researchDate.createAttrs (.value (.date d))) := by
      change construct (DateField.researchDate.createBody s)
        (vendorSources ((parseDate (.str s)).elim k.currentDate fun d => .value (.date d))) = _
      rw [hdate]
      rfl
    exact create_succeeds (congrArg (Except.map Sum.inr) hattrs) (by decide)
      (createAttrs_stored .researchDate k d) fun row db' => ⟨_, rfl⟩
  | plannedCompletionTime =>
    have hdate : completionTime (.str s) = .value (.date d) := completionTime_date h
    have hattrs : taskAttrs (DateField.plannedCompletionTime.createBody s) =
        .ok (DateField.plannedCompletionTime.createAttrs (.value (.date d))) := by
      change construct (DateField.plannedCompletionTime.createBody s)
        (taskSources (completionTime (.str s))) = _
      rw [hdate]
      rfl
    exact create_succeeds (congrArg (Except.map Sum.inr) hattrs) (by decide)
      (createAttrs_stored .plannedCompletionTime k d) fun row db' => ⟨_, rfl⟩
  | actualCompletionTime => exact absurd rfl hf

/-- A row with a date in a field. -/
def DateField.row (e : Date) : DateField → Record
  | .establishmentDate =>
    record 1 [(.projectId, .text "1"), (.projectName, .text "项目"), (.projectShortName, .text "项目"),
      (.mnemonic, .text "1"), (.projectManagerId, .int 1), (.projectType, .int 1),
      (.projectLevel, .int 1), (.projectAttribute, .text "标准"), (.establishmentDate, .date e),
      (.establishmentStatus, .text "立项")]
  | .researchDate =>
    record 1 [(.researchDate, .date e), (.researcherId, .int 1), (.projectId, .int 1),
      (.manufacturer, .text "厂商")]
  | .plannedCompletionTime | .actualCompletionTime =>
    record 1 [(.projectType, .int 1), (.projectLevel, .int 1), (.projectId, .int 1),
      (.taskName, .text "任务"), (.creatorId, .int 1), (.createdAt, .date e),
      (.taskStatus, .text "进度中"), (.plannedCompletionTime, .date e), (.researcherId, .int 1),
      (.vendorStatus, .int 0), (.benchmarkingStatus, .int 0)]

/-- A body for an update handler with a text for a date. -/
def DateField.updateBody (s : String) : DateField → Json
  | .actualCompletionTime =>
    .dict [(.plannedCompletionTime, .str "2024-01-05"), (.actualCompletionTime, .str s)]
  | f => .dict [(f.field, .str s)]

theorem updateBody_get (f : DateField) (s : String) : (f.updateBody s).get f.field = .ok
    (some (.str s)) := by
  cases f <;> rfl

/-- **An update handler accepts the body** where it has a date to store or to leave. -/
theorem update_accepts {f : DateField} {k : Clock} {s : String} {d e : Date}
    (h : (updateReads f s).elim (f.kept (f.row e)) .date = .date d) :
    (handle k (.update f.resource 1 (.json (f.updateBody s)))
      (DB.ofRows [(f.resource.table, f.row e)])).1.Success := by
  cases f with
  | establishmentDate =>
    refine update_succeeds (by decide) rfl rfl (fun a ha => ?_) fun row db' => ⟨_, rfl⟩
    change a ∈ [_, _, _, _, _, _, _, _, _, _, _, _] at ha
    simp only [List.mem_cons, List.not_mem_nil, or_false] at ha
    rcases ha with rfl | rfl | rfl | rfl | rfl | rfl | rfl | rfl | rfl | rfl | rfl | rfl
    case inr.inr.inr.inr.inr.inr.inr.inr.inr.inl =>
      have hassign := congrArg Prod.snd (assignDate_str (updateBody_get .establishmentDate s))
      rw [show (assignDate _ Field.establishmentDate).2 = _ from hassign]
      cases parseDate (.str s) with
      | none => exact Or.inl rfl
      | some d => exact Or.inr ⟨.value (.date d), _, rfl, rfl, .date d, rfl, nofun, rfl⟩
    all_goals exact Or.inr ⟨_, _, rfl, rfl, _, rfl, by first | exact fun _ => rfl | nofun, rfl⟩
  | researchDate =>
    refine update_succeeds (by decide) rfl rfl (fun a ha => ?_) fun row db' => ⟨_, rfl⟩
    change a ∈ [_, _, _, _, _, _, _] at ha
    simp only [List.mem_cons, List.not_mem_nil, or_false] at ha
    rcases ha with rfl | rfl | rfl | rfl | rfl | rfl | rfl
    case inl =>
      have hassign := congrArg Prod.snd (assignDate_str (updateBody_get .researchDate s))
      rw [show (assignDate _ Field.researchDate).2 = _ from hassign]
      cases parseDate (.str s) with
      | none => exact Or.inl rfl
      | some d => exact Or.inr ⟨.value (.date d), _, rfl, rfl, .date d, rfl, nofun, rfl⟩
    all_goals exact Or.inr ⟨_, _, rfl, rfl, _, rfl, by first | exact fun _ => rfl | nofun, rfl⟩
  | plannedCompletionTime =>
    refine update_succeeds (by decide) rfl rfl (fun a ha => ?_) fun row db' => ⟨_, rfl⟩
    change a ∈ [_, _, _, _, _, _, _, _, _] at ha
    simp only [List.mem_cons, List.not_mem_nil, or_false] at ha
    rcases ha with rfl | rfl | rfl | rfl | rfl | rfl | rfl | rfl | rfl
    case inr.inr.inr.inr.inr.inl =>
      exact Or.inr ⟨.value (.date d), _, congrArg (Except.ok ∘ some) (completionTime_date h), rfl,
        .date d, rfl, nofun, rfl⟩
    all_goals exact Or.inr ⟨_, _, rfl, rfl, _, rfl, by first | exact fun _ => rfl | nofun, rfl⟩
  | actualCompletionTime =>
    refine update_succeeds (by decide) rfl rfl (fun a ha => ?_) fun row db' => ⟨_, rfl⟩
    change a ∈ [_, _, _, _, _, _, _, _, _] at ha
    simp only [List.mem_cons, List.not_mem_nil, or_false] at ha
    rcases ha with rfl | rfl | rfl | rfl | rfl | rfl | rfl | rfl | rfl
    case inr.inr.inr.inr.inr.inr.inr.inr =>
      exact Or.inr ⟨.value (.date d), _, congrArg (Except.ok ∘ some) (completionTime_date h), rfl,
        .date d, rfl, nofun, rfl⟩
    case inr.inr.inr.inr.inr.inl =>
      exact Or.inr ⟨.value (.date ⟨2024, 1, 5, by decide⟩), _, rfl, rfl, _, rfl, nofun, rfl⟩
    all_goals exact Or.inr ⟨_, _, rfl, rfl, _, rfl, by first | exact fun _ => rfl | nofun, rfl⟩

/-! ## When they agree -/

theorem newYear_isDate : IsDate 2024 1 1 := by decide

/-- A date other than a given one. -/
def otherDate (d : Date) : Date :=
  if d.day = 1 then ⟨2024, 1, 2, by decide⟩ else ⟨2024, 1, 1, newYear_isDate⟩

theorem otherDate_ne (d : Date) : otherDate d ≠ d := by
  unfold otherDate
  split_ifs with h
  · rintro rfl
    cases h
  · rintro rfl
    exact h rfl

/-- **The create handler stores a date for a text** if and only if it reads it. -/
theorem storedByCreate_iff (f : DateField) (s : String) (d : Date) :
    StoredByCreate f s d ↔ createReads f s = some d := by
  constructor
  · intro h
    obtain ⟨k, data, db, hget, hgood⟩ := h.possible
    obtain ⟨_, _, row, -, -, -, hid, hrows⟩ := create_stores (by cases f <;> decide) hgood
    have hfind := find_new hid hrows
    have hcell := created_reads hget hgood hfind
    rw [h.stored k data db row hget hgood hfind] at hcell
    cases hread : createReads f s with
    | some e =>
      rw [hread] at hcell
      exact congrArg some (Value.date.inj hcell).symm
    | none =>
      rw [hread] at hcell
      -- another clock gives another date
      have hf : f ≠ .actualCompletionTime := by
        rintro rfl
        cases hcell
      let k' : Clock := ⟨otherDate d, otherDate d, k.utcTime⟩
      have hother : (createReads f s).elim (f.fallback k') .date = .date (otherDate d) := by
        rw [hread]
        cases f with
        | establishmentDate | researchDate => rfl
        | plannedCompletionTime | actualCompletionTime => cases hcell
      have hgood' := create_accepts hf hother
      obtain ⟨_, _, row', -, -, -, hid', hrows'⟩ := create_stores (by cases f <;> decide) hgood'
      have hget' := createBody_get f hf s
      have hcell' := created_reads hget' hgood' (find_new hid' hrows')
      rw [h.stored k' _ _ row' hget' hgood' (find_new hid' hrows'), hother] at hcell'
      exact absurd (Value.date.inj hcell').symm (otherDate_ne d)
  · intro h
    have hf : f ≠ .actualCompletionTime := by
      rintro rfl
      cases h
    refine ⟨⟨Clock.epoch, _, _, createBody_get f hf s, create_accepts hf (d := d) ?_⟩, ?_⟩
    · rw [h]
      rfl
    · intro k data db row hget hgood hfind
      rw [created_reads hget hgood hfind, h]
      rfl

/-- **The update handler stores a date for a text** if and only if it reads it. -/
theorem storedByUpdate_iff (f : DateField) (s : String) (d : Date) :
    StoredByUpdate f s d ↔ updateReads f s = some d := by
  constructor
  · intro h
    obtain ⟨k, id, data, db, hget, hgood⟩ := h.possible
    obtain ⟨_, _, _, -, -, -, -, hfind⟩ := update_stores (by cases f <;> decide) hgood
    obtain ⟨row, -, hcell⟩ := updated_reads hget hgood hfind
    rw [h.stored k id data db _ hget hgood hfind] at hcell
    cases hread : updateReads f s with
    | some e =>
      rw [hread] at hcell
      exact congrArg some (Value.date.inj hcell).symm
    | none =>
      rw [hread] at hcell
      -- another row keeps another date
      have hother : (updateReads f s).elim (f.kept (f.row (otherDate d))) .date =
          .date (otherDate d) := by
        rw [hread]
        cases f with
        | establishmentDate | researchDate => rfl
        | plannedCompletionTime | actualCompletionTime => cases hcell
      have hgood' := update_accepts (k := k) hother
      obtain ⟨_, _, _, -, -, -, -, hfind'⟩ := update_stores (by cases f <;> decide) hgood'
      have hget' := updateBody_get f s
      obtain ⟨row', hrow', hcell'⟩ := updated_reads hget' hgood' hfind'
      have hrow : row' = f.row (otherDate d) := by
        cases f <;> exact (Option.some.inj hrow').symm
      rw [h.stored k 1 _ _ _ hget' hgood' hfind', hrow, hother] at hcell'
      exact absurd (Value.date.inj hcell').symm (otherDate_ne d)
  · intro h
    refine ⟨⟨Clock.epoch, 1, _, _, updateBody_get f s, update_accepts (d := d) (e := d) ?_⟩, ?_⟩
    · rw [h]
      rfl
    · intro k id data db row' hget hgood hfind
      obtain ⟨row, -, hcell⟩ := updated_reads hget hgood hfind
      rw [hcell, h]
      rfl

/-- The texts that both handlers of a field read the same way: for the establishment date a text
    with a `T` is an ISO date and time if and only if its part before the `T` is a date, and for the
    actual completion time the text is no ISO date at all. -/
def SameReading (s : String) : DateField → Prop
  | .establishmentDate =>
    'T' ∈ s.toList → ((strptimeDate (beforeFirst 'T' s)).isSome ↔
      (fromisoformat (replaceZulu s)).isSome)
  | .researchDate | .plannedCompletionTime => True
  | .actualCompletionTime => fromisoformat (replaceZulu s) = none

/-- **The two handlers of a field store the same date for a text** if and only if they read it the
    same way. -/
theorem date_handlers_agree_iff (f : DateField) (s : String) :
    (∀ d, StoredByCreate f s d ↔ StoredByUpdate f s d) ↔ SameReading s f := by
  simp only [storedByCreate_iff, storedByUpdate_iff]
  cases f with
  | establishmentDate =>
    by_cases hT : 'T' ∈ s.toList
    · have hne : s ≠ "" := by
        rintro rfl
        cases hT
      have hread : updateReads .establishmentDate s = fromisoformat (replaceZulu s) := by
        rw [updateReads, parseDate, if_neg hne, if_pos hT]
      have hcreate : createReads .establishmentDate s = strptimeDate (beforeFirst 'T' s) := by
        rw [createReads, if_pos hT]
      rw [hread, hcreate]
      constructor
      · intro h _
        rw [Option.isSome_iff_exists, Option.isSome_iff_exists]
        exact exists_congr h
      · intro h d
        constructor
        · intro hd
          obtain ⟨e, he⟩ := Option.isSome_iff_exists.mp ((h hT).mp (Option.isSome_of_eq_some hd))
          rw [he, strptimeDate_fromisoformat hT hd he]
        · intro hd
          obtain ⟨e, he⟩ := Option.isSome_iff_exists.mp ((h hT).mpr (Option.isSome_of_eq_some hd))
          rw [he, strptimeDate_fromisoformat hT he hd]
    · refine iff_of_true (fun d => ?_) fun h => absurd h hT
      rw [createReads, if_neg hT, updateReads, parseDate]
      by_cases hs : s = ""
      · subst hs
        exact Iff.rfl
      · rw [if_neg hs, if_neg hT]
  | researchDate => exact iff_of_true (fun d => Iff.rfl) trivial
  | plannedCompletionTime => exact iff_of_true (fun d => Iff.rfl) trivial
  | actualCompletionTime =>
    change (∀ d, none = some d ↔ fromisoformat (replaceZulu s) = some d) ↔
      fromisoformat (replaceZulu s) = none
    rw [Option.eq_none_iff_forall_ne_some]
    refine forall_congr' fun d => ?_
    constructor
    · intro h hd
      cases h.mpr hd
    · intro h
      exact iff_of_false nofun h

/-- A text with an hour out of range: the create handler drops the time, the update handler keeps
    the old date. -/
theorem date_handlers_differ :
    StoredByCreate .establishmentDate "2024-01-05T25:00" ⟨2024, 1, 5, by decide⟩ ∧
      ¬ StoredByUpdate .establishmentDate "2024-01-05T25:00" ⟨2024, 1, 5, by decide⟩ := by
  rw [storedByCreate_iff, storedByUpdate_iff]
  decide

end ProjectEvaluation.Backend
