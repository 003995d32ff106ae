import ProjectEvaluation.Properties.Imports
import ProjectEvaluation.Properties.References

/-!
# The row a request stores

Results:
* `create_stores`, `update_stores`: the row a create handler adds and the row an update
  handler leaves, where they succeed.
* `run_delete_unreferenced`: what a delete handler does where nothing refers to the row.
* `project_created`, `project_updated`: the date and the `project_id` of a project.
* `learningRecord_created`, `learningRecord_updated`: the dates and times of a learning record.
-/

namespace ProjectEvaluation.Backend

open Python Relational Transaction

/-- **The new row** of a create request that succeeds. -/
theorem create_stores {k : Clock} {r : Resource} {body : Body} {db : DB} (hr : r ≠ .courseware)
    (hgood : (handle k (.create r body) db).1.Success) :
    ∃ data attrs row, body = .json data ∧ r.attrs k data db = .ok attrs ∧
      Built k r.table attrs row ∧
      row.id = nextId (db r.table) ∧
        (handle k (.create r body) db).2 r.table = db r.table ++ [row] := by
  have hruns : Runs db (handle k (.create r body) db) (Created k r body db) := create_cases rfl
  rcases hruns with ⟨hbad, -⟩ | ⟨-, data, attrs, w, hbody, hattrs, hins, -, hsame⟩
  · exact absurd hgood hbad
  · refine ⟨data, attrs, newRow k r.table attrs db, hbody, hattrs, built_newRow hins, rfl, ?_⟩
    rw [hsame hr, insertRow_rows hins]

/-- **The answer** of a create handler that succeeds is what it replies with the new row. -/
theorem create_answers {k : Clock} {t : Table}
    {prepare : Json → DB → Except Exn (Response ⊕ List (Field × Attr))}
    {reply : Record → DB → Except Exn Json} {data : Json} {db : DB}
    (hrefuse : ∀ response, prepare data db = .ok (.inl response) → ¬ response.Success)
    (hgood : (run (createHandler k t prepare reply (.json data)) db).1.Success) :
    ∃ row db', row.id = nextId (db t) ∧
      reply row db' = .ok (run (createHandler k t prepare reply (.json data)) db).1.body := by
  rw [run_createHandler] at hgood ⊢
  simp only [Body.getJson, Except.bind] at hgood ⊢
  cases hprepare : prepare data db with
  | error e =>
    rw [hprepare] at hgood
    exact absurd hgood (uncaught_not_success e)
  | ok prepared =>
    rw [hprepare] at hgood
    cases prepared with
    | inl response => exact absurd hgood (hrefuse response hprepare)
    | inr attrs =>
      simp only at hgood ⊢
      cases hins : insertRow k t attrs db with
      | error e =>
        rw [hins] at hgood
        exact absurd hgood (uncaught_not_success e)
      | ok db' =>
        rw [hins] at hgood
        simp only at hgood ⊢
        cases hreply : reply (newRow k t attrs db) db' with
        | error e =>
          rw [hreply] at hgood
          exact absurd hgood (uncaught_not_success e)
        | ok j => exact ⟨newRow k t attrs db, db', rfl, hreply⟩

/-- The new row is found by its id. -/
theorem find_new {db db' : DB} {t : Table} {row : Record} (hid : row.id = nextId (db t))
    (hrows : db' t = db t ++ [row]) :
    find (db' t) (nextId (db t)) = some row := by
  rw [hrows]
  exact find_append_new (db t) row hid

/-- What a column of a new row stores for an attribute. -/
theorem built_cell {k : Clock} {t : Table} {attrs : List (Field × Attr)} {row : Record}
    (h : Built k t attrs row)
    {f : Field} {c : Column} (hc : t.column f = some c) {a : Attr}
    (hlookup : attrs.lookup f = some a)
    (hsome : a.isNone = false) : a.bind c.type = .ok (row.cell f) := by
  obtain rfl := Table.column_field hc
  have hinitial := h c (Table.mem_of_column hc)
  rwa [Column.initial_eq_bind k hlookup (Or.inr hsome)] at hinitial

/-- **The row after an update request** that succeeds. -/
theorem update_stores {k : Clock} {r : Resource} {id : ℕ} {body : Body} {db : DB}
    (hr : r ≠ .courseware)
    (hgood : (handle k (.update r id body) db).1.Success) :
    ∃ data row assignments, body = .json data ∧ find (db r.table) id = some row ∧
      r.assignments data row db = .ok assignments ∧
      (∀ a ∈ assignments, ∃ x, a.2 = .ok x ∧ ∀ v, x = some v → ∀ c, r.table.column a.1 = some c →
        ∃ w, v.bind c.type = .ok w) ∧
      find ((handle k (.update r id body) db).2 r.table) id =
        some (assignCells row (updateValues r.table assignments)) := by
  have hruns : Runs db (handle k (.update r id body) db) (Updated k r id body db) :=
    update_cases rfl
  rcases hruns with ⟨hbad, -⟩ |
    ⟨-, row, data, assignments, ops, w, -, hfind, hbody, hassign, hops, hall, -, hsame⟩
  · exact absurd hgood hbad
  · obtain ⟨hw, hbinds⟩ := updateOps_eq hops hall
    refine ⟨data, row, assignments, hbody, hfind, hassign, fun a ha => ?_, ?_⟩
    · obtain ⟨x, hx, hbind⟩ := hbinds a ha
      exact ⟨x, hx, fun v hv c hc => (hbind v hv c hc).imp fun w hw => hw.1⟩
    · rw [hsame fun h => hr h.1, hw, find_setCells, hfind]
      rfl

/-- An update request leaves the rows under the other ids. -/
theorem update_find_other {k : Clock} {r : Resource} {id : ℕ} {body : Body} {db : DB}
    (hr : r ≠ .courseware)
    (hgood : (handle k (.update r id body) db).1.Success) {id' : ℕ} (hne : id' ≠ id) :
    find ((handle k (.update r id body) db).2 r.table) id' = find (db r.table) id' := by
  rcases handle_update k r id body db with ⟨hbad, -⟩ |
    ⟨-, _, _, _, _, w, -, -, -, -, hops, hall, -, hsame⟩
  · exact absurd hgood hbad
  · rw [hsame fun h => hr h.1]
    exact (sameBut_updateOps hops hall).find_other hne

/-- An update request succeeds for an id that is an integer of SQLite only. -/
theorem update_id_lt {k : Clock} {r : Resource} {id : ℕ} {body : Body} {db : DB}
    (hgood : (handle k (.update r id body) db).1.Success) : id < 2 ^ 63 := by
  rcases handle_update k r id body db with ⟨hbad, -⟩ | ⟨-, _, _, _, _, _, hid, -⟩
  · exact absurd hgood hbad
  · exact hid

/-- What a column stores for an assigned attribute. -/
theorem updated_cell {r : Resource} {data : Json} {row : Record} {db : DB}
    {assignments : List Assignment}
    (hassign : r.assignments data row db = .ok assignments)
    (hbinds : ∀ a ∈ assignments, ∃ x, a.2 = .ok x ∧ ∀ v, x = some v → ∀ c,
      r.table.column a.1 = some c →
      ∃ w, v.bind c.type = .ok w) {f : Field} {v : Attr}
        (hmem : (f, .ok (some v)) ∈ assignments) {c : Column}
    (hc : r.table.column f = some c) :
    v.bind c.type = .ok ((assignCells row (updateValues r.table assignments)).cell f) := by
  obtain ⟨x, hx, hbind⟩ := hbinds _ hmem
  obtain ⟨w, hw⟩ := hbind v (Except.ok.inj hx).symm c hc
  rw [assigned_cell (assignments_nodup hassign) row hmem hc hw]
  exact hw

/-! ## Requests that succeed -/

/-- A column without UNIQUE can store a value. -/
def CanStore (c : Column) (a : Attr) : Prop :=
  ∃ w, a.bind c.type = .ok w ∧ (w = .null → c.nullable = true) ∧ c.unique = false

theorem CanStore.admissible {c : Column} {a : Attr} (h : CanStore c a) (db : DB)
    (t : Table) (id : ℕ) :
    ∃ w, a.bind c.type = .ok w ∧ Admissible db t id c w := by
  obtain ⟨w, hbind, hnull, hunique⟩ := h
  exact ⟨w, hbind, hnull, fun h => absurd (hunique.symm.trans h) Bool.false_ne_true⟩

/-- **A create request succeeds** where every column can store its value. -/
theorem create_succeeds {k : Clock} {t : Table}
    {prepare : Json → DB → Except Exn (Response ⊕ List (Field × Attr))}
    {reply : Record → DB → Except Exn Json} {data : Json} {db : DB} {attrs : List (Field × Attr)}
    (hprepare : prepare data db = .ok (.inr attrs)) (hid : nextId (db t) < 2 ^ 63)
    (hcolumns : ∀ c ∈ t.columns, ∃ v, c.initial k attrs = .ok v ∧ (v = .null → c.nullable = true) ∧
      c.unique = false)
    (hreply : ∀ row db', ∃ j, reply row db' = .ok j) :
    (run (createHandler k t prepare reply (.json data)) db).1.Success := by
  have hins : insertRow k t attrs db = .ok (insert db t (newRow k t attrs db)) := by
    refine insertRow_eq_ok.mpr ⟨hid, fun c hc => ?_, rfl⟩
    obtain ⟨v, hv, hnull, hunique⟩ := hcolumns c hc
    exact ⟨v, hv, hnull, fun h => absurd (hunique.symm.trans h) Bool.false_ne_true⟩
  obtain ⟨j, hj⟩ := hreply (newRow k t attrs db) (insert db t (newRow k t attrs db))
  rw [run_createHandler]
  simp only [Body.getJson, Except.bind, hprepare, hins, hj]
  exact (by norm_num : 201 < 400)

/-- Assignments of what the columns can store can be carried out. -/
theorem assignments_apply (t : Table) (id : ℕ) {assignments : List Assignment}
    (h : ∀ a ∈ assignments, a.2 = .ok none ∨ ∃ v c, a.2 = .ok (some v) ∧ t.column a.1 = some c ∧
      CanStore c v)
    (db : DB) : ∃ ops db', updateOps t id assignments = .ok ops ∧
    applyAll applyOp ops db = .ok db' := by
  induction assignments generalizing db with
  | nil => exact ⟨[], db, rfl, rfl⟩
  | cons a assignments ih =>
    obtain ⟨f, x⟩ := a
    have hrest := fun b hb => h b (List.mem_cons_of_mem _ hb)
    rcases h (f, x) List.mem_cons_self with hx | ⟨v, c, hx, hc, hstore⟩
    · simp only at hx
      subst hx
      obtain ⟨ops, db', hops, hall⟩ := ih hrest db
      exact ⟨ops, db', hops, hall⟩
    · simp only at hx hc
      subst hx
      obtain rfl := Table.column_field hc
      obtain ⟨w, hbind, hadmissible⟩ := hstore.admissible db t id
      have hassign : applyOp (.assign t id c.field v) db = .ok (setCell db t id c.field w) :=
        (assign_eq_ok (Table.mem_of_column hc)).mpr ⟨w, hbind, hadmissible, rfl⟩
      obtain ⟨ops, db', hops, hall⟩ := ih hrest (setCell db t id c.field w)
      refine ⟨.assign t id c.field v :: ops, db', ?_, ?_⟩
      · show (updateOps t id assignments).map (Op.assign t id c.field v :: ·) = _
        rw [hops]
        rfl
      · rw [applyAll_cons, hassign]
        exact hall

/-- **An update request succeeds** where every column can store what is assigned to it. -/
theorem update_succeeds {t : Table} {missing : String}
    {prepare : Json → Record → DB → Except Exn (Response ⊕ List Assignment)}
    {reply : Record → DB → Except Exn Json}
    {id : ℕ} {data : Json} {db : DB} {row : Record} {assignments : List Assignment}
    (hid : id < 2 ^ 63)
    (hfind : find (db t) id = some row) (hprepare : prepare data row db = .ok (.inr assignments))
    (hstore : ∀ a ∈ assignments, a.2 = .ok none ∨ ∃ v c,
      a.2 = .ok (some v) ∧ t.column a.1 = some c ∧ CanStore c v)
    (hreply : ∀ row db', ∃ j, reply row db' = .ok j) :
    (run (updateHandler t missing prepare reply id (.json data)) db).1.Success := by
  obtain ⟨ops, db', hops, hall⟩ := assignments_apply t id hstore db
  have hfind' : find (db' t) id = some (assignCells row (updateValues t assignments)) := by
    rw [(updateOps_eq hops hall).1, find_setCells, hfind]
    rfl
  have hreload : reload t id db' = .ok (assignCells row (updateValues t assignments)) := by
    rw [reload, getById_eq_some.mpr ⟨hid, hfind'⟩]
    rfl
  obtain ⟨j, hj⟩ := hreply (assignCells row (updateValues t assignments)) db'
  rw [run_updateHandler, getById_eq_some.mpr ⟨hid, hfind⟩]
  simp only [Body.getJson, Except.bind, hprepare, hops, hall, hreload, hj]
  exact (by norm_num : 200 < 400)

/-- **A delete request succeeds** where no column that is NOT NULL refers to the row. -/
theorem delete_succeeds {t : Table} {missing ok : String} {id : ℕ} {db : DB} {row : Record}
    (hid : id < 2 ^ 63)
    (hfind : find (db t) id = some row) (hunblocked : ¬ Blocked schema db t id) :
    run (deleteHandler t missing ok (fun _ _ => .ok []) id) db =
      ({ status := 200, body := done ok }, erase schema db t id) := by
  have hdelete : applyAll applyOp (deleteOps t id []) db = .ok (erase schema db t id) := by
    rw [deleteOps, List.map_nil, List.nil_append, applyAll_singleton]
    exact deleteRow_eq_ok.mpr ⟨hunblocked, rfl⟩
  rw [run_deleteHandler, getById_eq_some.mpr ⟨hid, hfind⟩]
  simp only [Except.bind, hdelete]

/-! ## Rows that nothing refers to -/

/-- **A delete handler of a table that nothing refers to** removes the row; a row that is not
    there is not found, and nothing changes. -/
theorem run_delete_unreferenced {t : Table} (ht : ∀ ref ∈ foreignKeys, ref.target ≠ t)
    (missing ok : String) {id : ℕ}
    (hid : id < 2 ^ 63) (db : DB) :
    (run (deleteHandler t missing ok (fun _ _ => .ok []) id) db).2 =
      removeWhere db t (fun r => r.id == id) ∧
      ∀ row, find (db t) id = some row →
        (run (deleteHandler t missing ok (fun _ _ => .ok []) id) db).1.Success := by
  have hunblocked : ¬ Blocked schema db t id := by
    rintro ⟨ref, href, -, r, -, -, ref', href', -, -, htarget, -⟩
    exact ht ref' href' htarget
  cases hfind : find (db t) id with
  | none =>
    have hget : getById t id db = .ok none := by
      unfold getById
      rw [if_neg (Nat.not_le.mpr hid), hfind]
    rw [run_deleteHandler, hget]
    refine ⟨?_, nofun⟩
    have hrows : (db t).filter (fun r => !(r.id == id)) = db t := by
      refine List.filter_eq_self.mpr fun r hr => ?_
      have hne := find_eq_none.mp hfind r hr
      simpa using hne
    rw [removeWhere, hrows, Function.update_eq_self]
  | some row =>
    rw [delete_succeeds hid hfind hunblocked]
    exact ⟨erase_unreferenced schema db id ht, fun _ _ => (by norm_num : 200 < 400)⟩

/-! ## Projects -/

/-- What a create request stores for a source of its constructor. -/
theorem constructed_cell {k : Clock} {t : Table} {data : Json} {sources : List Source}
    {attrs : List (Field × Attr)}
    {row : Record} (hattrs : construct data sources = .ok attrs) (h : Built k t attrs row)
    {f : Field} {c : Column}
    (hc : t.column f = some c) {source : Source}
    (hsource : sources.find? (fun s => s.field == f) = some source) :
    ∃ a, source.eval data = .ok a ∧ (a.isNone = false → a.bind c.type = .ok (row.cell f)) := by
  obtain ⟨a, ha, hlookup⟩ := construct_lookup hattrs hsource
  exact ⟨a, ha, built_cell h hc hlookup⟩

/-- **A new project** has the date of the body and its `project_id`. -/
theorem project_created {k : Clock} {data : Json} {db : DB}
    (hgood : (handle k (.create .project (.json data)) db).1.Success) :
    ∃ row date projectId, data.getD .establishmentDate .null = .ok date ∧
      data.item .projectId = .ok projectId ∧
      row.cell .establishmentDate = .date (establishmentDate k date) ∧
      (projectId ≠ .null → bindJson .string projectId = .ok (row.cell .projectId)) ∧
      find ((handle k (.create .project (.json data)) db).2 .evaluationProject)
        (nextId (db .evaluationProject)) = some row := by
  obtain ⟨_, attrs, row, hbody, hattrs, hbuilt, hid, hrows⟩ := create_stores (by decide) hgood
  cases hbody
  obtain ⟨date, hdate, hattrs⟩ := do_eq_ok.mp hattrs
  obtain ⟨projectId, hprojectId, hattrs⟩ := do_eq_ok.mp hattrs
  obtain ⟨projectName, -, hattrs⟩ := do_eq_ok.mp hattrs
  obtain ⟨shortName, -, hattrs⟩ := do_eq_ok.mp hattrs
  obtain ⟨mnemonic, -, hattrs⟩ := do_eq_ok.mp hattrs
  refine ⟨row, date, projectId, hdate, hprojectId, ?_, ?_, find_new hid hrows⟩
  · obtain ⟨a, ha, hcell⟩ := constructed_cell (f := .establishmentDate) hattrs hbuilt rfl rfl
    cases ha
    exact (Except.ok.inj (hcell rfl)).symm
  · intro hne
    obtain ⟨a, ha, hcell⟩ := constructed_cell (f := .projectId) hattrs hbuilt rfl rfl
    obtain ⟨j, hj, rfl⟩ := map_eq_ok.mp ha
    cases hprojectId.symm.trans hj
    refine hcell ?_
    cases projectId <;> first | exact absurd rfl hne | rfl

/-- **A project after an update** has the date of the body, where it can be parsed, and the
    `project_id` of the body. -/
theorem project_updated {k : Clock} {id : ℕ} {data : Json} {db : DB}
    (hgood : (handle k (.update .project id (.json data)) db).1.Success) :
    ∃ row row' date projectId, find (db .evaluationProject) id = some row ∧
      find ((handle k (.update .project id (.json data)) db).2 .evaluationProject) id = some row' ∧
      data.get .establishmentDate = .ok date ∧ data.get .projectId = .ok projectId ∧
      row'.cell .establishmentDate =
        ((date.bind parseDate).elim (row.cell .establishmentDate) .date) ∧
      (∀ j, projectId = some j → bindJson .string j = .ok (row'.cell .projectId)) := by
  obtain ⟨_, row, assignments, hbody, hfind, hassign, hbinds, hfind'⟩ :=
    update_stores (by decide) hgood
  cases hbody
  have hassignments : assignments = projectAssignments data row := (Except.ok.inj hassign).symm
  have hdate : assignDate data .establishmentDate ∈ assignments :=
    hassignments ▸ List.mem_of_getElem? (i := 9) rfl
  have hprojectId : keep data row .projectId ∈ assignments :=
    hassignments ▸ List.mem_of_getElem? (i := 0) rfl
  obtain ⟨x, hx, -⟩ := hbinds _ hdate
  obtain ⟨date, hget, -⟩ := map_eq_ok.mp hx
  obtain ⟨y, hy, -⟩ := hbinds _ hprojectId
  obtain ⟨projectId, hget', -⟩ := map_eq_ok.mp hy
  refine ⟨row, _, date, projectId, hfind, hfind', hget, hget', ?_, ?_⟩
  · have hvalue : assignDate data .establishmentDate =
        (.establishmentDate, .ok ((date.bind parseDate).map fun d => .value (.date d))) := by
      rw [assignDate, hget]
      rfl
    rw [hvalue] at hdate
    cases hparsed : date.bind parseDate with
    | none =>
      refine unassigned_cell row fun v hmem => ?_
      have hnodup := assignments_nodup hassign
      have hsame := List.inj_on_of_nodup_map hnodup hmem hdate rfl
      rw [hparsed] at hsame
      cases hsame
    | some d =>
      rw [hparsed] at hdate
      exact (Except.ok.inj (updated_cell hassign hbinds hdate rfl)).symm
  · rintro j rfl
    have hvalue : keep data row .projectId = (.projectId, .ok (some (.json j))) := by
      rw [keep, hget']
      rfl
    rw [hvalue] at hprojectId
    exact updated_cell hassign hbinds hprojectId rfl

/-! ## Learning records -/

/-- A row has what the handlers read for a learning record. -/
structure LearningInput.StoredIn (input : LearningInput) (row : Record) : Prop where
  day : row.cell .learningDate = .date input.day
  startTime : row.cell .startTime = .time input.startTime
  endTime : row.cell .endTime = .time input.endTime
  duration : row.cell .learningDuration = .text (durationText input.startTime input.endTime)

/-- **A new learning record** has what the handler reads. -/
theorem learningRecord_created {k : Clock} {data : Json} {db : DB}
    (hgood : (handle k (.create .learningRecord (.json data)) db).1.Success) :
    ∃ input row, LearningInput.Reads input data db ∧ input.StoredIn row ∧
      find ((handle k (.create .learningRecord (.json data)) db).2 .learningRecord)
        (nextId (db .learningRecord)) = some row := by
  obtain ⟨_, attrs, row, hbody, hattrs, hbuilt, hid, hrows⟩ := create_stores (by decide) hgood
  cases hbody
  obtain ⟨input, hreads, rfl⟩ := learningAttrs_eq hattrs
  refine ⟨input, row, hreads, ⟨?_, ?_, ?_, ?_⟩, find_new hid hrows⟩
  · exact (Except.ok.inj (built_cell (f := .learningDate) hbuilt rfl rfl rfl)).symm
  · exact (Except.ok.inj (built_cell (f := .startTime) hbuilt rfl rfl rfl)).symm
  · exact (Except.ok.inj (built_cell (f := .endTime) hbuilt rfl rfl rfl)).symm
  · exact (Except.ok.inj (built_cell (f := .learningDuration) hbuilt rfl rfl rfl)).symm

/-- **A learning record after an update** has what the handler reads. -/
theorem learningRecord_updated {k : Clock} {id : ℕ} {data : Json} {db : DB}
    (hgood : (handle k (.update .learningRecord id (.json data)) db).1.Success) :
    ∃ input row, LearningInput.Reads input data db ∧ input.StoredIn row ∧
      find ((handle k (.update .learningRecord id (.json data)) db).2 .learningRecord) id =
        some row := by
  obtain ⟨_, row, assignments, hbody, -, hassign, hbinds, hfind⟩ := update_stores (by decide) hgood
  cases hbody
  obtain ⟨input, hreads, rfl⟩ :=
    learningAssignments_eq hassign fun a ha => (hbinds a ha).imp fun x hx => hx.1
  refine ⟨input, _, hreads, ⟨?_, ?_, ?_, ?_⟩, hfind⟩
  · exact (Except.ok.inj (updated_cell hassign hbinds (List.mem_of_getElem? (i := 3) rfl) rfl)).symm
  · exact (Except.ok.inj (updated_cell hassign hbinds (List.mem_of_getElem? (i := 4) rfl) rfl)).symm
  · exact (Except.ok.inj (updated_cell hassign hbinds (List.mem_of_getElem? (i := 5) rfl) rfl)).symm
  · exact (Except.ok.inj (updated_cell hassign hbinds (List.mem_of_getElem? (i := 6) rfl) rfl)).symm

end ProjectEvaluation.Backend
