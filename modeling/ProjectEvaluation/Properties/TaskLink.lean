import ProjectEvaluation.Properties.References

/-!
# Vendor researches and their tasks

A vendor research carries the name of its task as a text. Nothing keeps the names of
tasks distinct, and a task that is renamed leaves its researches behind.

Results:
* `link_cases`: what the requests of the two resources do to the two tables.
* `linkStep_attached_iff`: a request keeps the researches attached iff it keeps the
  names in use.
* `links_hold_iff`: in a run the researches stay attached to their tasks, and a
  deletion removes those of its task, iff all requests keep the names in use.
-/

namespace ProjectEvaluation.Backend

open Python Relational Transaction

/-! ## Stored values -/

/-- The value a text column stores. -/
def textValue (j : Json) : Value := (bindJson .string j).toOption.getD .null

/-- The task a body names. -/
def namedTask (data : Json) : Value := textValue (bodyValue data .taskName)

/-- A column without a default in a new row. -/
theorem newRow_bound {k : Clock} {t : Table} {attrs : List (Field × Attr)} {db w : DB}
    (hins : insertRow k t attrs db = .ok w) {c : Column} (hc : c ∈ t.columns)
    (hdefault : c.default = none) {j : Json}
    (hlookup : attrs.lookup c.field = some (.json j)) :
    (newRow k t attrs db).cell c.field = (bindJson c.type j).toOption.getD .null := by
  obtain ⟨v, hinit, -⟩ := (insertRow_eq_ok.mp hins).2.1 c hc
  rw [newRow_cell hc hinit]
  rw [Column.initial_eq_bind k hlookup (Or.inl hdefault), Attr.bind] at hinit
  rw [hinit]
  rfl

/-- **A create handler adds a row** with the value the body has for a column. -/
theorem created_value {k : Clock} {r : Resource} {body : Body} {db db' : DB}
    (h : Created k r body db db')
    (hr : r ≠ .courseware) {c : Column} (hc : c ∈ r.table.columns) (hdefault : c.default = none)
    (hattrs : ∀ data attrs, r.attrs k data db = .ok attrs →
      attrs.lookup c.field = some (.json (bodyValue data c.field))) :
    ∃ data row, body = .json data ∧ row.id = nextId (db r.table) ∧
      row.cell c.field = (bindJson c.type (bodyValue data c.field)).toOption.getD .null ∧
      db' r.table = db r.table ++ [row] ∧ ∀ t, t ≠ r.table → db' t = db t := by
  obtain ⟨data, attrs, w, rfl, hnew, hins, -, hsame⟩ := h
  obtain rfl := hsame hr
  exact ⟨data, newRow k r.table attrs db, rfl, rfl,
    newRow_bound hins hc hdefault (hattrs data attrs hnew), insertRow_rows hins,
    fun t ht => insertRow_other hins ht⟩

/-- **An update handler changes one row**, and a column of it where the body has a value for it. -/
theorem updated_value {k : Clock} {r : Resource} {id : ℕ} {body : Body} {db db' : DB}
    (h : Updated k r id body db db')
    (hr : r ≠ .courseware) {f : Field} {c : Column} (hc : r.table.column f = some c)
    (hkeep : ∀ data row assignments, r.assignments data row db = .ok assignments →
      keep data row f ∈ assignments) :
    ∃ data row, body = .json data ∧ row ∈ db r.table ∧ row.id = id ∧
      (∃ g : Record → Record, (∀ q, (g q).id = q.id) ∧ (∀ q, q.id ≠ id → g q = q) ∧
        (g row).cell f =
          (if data.has f then (bindJson c.type (bodyValue data f)).toOption.getD .null
            else row.cell f) ∧
        db' r.table = (db r.table).map g) ∧
      ∀ t, t ≠ r.table → db' t = db t := by
  obtain ⟨row, data, assignments, ops, w, -, hfind, rfl, hassign, hops, hall, -, hsame⟩ := h
  obtain rfl := hsame fun hc => hr hc.1
  have hcell := kept_value hassign hops hall hc (hkeep data row assignments hassign) row
  have hid : row.id = id := find_id hfind
  refine ⟨data, row, rfl, mem_of_find hfind, hid,
    ⟨fun q => if q.id = id then assignCells q (updateValues r.table assignments) else q,
      fun q => ?_, fun q hq => if_neg hq, ?_, ?_⟩, fun t ht => ?_⟩
  · show (if q.id = id then assignCells q (updateValues r.table assignments) else q).id = q.id
    split_ifs <;> rfl
  · show (if row.id = id then assignCells row (updateValues r.table assignments) else row).cell f =
      _
    rw [if_pos hid]
    exact hcell
  · rw [(updateOps_eq hops hall).1]
    exact setCells_same ..
  · rw [(updateOps_eq hops hall).1]
    exact setCells_other db id _ ht

/-- **A create handler adds a row** with the text the body has for a column. -/
theorem created_text {k : Clock} {r : Resource} {body : Body} {db db' : DB}
    (h : Created k r body db db')
    (hr : r ≠ .courseware) {c : Column} (hc : c ∈ r.table.columns) (hty : c.type = .string)
    (hdefault : c.default = none)
    (hattrs : ∀ data attrs, r.attrs k data db = .ok attrs →
      attrs.lookup c.field = some (.json (bodyValue data c.field))) :
    ∃ data row, body = .json data ∧ row.id = nextId (db r.table) ∧
      row.cell c.field = textValue (bodyValue data c.field) ∧ db' r.table = db r.table ++ [row] ∧
      ∀ t, t ≠ r.table → db' t = db t := by
  have hcreated := created_value h hr hc hdefault hattrs
  rwa [hty] at hcreated

/-- **An update handler changes one row**, and a text column of it where the body has a value
    for it. -/
theorem updated_text {k : Clock} {r : Resource} {id : ℕ} {body : Body} {db db' : DB}
    (h : Updated k r id body db db')
    (hr : r ≠ .courseware) {f : Field} {c : Column} (hc : r.table.column f = some c)
    (hty : c.type = .string)
    (hkeep : ∀ data row assignments, r.assignments data row db = .ok assignments →
      keep data row f ∈ assignments) :
    ∃ data row, body = .json data ∧ row ∈ db r.table ∧ row.id = id ∧
      (∃ g : Record → Record, (∀ q, (g q).id = q.id) ∧ (∀ q, q.id ≠ id → g q = q) ∧
        (g row).cell f = (if data.has f then textValue (bodyValue data f) else row.cell f) ∧
        db' r.table = (db r.table).map g) ∧
      ∀ t, t ≠ r.table → db' t = db t := by
  have hupdated := updated_value h hr hc hkeep
  rwa [hty] at hupdated

/-! ## Requests -/

/-- The requests of the research tasks and the vendor researches. -/
inductive LinkRequest
  | createTask (body : Body)
  | updateTask (id : ℕ) (body : Body)
  | deleteTask (id : ℕ)
  | createVendor (body : Body)
  | updateVendor (id : ℕ) (body : Body)
  | deleteVendor (id : ℕ)

/-- The handler a request is for. -/
def LinkRequest.toRequest : LinkRequest → Request
  | .createTask body => .create .researchTask body
  | .updateTask id body => .update .researchTask id body
  | .deleteTask id => .delete .researchTask id
  | .createVendor body => .create .vendorResearch body
  | .updateVendor id body => .update .vendorResearch id body
  | .deleteVendor id => .delete .vendorResearch id

/-- The rows of a table get one more row, with a name. -/
def Adds (rows rows' : List Record) (name : Value) : Prop :=
  ∃ row : Record, row.id = nextId rows ∧ row.cell .taskName = name ∧ rows' = rows ++ [row]

/-- A row of a table is updated, and may get a name. -/
def Renames (rows rows' : List Record) (id : ℕ) (data : Json) : Prop :=
  ∃ row ∈ rows, row.id = id ∧ ∃ g : Record → Record,
    (∀ r, (g r).id = r.id) ∧ (∀ r, r.id ≠ id → g r = r) ∧
    (g row).cell .taskName = (if data.has .taskName then namedTask data else row.cell .taskName) ∧
    rows' = rows.map g

/-- What a request that is carried out does to the tasks and the vendor researches. -/
def LinkStep (db db' : DB) : LinkRequest → Prop
  | .createTask body => ∃ data, body = .json data ∧
      Adds (db .researchTask) (db' .researchTask) (namedTask data) ∧
        db' .vendorResearch = db .vendorResearch
  | .updateTask id body => ∃ data, body = .json data ∧
      Renames (db .researchTask) (db' .researchTask) id data ∧
        db' .vendorResearch = db .vendorResearch
  | .deleteTask id => ∃ task ∈ db .researchTask, task.id = id ∧
      db' .researchTask = (db .researchTask).filter (fun t => t.id ≠ id) ∧
      db' .vendorResearch = (db .vendorResearch).filter fun v =>
        v.cell .taskName ≠ task.cell .taskName
  | .createVendor body => ∃ data, body = .json data ∧ db' .researchTask = db .researchTask ∧
      Adds (db .vendorResearch) (db' .vendorResearch) (namedTask data)
  | .updateVendor id body => ∃ data, body = .json data ∧ db' .researchTask = db .researchTask ∧
      Renames (db .vendorResearch) (db' .vendorResearch) id data
  | .deleteVendor id => db' .researchTask = db .researchTask ∧
      db' .vendorResearch = (db .vendorResearch).filter fun v => v.id ≠ id

/-- A create handler adds a row with the name of the body. -/
theorem created_adds {k : Clock} {r : Resource} {body : Body} {db db' : DB}
    (h : Created k r body db db')
    (hr : r ≠ .courseware) {c : Column} (hc : c ∈ r.table.columns) (hfield : c.field = .taskName)
    (hty : c.type = .string) (hdefault : c.default = none)
    (hattrs : ∀ data attrs, r.attrs k data db = .ok attrs →
      attrs.lookup .taskName = some (.json (bodyValue data .taskName))) :
    ∃ data, body = .json data ∧ Adds (db r.table) (db' r.table) (namedTask data) ∧
      ∀ t, t ≠ r.table → db' t = db t := by
  obtain ⟨data, row, rfl, hid, hname, hrows, hother⟩ := created_text h hr hc hty hdefault
    (fun data attrs h => by rw [hfield]; exact hattrs data attrs h)
  rw [hfield] at hname
  exact ⟨data, rfl, ⟨row, hid, hname, hrows⟩, hother⟩

/-- An update handler changes one row, and its name where the body has one. -/
theorem updated_renames {k : Clock} {r : Resource} {id : ℕ} {body : Body} {db db' : DB}
    (h : Updated k r id body db db') (hr : r ≠ .courseware) {c : Column}
    (hc : r.table.column .taskName = some c) (hty : c.type = .string)
    (hkeep : ∀ data row assignments, r.assignments data row db = .ok assignments →
      keep data row .taskName ∈ assignments) :
    ∃ data, body = .json data ∧ Renames (db r.table) (db' r.table) id data ∧
      ∀ t, t ≠ r.table → db' t = db t := by
  obtain ⟨data, row, rfl, hrow, hid, hg, hother⟩ := updated_text h hr hc hty hkeep
  exact ⟨data, rfl, ⟨row, hrow, hid, hg⟩, hother⟩

/-- Deletions from tables that nothing refers to remove their rows, and nothing else. -/
theorem deleteAll_unreferenced {gone : List (Table × ℕ)} {db db' : DB}
    (hgone : ∀ p ∈ gone, ∀ ref ∈ foreignKeys, ref.target ≠ p.1)
    (h : applyAll applyOp (gone.map fun p => .delete p.1 p.2) db = .ok db') (t : Table) :
    db' t = (db t).filter fun r => (t, r.id) ∉ gone := by
  induction gone generalizing db with
  | nil => cases h; simp
  | cons p gone ih =>
    rw [List.map_cons, applyAll_cons, bind_eq_ok] at h
    obtain ⟨w, hdel, h⟩ := h
    obtain ⟨-, rfl⟩ := deleteRow_eq_ok.mp hdel
    rw [ih (fun q hq => hgone q (List.mem_cons_of_mem _ hq)) h]
    rw [erase_unreferenced schema db p.2 (hgone p (List.mem_cons_self ..))]
    by_cases ht : t = p.1
    · subst ht
      rw [removeWhere, Function.update_self, List.filter_filter]
      refine List.filter_congr fun r _ => ?_
      by_cases hid : r.id = p.2 <;> simp [hid, Prod.ext_iff]
    · rw [removeWhere_other db _ ht]
      refine List.filter_congr fun r _ => ?_
      simp [Prod.ext_iff, ht]

/-- The vendor researches of a task are those with its name. -/
theorem researchesOf_spec {task : Record} {db : DB} {others : List (Table × ℕ)} (hv : Valid db)
    (htask : task ∈ db .researchTask) (h : researchesOf task db = .ok others) :
    others = ((db .vendorResearch).filter fun v => v.cell .taskName = task.cell .taskName).map
      fun v => (.vendorResearch, v.id) := by
  have hc : required .taskName .string ∈ Table.researchTask.columns :=
    Table.mem_of_column (f := .taskName) rfl
  have hnull : task.cell .taskName ≠ .null := hv.notNull .researchTask _ hc rfl task htask
  have hcanonical : Canonical .string (task.cell .taskName) :=
    hv.canonical .researchTask _ hc task htask
  have hbind : bindJson .string (task.cell .taskName).toJson = .ok (task.cell .taskName) :=
    bindJson_toJson rfl hcanonical
  have hjson : (task.cell .taskName).toJson ≠ .null := by
    intro hj
    rw [hj] at hbind
    exact hnull (Except.ok.inj hbind).symm
  rw [researchesOf, filterBy_of_bind rfl hjson hbind] at h
  cases h
  simp [hnull]

theorem taskTables_unreferenced :
    ∀ ref ∈ foreignKeys, ref.target ≠ .researchTask ∧ ref.target ≠ .vendorResearch := by
  decide

theorem createdTask_name {k : Clock} {data : Json} {db : DB} {attrs : List (Field × Attr)}
    (h : Resource.attrs k data db .researchTask = .ok attrs) :
    attrs.lookup .taskName = some (.json (bodyValue data .taskName)) := by
  obtain ⟨planned, -, h⟩ := do_eq_ok.mp h
  exact construct_key h rfl

theorem createdVendor_name {k : Clock} {data : Json} {db : DB} {attrs : List (Field × Attr)}
    (h : Resource.attrs k data db .vendorResearch = .ok attrs) :
    attrs.lookup .taskName = some (.json (bodyValue data .taskName)) := by
  obtain ⟨date, -, h⟩ := do_eq_ok.mp h
  exact construct_key h rfl

theorem updatedTask_name {data : Json} {row : Record} {db : DB} {assignments : List Assignment}
    (h : Resource.assignments data row db .researchTask = .ok assignments) :
    keep data row .taskName ∈ assignments := by
  obtain ⟨planned, -, h⟩ := do_eq_ok.mp h
  obtain ⟨actual, -, h⟩ := do_eq_ok.mp h
  cases h
  exact List.mem_of_getElem? (i := 3) rfl

theorem updatedVendor_name {data : Json} {row : Record} {db : DB} {assignments : List Assignment}
    (h : Resource.assignments data row db .vendorResearch = .ok assignments) :
    keep data row .taskName ∈ assignments := by
  cases h
  exact List.mem_of_getElem? (i := 3) rfl

theorem deleted_task {id : ℕ} {db db' : DB} (hv : Valid db) (h : Deleted .researchTask id db db') :
    LinkStep db db' (.deleteTask id) := by
  obtain ⟨task, others, -, hfind, hothers, hall⟩ := h
  have htask : task ∈ db .researchTask := mem_of_find hfind
  have hspec := researchesOf_spec hv htask hothers
  rw [deleteOps_eq] at hall
  have hgone : ∀ p ∈ others ++ [(.researchTask, id)], ∀ ref ∈ foreignKeys, ref.target ≠ p.1 := by
    intro p hp ref href
    rcases List.mem_append.mp hp with hp | hp
    · rw [hspec] at hp
      obtain ⟨v, -, rfl⟩ := List.mem_map.mp hp
      exact (taskTables_unreferenced ref href).2
    · rw [List.mem_singleton.mp hp]
      exact (taskTables_unreferenced ref href).1
  have hdb' := deleteAll_unreferenced hgone hall
  refine ⟨task, htask, find_id hfind, ?_, ?_⟩
  · rw [hdb' .researchTask]
    refine List.filter_congr fun t _ => ?_
    simp [hspec]
  · rw [hdb' .vendorResearch]
    refine List.filter_congr fun v hv' => ?_
    have hnamed : (Table.vendorResearch, v.id) ∈ others ↔
        v.cell .taskName = task.cell .taskName := by
      rw [hspec, List.mem_map]
      constructor
      · rintro ⟨q, hq, hid⟩
        obtain ⟨hq, hname⟩ := List.mem_filter.mp hq
        have heq : q = v :=
          List.inj_on_of_nodup_map (hv.keys .vendorResearch) hq hv' (congrArg Prod.snd hid)
        rw [← heq]
        exact of_decide_eq_true hname
      · exact fun hname => ⟨v, List.mem_filter.mpr ⟨hv', decide_eq_true hname⟩, rfl⟩
    simp [hnamed]

theorem deleted_vendor {id : ℕ} {db db' : DB} (h : Deleted .vendorResearch id db db') :
    LinkStep db db' (.deleteVendor id) := by
  obtain ⟨research, others, -, -, hothers, hall⟩ := h
  cases hothers
  have hgone : ∀ p ∈ [(Table.vendorResearch, id)], ∀ ref ∈ foreignKeys, ref.target ≠ p.1 := by
    intro p hp ref href
    rw [List.mem_singleton.mp hp]
    exact (taskTables_unreferenced ref href).2
  have hdb' := deleteAll_unreferenced hgone hall
  refine ⟨?_, ?_⟩
  · rw [hdb' .researchTask]
    simp
  · rw [hdb' .vendorResearch]
    refine List.filter_congr fun v _ => ?_
    simp

/-- **What a request does**: it refuses and leaves the database as it was, or it is
    carried out. -/
theorem link_cases {db : DB} (hv : Valid db) (k : Clock) (request : LinkRequest) :
    Runs db (handle k request.toRequest db) fun db' => LinkStep db db' request := by
  cases request with
  | createTask body =>
    refine (handle_create k .researchTask body db).imp fun db' h => ?_
    obtain ⟨data, hbody, hadds, hother⟩ :=
      created_adds h (by decide) (c := required .taskName .string)
      (Table.mem_of_column (f := .taskName) rfl) rfl rfl rfl fun _ _ => createdTask_name
    exact ⟨data, hbody, hadds, hother _ (by decide)⟩
  | updateTask id body =>
    refine (handle_update k .researchTask id body db).imp fun db' h => ?_
    obtain ⟨data, hbody, hrenames, hother⟩ :=
      updated_renames h (by decide) (c := required .taskName .string)
      rfl rfl fun _ _ _ => updatedTask_name
    exact ⟨data, hbody, hrenames, hother _ (by decide)⟩
  | deleteTask id => exact (handle_delete k .researchTask id db).imp fun _ h => deleted_task hv h
  | createVendor body =>
    refine (handle_create k .vendorResearch body db).imp fun db' h => ?_
    obtain ⟨data, hbody, hadds, hother⟩ :=
      created_adds h (by decide) (c := optional .taskName .string)
      (Table.mem_of_column (f := .taskName) rfl) rfl rfl rfl fun _ _ => createdVendor_name
    exact ⟨data, hbody, hother _ (by decide), hadds⟩
  | updateVendor id body =>
    refine (handle_update k .vendorResearch id body db).imp fun db' h => ?_
    obtain ⟨data, hbody, hrenames, hother⟩ :=
      updated_renames h (by decide) (c := optional .taskName .string)
      rfl rfl fun _ _ _ => updatedVendor_name
    exact ⟨data, hbody, hother _ (by decide), hrenames⟩
  | deleteVendor id => exact (handle_delete k .vendorResearch id db).imp fun _ h => deleted_vendor h

/-! ## Attachment -/

/-- The task each vendor research, by its id, was created for or last moved to. -/
abbrev Owner := ℕ → Option ℕ

/-- The first task with a name. -/
def taskWithName (db : DB) (name : Value) : Option ℕ :=
  ((db .researchTask).find? fun t => t.cell .taskName == name).map Row.id

/-- A request that names a task attaches its research to it. -/
def LinkRequest.attach (db : DB) (owner : Owner) : LinkRequest → Owner
  | .createVendor (.json data) =>
    Function.update owner (nextId (db .vendorResearch)) (taskWithName db (namedTask data))
  | .updateVendor id (.json data) =>
    if data.has .taskName then Function.update owner id (taskWithName db (namedTask data))
      else owner
  | _ => owner

/-- The vendor researches of a state belong to the first task with their name. -/
def ownerByName (db : DB) : Owner := fun id =>
  ((db .vendorResearch).find? fun v => v.id == id).bind fun v => taskWithName db (v.cell .taskName)

/-- A vendor research with a task name belongs to the one task with that name. -/
def Attached (db : DB) (owner : Owner) : Prop :=
  ∀ v ∈ db .vendorResearch, v.cell .taskName ≠ .null →
    ∃ task ∈ db .researchTask, owner v.id = some task.id ∧
      ∀ t ∈ db .researchTask, t.cell .taskName = v.cell .taskName ↔ t = task

/-- A deletion of a task removes the vendor researches that belong to it, and no others. -/
def DeletesOwn (db db' : DB) (owner : Owner) : LinkRequest → Prop
  | .deleteTask id =>
    db' .vendorResearch = (db .vendorResearch).filter fun v => owner v.id ≠ some id
  | _ => True

/-- A vendor research carries the name. -/
def Carried (db : DB) (name : Value) : Prop := ∃ v ∈ db .vendorResearch, v.cell .taskName = name

/-- A body that names a task names one task at most. -/
def NamesOne (db : DB) (data : Json) : Prop :=
  namedTask data ≠ .null → ∀ t ∈ db .researchTask, ∀ t' ∈ db .researchTask,
    t.cell .taskName = namedTask data → t'.cell .taskName = namedTask data → t = t'

/-- A request keeps the names in use: a new task has a name that no vendor research
    carries, a task is renamed only if none carries its old or its new name, and a
    vendor research that gets a name gets that of one task. -/
def LinkRequest.KeepsNames (db : DB) : LinkRequest → Prop
  | .createTask (.json data) => ¬ Carried db (namedTask data)
  | .updateTask id (.json data) => data.has .taskName = true → ∀ task ∈ db .researchTask,
      task.id = id →
      namedTask data = task.cell .taskName ∨
        (¬ Carried db (task.cell .taskName) ∧ ¬ Carried db (namedTask data))
  | .createVendor (.json data) => NamesOne db data
  | .updateVendor _ (.json data) => data.has .taskName = true → NamesOne db data
  | _ => True

/-- A request that names a task in a vendor research names one that exists. -/
def LinkRequest.NamesExisting (db : DB) : LinkRequest → Prop
  | .createVendor (.json data) =>
    namedTask data ≠ .null → ∃ t ∈ db .researchTask, t.cell .taskName = namedTask data
  | .updateVendor _ (.json data) => data.has .taskName = true →
    namedTask data ≠ .null → ∃ t ∈ db .researchTask, t.cell .taskName = namedTask data
  | _ => True

/-! ## One request -/

section Steps

variable {db db' : DB} {owner : Owner}

theorem taskName_ne_null (hv : Valid db) {task : Record} (h : task ∈ db .researchTask) :
    task.cell .taskName ≠ .null :=
  hv.notNull .researchTask (required .taskName .string)
    (Table.mem_of_column (f := .taskName) rfl) rfl task h

theorem task_of_id (hv : Valid db) {t task : Record} (ht : t ∈ db .researchTask)
    (htask : task ∈ db .researchTask) (h : t.id = task.id) : t = task :=
  List.inj_on_of_nodup_map (hv.keys .researchTask) ht htask h

/-- The task with a name, where there is one. -/
theorem taskWithName_spec {name : Value} (h : ∃ t ∈ db .researchTask, t.cell .taskName = name) :
    ∃ t ∈ db .researchTask, taskWithName db name = some t.id ∧ t.cell .taskName = name := by
  obtain ⟨t, ht, hname⟩ := h
  have hfound : ((db .researchTask).find? fun t => t.cell .taskName == name).isSome :=
    List.find?_isSome.mpr ⟨t, ht, beq_iff_eq.mpr hname⟩
  obtain ⟨q, hq⟩ := Option.isSome_iff_exists.mp hfound
  have hqname : (q.cell .taskName == name) = true :=
    List.find?_some (p := fun t : Record => t.cell .taskName == name) hq
  exact ⟨q, List.mem_of_find?_eq_some hq, by rw [taskWithName, hq]; rfl, beq_iff_eq.mp hqname⟩

theorem taskWithName_null (hv : Valid db) : taskWithName db .null = none := by
  have hnone : (db .researchTask).find? (fun t => t.cell .taskName == .null) = none :=
    List.find?_eq_none.mpr fun t ht h => taskName_ne_null hv ht (beq_iff_eq.mp h)
  rw [taskWithName, hnone]
  rfl

theorem createTask_attached_iff {body : Body} (hv' : Valid db') (hatt : Attached db owner)
    (h : LinkStep db db' (.createTask body)) :
    Attached db' owner ↔ (LinkRequest.createTask body).KeepsNames db := by
  obtain ⟨data, rfl, ⟨new, hid, hname, htasks⟩, hvendors⟩ := h
  have hmem : ∀ {t}, t ∈ db .researchTask → t ∈ db' .researchTask := fun ht => by
    rw [htasks]; exact List.mem_append_left _ ht
  have hnew : new ∈ db' .researchTask := by
    rw [htasks]; exact List.mem_append_right _ (List.mem_singleton_self _)
  constructor
  · rintro hatt' ⟨v, hv, hcarried⟩
    have hnull : v.cell .taskName ≠ .null := by
      rw [hcarried, ← hname]
      exact taskName_ne_null hv' hnew
    obtain ⟨task, htask, -, honly⟩ := hatt v hv hnull
    obtain ⟨t, -, -, honly'⟩ := hatt' v (hvendors ▸ hv) hnull
    -- the old task and the new one have the name
    have htask' : task = t := (honly' task (hmem htask)).mp ((honly task htask).mpr rfl)
    have hnew' : new = t := (honly' new hnew).mp (by rw [hname, hcarried])
    have hlt : task.id < nextId (db .researchTask) := lt_nextId htask
    rw [htask', ← hnew', hid] at hlt
    omega
  · intro hfree v hv hnull
    rw [hvendors] at hv
    obtain ⟨task, htask, howner, honly⟩ := hatt v hv hnull
    refine ⟨task, hmem htask, howner, fun t ht => ?_⟩
    rw [htasks] at ht
    rcases List.mem_append.mp ht with ht | ht
    · exact honly t ht
    · obtain rfl := List.mem_singleton.mp ht
      have hne : t.cell .taskName ≠ v.cell .taskName := fun he => hfree ⟨v, hv, by rw [← he, hname]⟩
      exact iff_of_false hne fun he => hne (he ▸ (honly task htask).mpr rfl)

theorem updateTask_attached_iff {id : ℕ} {body : Body} (hv : Valid db) (hv' : Valid db')
    (hatt : Attached db owner) (h : LinkStep db db' (.updateTask id body)) :
    Attached db' owner ↔ (LinkRequest.updateTask id body).KeepsNames db := by
  obtain ⟨data, rfl, ⟨task, htask, rfl, g, hid, hother, hname, htasks⟩, hvendors⟩ := h
  have hmem : ∀ {t}, t ∈ db .researchTask → g t ∈ db' .researchTask := fun ht => by
    rw [htasks]; exact List.mem_map_of_mem ht
  have hsame : ∀ {t}, t ∈ db .researchTask → t ≠ task → g t = t := fun ht hne =>
    hother _ fun he => hne (task_of_id hv ht htask he)
  -- names that the researches cannot tell apart keep them attached
  have hkept : (∀ t ∈ db .researchTask, ∀ v ∈ db .vendorResearch,
      (g t).cell .taskName = v.cell .taskName ↔ t.cell .taskName = v.cell .taskName) →
        Attached db' owner := by
    intro hnames v hvendor hnull
    rw [hvendors] at hvendor
    obtain ⟨t, ht, howner, honly⟩ := hatt v hvendor hnull
    refine ⟨g t, hmem ht, by rw [hid t]; exact howner, fun q' hq' => ?_⟩
    rw [htasks] at hq'
    obtain ⟨q, hq, rfl⟩ := List.mem_map.mp hq'
    rw [hnames q hq v hvendor, honly q hq]
    exact ⟨congrArg g, fun he => task_of_id hv hq ht (by rw [← hid q, he, hid t])⟩
  by_cases hhas : data.has .taskName = true
  swap
  · rw [if_neg hhas] at hname
    refine iff_of_true (hkept fun t ht v _ => ?_) fun h => absurd h hhas
    by_cases he : t = task
    · rw [he, hname]
    · rw [hsame ht he]
  rw [if_pos hhas] at hname
  constructor
  · intro hatt' _ task' htask' hid'
    obtain rfl := task_of_id hv htask' htask hid'
    by_contra hbroken
    obtain ⟨hne, hcarried⟩ := not_or.mp hbroken
    rcases not_and_or.mp hcarried with hold | hnew
    -- a research of the task is left with the old name
    · obtain ⟨v, hvendor, hvname⟩ := not_not.mp hold
      have hnull : v.cell .taskName ≠ .null := hvname ▸ taskName_ne_null hv htask'
      obtain ⟨t, ht, howner, honly⟩ := hatt v hvendor hnull
      obtain rfl := (honly task' htask').mp hvname.symm
      obtain ⟨t', ht', howner', honly'⟩ := hatt' v (hvendors ▸ hvendor) hnull
      have hself : g task' = t' := task_of_id hv' (hmem ht) ht' (by
        rw [hid, ← Option.some_inj, ← howner, howner'])
      exact hne (by rw [← hname, hself, (honly' t' ht').mpr rfl, hvname])
    -- another task has the new name already
    · obtain ⟨v, hvendor, hvname⟩ := not_not.mp hnew
      have hnull : v.cell .taskName ≠ .null := by
        rw [hvname, ← hname]
        exact taskName_ne_null hv' (hmem htask')
      obtain ⟨t, ht, -, honly⟩ := hatt v hvendor hnull
      have hother' : t ≠ task' := fun he => hne (by rw [← hvname, ← he, (honly t ht).mpr rfl])
      obtain ⟨t', -, -, honly'⟩ := hatt' v (hvendors ▸ hvendor) hnull
      have htask'' : g task' = t' := (honly' _ (hmem htask')).mp (by rw [hname, hvname])
      have ht'' : g t = t' :=
        (honly' _ (hmem ht)).mp (by rw [hsame ht hother', (honly t ht).mpr rfl])
      exact hother' (task_of_id hv ht htask' (by rw [← hid t, ht'', ← htask'', hid task']))
  · intro hkeeps
    refine hkept fun t ht v hvendor => ?_
    by_cases he : t = task
    · rw [he, hname]
      rcases hkeeps hhas task htask rfl with hsame | ⟨hold, hnew⟩
      · rw [hsame]
      · exact iff_of_false (fun h => hnew ⟨v, hvendor, h.symm⟩) fun h => hold ⟨v, hvendor, h.symm⟩
    · rw [hsame ht he]

theorem deleteTask_attached {id : ℕ} (hv : Valid db) (hatt : Attached db owner)
    (h : LinkStep db db' (.deleteTask id)) : Attached db' owner := by
  obtain ⟨task, htask, rfl, htasks, hvendors⟩ := h
  intro v hvendor hnull
  rw [hvendors] at hvendor
  obtain ⟨hvendor, hname⟩ := List.mem_filter.mp hvendor
  obtain ⟨t, ht, howner, honly⟩ := hatt v hvendor hnull
  have hne : t.id ≠ task.id := by
    intro he
    obtain rfl := task_of_id hv ht htask he
    exact of_decide_eq_true hname ((honly t ht).mpr rfl).symm
  refine ⟨t, ?_, howner, fun q hq => ?_⟩
  · rw [htasks]
    exact List.mem_filter.mpr ⟨ht, decide_eq_true hne⟩
  · rw [htasks] at hq
    exact honly q (List.mem_filter.mp hq).1

/-- A vendor research without a task name belongs to no task. -/
def UnnamedFree (db : DB) (owner : Owner) : Prop :=
  ∀ v ∈ db .vendorResearch, v.cell .taskName = .null → owner v.id = none

/-- **A deletion removes the researches of the task**, and no others. -/
theorem linkStep_deletes {request : LinkRequest} (hv : Valid db) (hatt : Attached db owner)
    (hfree : UnnamedFree db owner) (h : LinkStep db db' request) :
    DeletesOwn db db' owner request := by
  cases request with
  | deleteTask id =>
    obtain ⟨task, htask, rfl, -, hvendors⟩ := h
    show db' .vendorResearch = _
    rw [hvendors]
    refine List.filter_congr fun v hvendor => ?_
    have hown : v.cell .taskName = task.cell .taskName ↔ owner v.id = some task.id := by
      by_cases hnull : v.cell .taskName = .null
      · rw [hnull, hfree v hvendor hnull]
        exact iff_of_false (fun he => taskName_ne_null hv htask he.symm) (nomatch ·)
      · obtain ⟨t, ht, howner, honly⟩ := hatt v hvendor hnull
        rw [howner, Option.some_inj]
        constructor
        · exact fun he => congrArg Row.id ((honly task htask).mp he.symm).symm
        · intro he
          obtain rfl := task_of_id hv ht htask he
          exact ((honly t ht).mpr rfl).symm
    simp only [ne_eq, hown]
  | _ => trivial

theorem createVendor_attached_iff {body : Body} (hatt : Attached db owner)
    (h : LinkStep db db' (.createVendor body))
    (hexists : (LinkRequest.createVendor body).NamesExisting db) :
    Attached db' ((LinkRequest.createVendor body).attach db owner) ↔
      (LinkRequest.createVendor body).KeepsNames db := by
  obtain ⟨data, rfl, htasks, new, hid, hname, hvendors⟩ := h
  have hold : ∀ v ∈ db .vendorResearch,
      (LinkRequest.createVendor (.json data)).attach db owner v.id = owner v.id := fun v hvendor =>
    Function.update_of_ne (Nat.ne_of_lt (lt_nextId hvendor)) _ _
  have hnew : (LinkRequest.createVendor (.json data)).attach db owner new.id =
      taskWithName db (namedTask data) := by
    rw [hid]
    exact Function.update_self ..
  constructor
  · intro hatt' hnull t ht t' ht' hname₁ hname₂
    have hmem : new ∈ db' .vendorResearch := by
      rw [hvendors]; exact List.mem_append_right _ (List.mem_singleton_self _)
    obtain ⟨task, -, -, honly⟩ := hatt' new hmem (by rw [hname]; exact hnull)
    rw [htasks, hname] at honly
    exact ((honly t ht).mp hname₁).trans ((honly t' ht').mp hname₂).symm
  · intro hone v hvendor hnull
    rw [hvendors] at hvendor
    rw [htasks]
    rcases List.mem_append.mp hvendor with hvendor | hvendor
    · rw [hold v hvendor]
      exact hatt v hvendor hnull
    · obtain rfl := List.mem_singleton.mp hvendor
      rw [hname] at hnull ⊢
      obtain ⟨t, ht, howner, htname⟩ := taskWithName_spec (hexists hnull)
      refine ⟨t, ht, by rw [hnew, howner],
        fun q hq => ⟨fun hq' => hone hnull q hq t ht hq' htname, ?_⟩⟩
      rintro rfl
      exact htname

theorem updateVendor_attached_iff {id : ℕ} {body : Body} (hv : Valid db) (hatt : Attached db owner)
    (h : LinkStep db db' (.updateVendor id body))
    (hexists : (LinkRequest.updateVendor id body).NamesExisting db) :
    Attached db' ((LinkRequest.updateVendor id body).attach db owner) ↔
      (LinkRequest.updateVendor id body).KeepsNames db := by
  obtain ⟨data, rfl, htasks, research, hresearch, rfl, g, hid, hother, hname, hvendors⟩ := h
  have hsame : ∀ {v}, v ∈ db .vendorResearch → v ≠ research → g v = v := fun hvendor hne =>
    hother _ fun he => hne (List.inj_on_of_nodup_map (hv.keys .vendorResearch) hvendor hresearch he)
  by_cases hhas : data.has .taskName = true
  · rw [if_pos hhas] at hname
    have howner : (LinkRequest.updateVendor research.id (.json data)).attach db owner =
        Function.update owner research.id (taskWithName db (namedTask data)) := if_pos hhas
    rw [howner]
    constructor
    · intro hatt' _ hnull t ht t' ht' hname₁ hname₂
      have hmem : g research ∈ db' .vendorResearch := by
        rw [hvendors]; exact List.mem_map_of_mem hresearch
      obtain ⟨task, -, -, honly⟩ := hatt' _ hmem (by rw [hname]; exact hnull)
      rw [htasks, hname] at honly
      exact ((honly t ht).mp hname₁).trans ((honly t' ht').mp hname₂).symm
    · intro hone v' hvendor' hnull
      rw [hvendors] at hvendor'
      obtain ⟨v, hvendor, rfl⟩ := List.mem_map.mp hvendor'
      rw [htasks]
      by_cases he : v = research
      · subst he
        rw [hname] at hnull ⊢
        rw [hid v, Function.update_self]
        obtain ⟨t, ht, hfound, htname⟩ := taskWithName_spec (hexists hhas hnull)
        refine ⟨t, ht, hfound, fun q hq => ⟨fun hq' => hone hhas hnull q hq t ht hq' htname, ?_⟩⟩
        rintro rfl
        exact htname
      · have hne : v.id ≠ research.id := fun hids =>
          he (List.inj_on_of_nodup_map (hv.keys .vendorResearch) hvendor hresearch hids)
        rw [hsame hvendor he] at hnull ⊢
        rw [Function.update_of_ne hne]
        exact hatt v hvendor hnull
  · rw [if_neg hhas] at hname
    have howner : (LinkRequest.updateVendor research.id (.json data)).attach db owner = owner :=
      if_neg hhas
    rw [howner]
    refine iff_of_true (fun v' hvendor' hnull => ?_) fun h => absurd h hhas
    rw [hvendors] at hvendor'
    obtain ⟨v, hvendor, rfl⟩ := List.mem_map.mp hvendor'
    have hnames : (g v).cell .taskName = v.cell .taskName := by
      by_cases he : v = research
      · rw [he, hname]
      · rw [hsame hvendor he]
    rw [htasks, hid v]
    rw [hnames] at hnull ⊢
    exact hatt v hvendor hnull

/-- **A request keeps the researches attached** iff it keeps the names in use. -/
theorem linkStep_attached_iff {request : LinkRequest} (hv : Valid db) (hv' : Valid db')
    (hatt : Attached db owner) (h : LinkStep db db' request) (hexists : request.NamesExisting db) :
    Attached db' (request.attach db owner) ↔ request.KeepsNames db := by
  cases request with
  | createTask body => exact createTask_attached_iff hv' hatt h
  | updateTask id body => exact updateTask_attached_iff hv hv' hatt h
  | deleteTask id => exact iff_of_true (deleteTask_attached hv hatt h) trivial
  | createVendor body => exact createVendor_attached_iff hatt h hexists
  | updateVendor id body => exact updateVendor_attached_iff hv hatt h hexists
  | deleteVendor id =>
    obtain ⟨htasks, hvendors⟩ := h
    refine iff_of_true (fun v hvendor hnull => ?_) trivial
    rw [hvendors] at hvendor
    rw [htasks]
    exact hatt v (List.mem_filter.mp hvendor).1 hnull

/-- Requests leave the researches without a task name with no owner. -/
theorem linkStep_unnamedFree {request : LinkRequest} (hv : Valid db) (hfree : UnnamedFree db owner)
    (h : LinkStep db db' request) : UnnamedFree db' (request.attach db owner) := by
  cases request with
  | createTask body =>
    obtain ⟨data, rfl, -, hvendors⟩ := h
    intro v hvendor
    rw [hvendors] at hvendor
    exact hfree v hvendor
  | updateTask id body =>
    obtain ⟨data, rfl, -, hvendors⟩ := h
    intro v hvendor
    rw [hvendors] at hvendor
    exact hfree v hvendor
  | deleteTask id =>
    obtain ⟨task, -, -, -, hvendors⟩ := h
    intro v hvendor
    rw [hvendors] at hvendor
    exact hfree v (List.mem_filter.mp hvendor).1
  | createVendor body =>
    obtain ⟨data, rfl, -, new, hid, hname, hvendors⟩ := h
    intro v hvendor hnull
    rw [hvendors] at hvendor
    rcases List.mem_append.mp hvendor with hvendor | hvendor
    · exact (Function.update_of_ne (Nat.ne_of_lt (lt_nextId hvendor)) _ _).trans
        (hfree v hvendor hnull)
    · obtain rfl := List.mem_singleton.mp hvendor
      rw [hname] at hnull
      rw [hid]
      refine (Function.update_self ..).trans ?_
      rw [hnull, taskWithName_null hv]
  | updateVendor id body =>
    obtain ⟨data, rfl, -, research, hresearch, rfl, g, hid, hother, hname, hvendors⟩ := h
    intro v' hvendor' hnull
    rw [hvendors] at hvendor'
    obtain ⟨v, hvendor, rfl⟩ := List.mem_map.mp hvendor'
    rw [hid v]
    show (if data.has .taskName
      then Function.update owner research.id (taskWithName db (namedTask data))
      else owner) v.id = none
    by_cases he : v.id = research.id
    · obtain rfl := List.inj_on_of_nodup_map (hv.keys .vendorResearch) hvendor hresearch he
      rw [hname] at hnull
      split_ifs at hnull ⊢ with hhas
      · rw [Function.update_self, hnull, taskWithName_null hv]
      · exact hfree v hvendor hnull
    · rw [hother v he] at hnull
      split_ifs
      · rw [Function.update_of_ne he]
        exact hfree v hvendor hnull
      · exact hfree v hvendor hnull
  | deleteVendor id =>
    obtain ⟨-, hvendors⟩ := h
    intro v hvendor
    rw [hvendors] at hvendor
    exact hfree v (List.mem_filter.mp hvendor).1

end Steps

/-! ## Runs -/

/-- A run: requests, each with the clocks at its time. -/
abbrev LinkRun := List (Clock × LinkRequest)

/-- In every state of a run the vendor researches are attached to the tasks they belong
    to, and every deletion of a task removes the researches that belong to it. -/
def LinksHold (db : DB) (owner : Owner) : LinkRun → Prop
  | [] => Attached db owner
  | (k, request) :: run =>
    Attached db owner ∧
      ((handle k request.toRequest db).1.Success →
        DeletesOwn db (handle k request.toRequest db).2 owner request) ∧
      LinksHold (handle k request.toRequest db).2
        (if (handle k request.toRequest db).1.Success then request.attach db owner else owner) run

/-- Every request keeps the names in use. -/
def AllKeepNames : DB → LinkRun → Prop :=
  Along LinkRequest.toRequest fun db request => request.KeepsNames db

/-- The requests for vendor researches name existing tasks. -/
def AllNameExisting : DB → LinkRun → Prop :=
  Along LinkRequest.toRequest fun db request => request.NamesExisting db

theorem LinksHold.attached {db : DB} {owner : Owner} {run : LinkRun} (h : LinksHold db owner run) :
    Attached db owner := by
  cases run with
  | nil => exact h
  | cons step run => exact h.1

/-- From a state whose researches are attached. -/
theorem linksHold_iff_of_attached {db : DB} {owner : Owner} {run : LinkRun} (hv : Valid db)
    (hatt : Attached db owner) (hfree : UnnamedFree db owner) (hnames : AllNameExisting db run) :
    LinksHold db owner run ↔ AllKeepNames db run := by
  induction run generalizing db owner with
  | nil => exact iff_of_true hatt trivial
  | cons step run ih =>
    obtain ⟨k, request⟩ := step
    obtain ⟨hexists, hnames⟩ := hnames
    show (Attached db owner ∧ _ ∧ _) ↔
      (_ → request.KeepsNames db) ∧ AllKeepNames (handle k request.toRequest db).2 run
    rw [and_iff_right hatt]
    have hv' : Valid (handle k request.toRequest db).2 := handle_valid hv
    rcases link_cases hv k request with ⟨hbad, hsame⟩ | ⟨hgood, hstep⟩
    · rw [if_neg hbad, and_iff_right fun h => absurd h hbad, and_iff_right fun h => absurd h hbad]
      rw [hsame] at hnames ⊢
      exact ih hv hatt hfree hnames
    rw [if_pos hgood, and_iff_right fun _ => linkStep_deletes hv hatt hfree hstep]
    have hkept := linkStep_attached_iff hv hv' hatt hstep (hexists hgood)
    have hfree' := linkStep_unnamedFree hv hfree hstep
    constructor
    · intro hrun
      exact ⟨fun _ => hkept.mp hrun.attached, (ih hv' hrun.attached hfree' hnames).mp hrun⟩
    · rintro ⟨hkeeps, hrun⟩
      exact (ih hv' (hkept.mpr (hkeeps hgood)) hfree' hnames).mpr hrun

theorem ownerByName_of_mem {db : DB} (hv : Valid db) {v : Record}
    (hvendor : v ∈ db .vendorResearch) :
    ownerByName db v.id = taskWithName db (v.cell .taskName) := by
  have hfind : (db .vendorResearch).find? (fun q => q.id == v.id) = some v :=
    find_of_mem (hv.keys .vendorResearch) hvendor
  rw [ownerByName, hfind]
  rfl

/-- **Tasks and their researches.** In a run from a state in which task names are
    distinct and every research names a task, the researches stay attached to the
    tasks they belong to, and a deletion of a task removes those that belong to it,
    iff every request that is carried out keeps the names in use. -/
theorem links_hold_iff (db : DB) (hv : Valid db)
    (hdistinct : ((db .researchTask).map fun t => t.cell .taskName).Nodup)
    (hexists : ∀ v ∈ db .vendorResearch, v.cell .taskName ≠ .null →
      ∃ t ∈ db .researchTask, t.cell .taskName = v.cell .taskName)
    (run : LinkRun) (hnames : AllNameExisting db run) :
    LinksHold db (ownerByName db) run ↔ AllKeepNames db run := by
  refine linksHold_iff_of_attached hv (fun v hvendor hnull => ?_) (fun v hvendor hnull => ?_) hnames
  · obtain ⟨t, ht, howner, htname⟩ := taskWithName_spec (hexists v hvendor hnull)
    refine ⟨t, ht, by rw [ownerByName_of_mem hv hvendor, howner], fun q hq => ⟨fun hq' => ?_, ?_⟩⟩
    · exact List.inj_on_of_nodup_map hdistinct hq ht (hq'.trans htname.symm)
    · rintro rfl
      exact htname
  · rw [ownerByName_of_mem hv hvendor, hnull, taskWithName_null hv]

/-- A new task. -/
def surveyTask : LinkRequest := .createTask (.json (.dict
  [(.projectType, .int 1), (.projectLevel, .int 1), (.projectId, .int 1), (.taskName, .str "调研一"),
   (.creatorId, .int 1), (.plannedCompletionTime, .str "2024-03-01"), (.researcherId, .int 1)]))

/-- A vendor research of the task. -/
def surveyVendor : LinkRequest := .createVendor (.json (.dict
  [(.researcherId, .int 1), (.projectId, .int 1), (.taskName, .str "调研一"),
    (.manufacturer, .str "厂商")]))

/-- The task gets another name. -/
def renameSurvey : LinkRequest := .updateTask 1 (.json (.dict
  [(.taskName, .str "调研二"), (.plannedCompletionTime, .str "2024-03-01")]))

/-- A task is created, gets a research, and is deleted. -/
theorem links_hold_iff_deleted :
    LinksHold (fun _ => []) (ownerByName fun _ => [])
      [(.epoch, surveyTask), (.epoch, surveyVendor), (.epoch, .deleteTask 1)] :=
  (links_hold_iff (fun _ => []) valid_empty List.nodup_nil (fun _ h => nomatch h)
    [(.epoch, surveyTask), (.epoch, surveyVendor), (.epoch, .deleteTask 1)]
    ⟨fun _ => trivial, fun _ _ => ⟨_, List.mem_cons_self .., rfl⟩, fun _ => trivial, trivial⟩).mpr
    ⟨fun _ ⟨_, h, _⟩ => (nomatch h), fun _ _ t ht t' ht' _ _ => by
      rw [List.mem_singleton.mp ht, List.mem_singleton.mp ht'], fun _ => trivial, trivial⟩

/-- A task with a vendor research. -/
def surveyed : DB :=
  (handle .epoch surveyVendor.toRequest (handle .epoch surveyTask.toRequest fun _ => []).2).2

/-- A task that is renamed leaves its research behind. -/
theorem renamed_task_links_break :
    Valid surveyed ∧
      (surveyed .vendorResearch).map (fun v => v.cell .taskName) = [.text "调研一"] ∧
      ((surveyed .researchTask).map fun t => t.cell .taskName).Nodup ∧
      (∀ v ∈ surveyed .vendorResearch,
        ∃ t ∈ surveyed .researchTask, t.cell .taskName = v.cell .taskName) ∧
      AllNameExisting surveyed [(.epoch, renameSurvey)] ∧
      ¬ LinksHold surveyed (ownerByName surveyed) [(.epoch, renameSurvey)] := by
  have hvendor : (surveyed .vendorResearch).map (fun v => v.cell .taskName) = [.text "调研一"] := by
    decide +kernel
  refine ⟨handle_valid (handle_valid valid_empty), hvendor, by decide +kernel, by decide +kernel,
    ⟨fun _ => trivial, trivial⟩, ?_⟩
  rintro ⟨-, -, hatt⟩
  have hmem : Value.text "调研一" ∈
      ((handle .epoch renameSurvey.toRequest surveyed).2 .vendorResearch).map fun v =>
        v.cell .taskName := by
    decide +kernel
  obtain ⟨v, hv, hname⟩ := List.mem_map.mp hmem
  obtain ⟨task, htask, -, honly⟩ := hatt v hv (hname ▸ nofun)
  have hleft : ∀ t ∈ (handle .epoch renameSurvey.toRequest surveyed).2 .researchTask,
      t.cell .taskName ≠ .text "调研一" := by decide +kernel
  exact hleft task htask (((honly task htask).mpr rfl).trans hname)

end ProjectEvaluation.Backend
