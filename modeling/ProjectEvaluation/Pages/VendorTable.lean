import ProjectEvaluation.Backend.Routes.Projects

/-!
# Vendor researches as the pages see them

The objects the pages exchange with `routes.py`, and the table of vendor researches on the
server, row by row.

Results:
* `VendorTable.mem_create`, `VendorTable.mem_delete`: what a POST and a DELETE change.
* `SystemTable.mem_create`: what a POST of a system changes.
-/

namespace ProjectEvaluation.Pages

open Python Backend

/-! ## Objects -/

/-- A project in a list of the server. -/
structure Project where
  id : ℤ
  projectName : String
  deriving DecidableEq

/-- An entry of the dictionary of systems. -/
structure SystemEntry where
  id : ℕ
  systemName : String
  deriving DecidableEq

/-- A vendor research in a list of the server. -/
structure Vendor where
  id : ℕ
  researchDate : Date
  researcherId : ℤ
  projectId : ℤ
  taskName : Option String
  systemId : Option ℤ
  manufacturer : String
  remarks : Option String

/-- The body of the POST of a vendor research. -/
structure VendorData where
  researchDate : Json
  researcherId : ℤ
  projectId : ℤ
  taskName : String
  systemId : Option ℤ
  manufacturer : String
  remarks : String

/-- The body as JSON. -/
def VendorData.json (data : VendorData) : Json :=
  .dict [(.researchDate, data.researchDate), (.researcherId, .int data.researcherId),
    (.projectId, .int data.projectId), (.taskName, .str data.taskName),
    (.systemId, data.systemId.elim .null .int), (.manufacturer, .str data.manufacturer),
    (.remarks, .str data.remarks)]

/-- The row a POST makes; a date that cannot be read becomes the current one. -/
def VendorData.row (today : Date) (id : ℕ) (data : VendorData) : Vendor where
  id
  researchDate := (parseDate data.researchDate).getD today
  researcherId := data.researcherId
  projectId := data.projectId
  taskName := some data.taskName
  systemId := data.systemId
  manufacturer := data.manufacturer
  remarks := some data.remarks

/-- The cells of a vendor research that hold a text. -/
inductive TextCell
  | manufacturer | remarks
  deriving DecidableEq

/-- The field of a cell. -/
def TextCell.field : TextCell → Field
  | .manufacturer => .manufacturer
  | .remarks => .remarks

/-- The text of a cell. -/
def Vendor.text (v : Vendor) : TextCell → Option String
  | .manufacturer => some v.manufacturer
  | .remarks => v.remarks

/-- The body of a PUT: the text of a cell, or the id of a system, with or without its
    name. -/
inductive VendorUpdate
  | text (cell : TextCell) (s : String)
  | system (name : Option String) (id : Option ℕ)
  deriving DecidableEq

/-- The body as JSON. -/
def VendorUpdate.json : VendorUpdate → Json
  | .text cell s => .dict [(cell.field, .str s)]
  | .system name id =>
    .dict ((name.toList.map fun s => (.systemName, .str s)) ++
      [(.systemId, id.elim .null fun n => .int n)])

/-- The row after a PUT; the name of a system is not stored. -/
def VendorUpdate.apply : VendorUpdate → Vendor → Vendor
  | .text .manufacturer s, v => { v with manufacturer := s }
  | .text .remarks s, v => { v with remarks := some s }
  | .system _ id, v => { v with systemId := id.map fun n => (n : ℤ) }

theorem VendorUpdate.apply_id (u : VendorUpdate) (v : Vendor) : (u.apply v).id = v.id := by
  cases u with
  | text cell s => cases cell <;> rfl
  | system name id => rfl

/-- The row after a PUT of a whole vendor research; a date that cannot be read is kept. -/
def VendorData.replace (data : VendorData) (v : Vendor) : Vendor where
  id := v.id
  researchDate := (parseDate data.researchDate).getD v.researchDate
  researcherId := data.researcherId
  projectId := data.projectId
  taskName := some data.taskName
  systemId := data.systemId
  manufacturer := data.manufacturer
  remarks := some data.remarks

@[simp] theorem VendorUpdate.apply_text_same (cell : TextCell) (s : String) (v : Vendor) :
    ((VendorUpdate.text cell s).apply v).text cell = some s := by
  cases cell <;> rfl

theorem VendorUpdate.apply_text_other {cell cell' : TextCell} (h : cell' ≠ cell) (s : String)
    (v : Vendor) :
    ((VendorUpdate.text cell s).apply v).text cell' = v.text cell' := by
  cases cell <;> cases cell' <;> first | exact absurd rfl h | rfl

@[simp] theorem VendorUpdate.apply_text_systemId (cell : TextCell) (s : String) (v : Vendor) :
    ((VendorUpdate.text cell s).apply v).systemId = v.systemId := by
  cases cell <;> rfl

@[simp] theorem VendorUpdate.apply_system_text (name : Option String) (id : Option ℕ) (v : Vendor)
    (cell : TextCell) :
    ((VendorUpdate.system name id).apply v).text cell = v.text cell := by
  cases cell <;> rfl

/-! ## The table -/

/-- A table of vendor researches with its primary key. -/
structure VendorTable where
  rows : List Vendor
  keys : (rows.map Vendor.id).Nodup

namespace VendorTable

/-- The key of the next row: one more than the largest key in use. -/
def nextId (t : VendorTable) : ℕ := (t.rows.map Vendor.id).foldr max 0 + 1

theorem lt_nextId {t : VendorTable} {v : Vendor} (h : v ∈ t.rows) : v.id < t.nextId :=
  Relational.lt_nextKey (List.mem_map_of_mem h)

/-- `POST /api/vendor-researches`. -/
def create (today : Date) (t : VendorTable) (data : VendorData) : VendorTable where
  rows := t.rows ++ [data.row today t.nextId]
  keys := by
    rw [List.map_append, List.nodup_append]
    refine ⟨t.keys, List.nodup_singleton _, ?_⟩
    intro a ha b hb
    obtain ⟨v, hv, rfl⟩ := List.mem_map.mp ha
    rw [List.mem_singleton.mp hb]
    exact Nat.ne_of_lt (lt_nextId hv)

/-- `DELETE /api/vendor-researches/<id>`; nothing where there is no such row. -/
def delete (t : VendorTable) (id : ℕ) : VendorTable where
  rows := t.rows.filter fun v => v.id ≠ id
  keys := t.keys.sublist (List.filter_sublist.map _)

/-- A change of the row with a key. -/
def modify (t : VendorTable) (id : ℕ) (f : Vendor → Vendor) (hf : ∀ v, (f v).id = v.id) :
    VendorTable where
  rows := t.rows.map fun v => if v.id = id then f v else v
  keys := by
    have hids : ∀ v : Vendor, (if v.id = id then f v else v).id = v.id := by
      intro v
      split_ifs
      · exact hf v
      · rfl
    rw [List.map_map]
    exact (List.map_congr_left fun v _ => hids v) ▸ t.keys

/-- `PUT /api/vendor-researches/<id>` of a cell. -/
def update (t : VendorTable) (id : ℕ) (u : VendorUpdate) : VendorTable :=
  t.modify id u.apply u.apply_id

/-- `PUT /api/vendor-researches/<id>` of a whole vendor research. -/
def replace (t : VendorTable) (id : ℕ) (data : VendorData) : VendorTable :=
  t.modify id data.replace fun _ => rfl

@[simp] theorem mem_create {today : Date} {t : VendorTable} {data : VendorData} {v : Vendor} :
    v ∈ (t.create today data).rows ↔ v ∈ t.rows ∨ v = data.row today t.nextId := by
  simp [create]

@[simp] theorem mem_delete {t : VendorTable} {id : ℕ} {v : Vendor} :
    v ∈ (t.delete id).rows ↔ v ∈ t.rows ∧ v.id ≠ id := by
  simp [delete]

theorem mem_update {t : VendorTable} {id : ℕ} {u : VendorUpdate} {v : Vendor} :
    v ∈ (t.update id u).rows ↔ ∃ w ∈ t.rows, (if w.id = id then u.apply w else w) = v :=
  List.mem_map

theorem delete_all (t : VendorTable) (ids : List ℕ) :
    (ids.foldl delete t).rows = t.rows.filter fun v => v.id ∉ ids := by
  induction ids generalizing t with
  | nil => simp
  | cons id ids ih =>
    rw [List.foldl_cons, ih, delete, List.filter_filter]
    refine List.filter_congr fun v _ => ?_
    by_cases hid : v.id = id <;> simp [hid]

theorem create_all (today : Date) (t : VendorTable) (creates : List VendorData) :
    ∃ new, (creates.foldl (create today) t).rows = t.rows ++ new ∧
      List.Forall₂ (fun (data : VendorData) v => v = data.row today v.id) creates new := by
  induction creates generalizing t with
  | nil => exact ⟨[], (List.append_nil _).symm, List.Forall₂.nil⟩
  | cons data creates ih =>
    obtain ⟨new, hnew, hrows⟩ := ih (t.create today data)
    refine ⟨data.row today t.nextId :: new, ?_, List.Forall₂.cons rfl hrows⟩
    rw [List.foldl_cons, hnew, create, List.append_assoc, List.singleton_append]

/-- The vendor researches of a task. -/
def ofTask (t : VendorTable) (taskName : String) : List Vendor :=
  t.rows.filter fun v => v.taskName = some taskName

/-- The rows of a task for a system. -/
def forSystem (t : VendorTable) (taskName : String) (system : ℤ) : List Vendor :=
  t.rows.filter fun v => v.taskName = some taskName ∧ v.systemId = some system

theorem mem_forSystem {t : VendorTable} {taskName : String} {system : ℤ} {v : Vendor} :
    v ∈ t.forSystem taskName system ↔ v ∈ t.rows ∧ v.taskName = some taskName ∧
      v.systemId = some system := by
  simp [forSystem]

end VendorTable

/-! ## The dictionary of systems -/

/-- The body of the POST of an entry that a page makes by itself (`Research.jsx`, lines 285–289 and
    596–599). -/
def entryJson (systemName remarks : String) : Json :=
  .dict [(.systemName, .str systemName), (.remarks, .str remarks), (.enabledStatus, .int 1)]

/-- The dictionary of systems with its primary key. -/
structure SystemTable where
  entries : List SystemEntry
  keys : (entries.map SystemEntry.id).Nodup

namespace SystemTable

/-- The entry a POST makes. -/
def newEntry (t : SystemTable) (systemName : String) : SystemEntry where
  id := (t.entries.map SystemEntry.id).foldr max 0 + 1
  systemName

/-- `POST /api/system-dictionaries`. -/
def create (t : SystemTable) (systemName : String) : SystemTable where
  entries := t.entries ++ [t.newEntry systemName]
  keys := by
    rw [List.map_append, List.nodup_append]
    refine ⟨t.keys, List.nodup_singleton _, fun a ha b hb => ?_⟩
    rw [List.mem_singleton.mp hb]
    exact Nat.ne_of_lt (Relational.lt_nextKey ha)

@[simp] theorem mem_create {t : SystemTable} {systemName : String} {entry : SystemEntry} :
    entry ∈ (t.create systemName).entries ↔ entry ∈ t.entries ∨ entry = t.newEntry systemName := by
  simp [create]

end SystemTable

end ProjectEvaluation.Pages
