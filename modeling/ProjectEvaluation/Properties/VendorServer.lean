import ProjectEvaluation.Pages.VendorImport
import ProjectEvaluation.Properties.Clients
import ProjectEvaluation.Properties.Imports
import ProjectEvaluation.Properties.PartialUpdate
import ProjectEvaluation.Properties.StoredRows

/-!
# The tables of the pages and the handlers

Results:
* `create_shown`, `delete_shown`, `update_shown`: the handlers of `POST`, `DELETE` and `PUT`
  do to the database what the operations of the table do to its rows.
* `create_entry_shown`: so does the handler that makes an entry of the dictionary.
* `import_shown`: the requests of an import do to the database what the import does to the tables.
-/

namespace ProjectEvaluation.Backend

open Python Relational Transaction Pages

/-- A row of the table is a row of the database. -/
structure IsRow (v : Vendor) (r : Record) : Prop where
  id : r.id = v.id
  researchDate : r.cell .researchDate = .date v.researchDate
  researcherId : r.cell .researcherId = .int v.researcherId
  projectId : r.cell .projectId = .int v.projectId
  taskName : r.cell .taskName = v.taskName.elim .null .text
  systemId : r.cell .systemId = v.systemId.elim .null .int
  manufacturer : r.cell .manufacturer = .text v.manufacturer
  remarks : r.cell .remarks = v.remarks.elim .null .text

/-- The database has the rows of a table. -/
def Shown (t : VendorTable) (db : DB) : Prop := List.Forall₂ IsRow t.rows (db .vendorResearch)

theorem Shown.ids {t : VendorTable} {db : DB} (h : Shown t db) :
    (db .vendorResearch).map Row.id = t.rows.map Vendor.id := by
  unfold Shown at h
  rw [← List.forall₂_eq_eq_eq, List.forall₂_map_left_iff, List.forall₂_map_right_iff]
  exact h.flip.imp fun r v hrow => hrow.id

theorem Shown.nextId {t : VendorTable} {db : DB} (h : Shown t db) :
    nextId (db .vendorResearch) = t.nextId := by
  rw [Relational.nextId, h.ids, VendorTable.nextId]

/-- The attributes of the row of a POST. -/
theorem vendorAttrs_json (k : Clock) (data : VendorData) :
    vendorAttrs k data.json = .ok
      [(.researchDate, .value (.date ((parseDate data.researchDate).getD k.utcDate))),
       (.researcherId, .json (.int data.researcherId)), (.projectId, .json (.int data.projectId)),
       (.taskName, .json (.str data.taskName)), (.systemId, .json (data.systemId.elim .null .int)),
       (.manufacturer, .json (.str data.manufacturer)), (.remarks, .json (.str data.remarks))] := by
  have hdate : ((parseDate data.researchDate).elim k.currentDate fun d => .value (.date d)) =
      Attr.value (.date ((parseDate data.researchDate).getD k.utcDate)) := by
    cases parseDate data.researchDate <;> rfl
  change construct data.json
    (vendorSources ((parseDate data.researchDate).elim k.currentDate fun d =>
    .value (.date d))) = _
  rw [hdate]
  rfl

/-- The row of a POST has the values of its body. -/
theorem isRow_of_built {k : Clock} {data : VendorData} {r : Record} {attrs : List (Field × Attr)}
    (hattrs : vendorAttrs k data.json = .ok attrs) (h : Built k .vendorResearch attrs r) :
    IsRow (data.row k.utcDate r.id) r := by
  rw [vendorAttrs_json] at hattrs
  cases hattrs
  refine ⟨rfl, ?_, bindJson_int (h _ (List.mem_of_getElem? (i := 1) rfl)),
    bindJson_int (h _ (List.mem_of_getElem? (i := 2) rfl)), ?_, ?_, ?_, ?_⟩
  · exact (Except.ok.inj (h _ (List.mem_of_getElem? (i := 0) rfl))).symm
  · exact (Except.ok.inj (h _ (List.mem_of_getElem? (i := 3) rfl))).symm
  · have hsystem := h _ (List.mem_of_getElem? (i := 4) rfl)
    cases hs : data.systemId with
    | none =>
      rw [hs] at hsystem
      simp only [VendorData.row, hs]
      exact (Except.ok.inj hsystem).symm
    | some n =>
      rw [hs] at hsystem
      simp only [VendorData.row, hs]
      exact bindJson_int hsystem
  · exact (Except.ok.inj (h _ (List.mem_of_getElem? (i := 5) rfl))).symm
  · exact (Except.ok.inj (h _ (List.mem_of_getElem? (i := 6) rfl))).symm

/-- **POST.** -/
theorem create_shown {k : Clock} {t : VendorTable} {data : VendorData} {db : DB} (h : Shown t db)
    {out : Response × DB}
    (hout : run (createVendorResearch k (.json data.json)) db = out) (hgood : out.1.Success) :
    Shown (t.create k.utcDate data) out.2 := by
  subst hout
  have hdone : (handle k (.create .vendorResearch (.json data.json)) db).1.Success := hgood
  obtain ⟨_, attrs, row, hbody, hattrs, hbuilt, hid, hrows⟩ := create_stores (by decide) hdone
  cases hbody
  have hnew := isRow_of_built hattrs hbuilt
  rw [hid.trans h.nextId] at hnew
  unfold Shown
  exact hrows ▸ List.rel_append h (List.Forall₂.cons hnew List.Forall₂.nil)

/-- **DELETE.** A row that is not there is not found, and nothing changes. -/
theorem delete_shown {t : VendorTable} {id : ℕ} {db : DB} (h : Shown t db) (hid : id < 2 ^ 63) :
    Shown (t.delete id) (run (deleteVendorResearch id) db).2 := by
  have hrows : (run (deleteVendorResearch id) db).2 .vendorResearch =
      (db .vendorResearch).filter fun r => !(r.id == id) := by
    have hremoved :=
      (run_delete_unreferenced (t := .vendorResearch) (by decide) "厂商调研不存在" "厂商调研删除成功" hid db).1
    change (run (deleteVendorResearch id) db).2 = _ at hremoved
    rw [hremoved, removeWhere, Function.update_self]
  unfold Shown
  rw [hrows, VendorTable.delete]
  refine List.rel_filter (fun v r hrow => ?_) h
  by_cases hv : v.id = id <;> simp [hrow.id, hv]

/-! ## PUT -/

/-- A PUT keeps the cells its body does not name. -/
theorem vendor_kept {data : Json} (row : Record) {f : Field} (hf : data.has f = false) :
    (assignCells row (updateValues .vendorResearch (vendorAssignments data row))).cell f =
      row.cell f := by
  refine kept_cell fun v hmem => ?_
  rcases List.mem_cons.mp hmem with hdate | hmem
  · have hkeeps := assignDate_keeps data row .researchDate
    rw [← hdate] at hkeeps
    exact hkeeps hf v rfl
  · exact keeps_of_fields hmem hf v rfl

/-- A PUT gives a column the value its body names. -/
theorem vendor_assigned {data : Json} (row : Record) {f : Field} {v : Attr} {c : Column} {w : Value}
    (hmem : (f, .ok (some v)) ∈ vendorAssignments data row)
    (hc : Table.vendorResearch.column f = some c)
    (hbind : v.bind c.type = .ok w) :
    (assignCells row (updateValues .vendorResearch (vendorAssignments data row))).cell f = w := by
  have hassign : Resource.vendorResearch.assignments data row (fun _ => []) =
      .ok (vendorAssignments data row) :=
    rfl
  exact assigned_cell (assignments_nodup hassign) row hmem hc hbind

/-- The values a PUT assigns can be stored. -/
def Binds (body : Json) (r : Record) : Prop :=
  ∀ a ∈ vendorAssignments body r, ∃ x, a.2 = .ok x ∧ ∀ attr, x = some attr → ∀ c,
    Table.vendorResearch.column a.1 = some c → ∃ w, attr.bind c.type = .ok w

/-- A PUT of an integer. -/
theorem vendor_assigned_int {data : Json} {r : Record} (h : Binds data r) {f : Field}
    {c : Column} {n : ℤ}
    (hmem : (f, .ok (some (.json (.int n)))) ∈ vendorAssignments data r)
    (hc : Table.vendorResearch.column f = some c)
    (htype : c.type = .integer) :
    (assignCells r (updateValues .vendorResearch (vendorAssignments data r))).cell f = .int n := by
  obtain ⟨x, hx, hbind⟩ := h _ hmem
  obtain ⟨w, hw⟩ := hbind _ (Except.ok.inj hx).symm c hc
  rw [vendor_assigned r hmem hc hw]
  rw [htype] at hw
  exact bindJson_int hw

/-- The row of a PUT has the values of its body. -/
theorem isRow_assigned {v : Vendor} {r : Record} {u : VendorUpdate} (h : IsRow v r)
    (hbinds : Binds u.json r) :
    IsRow (u.apply v)
      (assignCells r (updateValues .vendorResearch (vendorAssignments u.json r))) := by
  cases u with
  | text cell s =>
    cases cell with
    | manufacturer =>
      refine ⟨h.id, (vendor_kept r rfl).trans h.researchDate,
        (vendor_kept r rfl).trans h.researcherId, (vendor_kept r rfl).trans h.projectId,
        (vendor_kept r rfl).trans h.taskName, (vendor_kept r rfl).trans h.systemId, ?_,
        (vendor_kept r rfl).trans h.remarks⟩
      exact vendor_assigned r (List.mem_of_getElem? (i := 5) rfl) rfl rfl
    | remarks =>
      refine ⟨h.id, (vendor_kept r rfl).trans h.researchDate,
        (vendor_kept r rfl).trans h.researcherId, (vendor_kept r rfl).trans h.projectId,
        (vendor_kept r rfl).trans h.taskName, (vendor_kept r rfl).trans h.systemId,
        (vendor_kept r rfl).trans h.manufacturer, ?_⟩
      exact vendor_assigned r (List.mem_of_getElem? (i := 6) rfl) rfl rfl
  | system name id =>
    have hkept : ∀ f, f ≠ .systemName → f ≠ .systemId →
        (assignCells r (updateValues .vendorResearch
          (vendorAssignments (VendorUpdate.system name id).json r))).cell f = r.cell f := by
      intro f hname hid
      refine vendor_kept r ?_
      cases name <;> simp [VendorUpdate.json, Json.has, hname, hid]
    refine ⟨h.id, (hkept _ (by decide) (by decide)).trans h.researchDate,
      (hkept _ (by decide) (by decide)).trans h.researcherId,
      (hkept _ (by decide) (by decide)).trans h.projectId,
      (hkept _ (by decide) (by decide)).trans h.taskName, ?_, (hkept _ (by decide)
        (by decide)).trans h.manufacturer, (hkept _ (by decide) (by decide)).trans h.remarks⟩
    have hmem : (.systemId, .ok (some (.json (id.elim .null fun n => .int n)))) ∈
        vendorAssignments (VendorUpdate.system name id).json r :=
      List.mem_of_getElem? (i := 4) (by cases name <;> rfl)
    cases id with
    | none => exact vendor_assigned r hmem rfl rfl
    | some n => exact vendor_assigned_int hbinds hmem rfl rfl

/-- The row of a PUT of a whole vendor research has the values of its body. -/
theorem isRow_replaced {v : Vendor} {r : Record} {data : VendorData} (h : IsRow v r)
    (hbinds : Binds data.json r) :
    IsRow (data.replace v)
      (assignCells r (updateValues .vendorResearch (vendorAssignments data.json r))) := by
  refine ⟨h.id, ?_, vendor_assigned_int hbinds (List.mem_of_getElem? (i := 1) rfl) rfl rfl,
    vendor_assigned_int hbinds (List.mem_of_getElem? (i := 2) rfl) rfl rfl,
    vendor_assigned r (List.mem_of_getElem? (i := 3) rfl) rfl rfl, ?_,
    vendor_assigned r (List.mem_of_getElem? (i := 5) rfl) rfl rfl,
    vendor_assigned r (List.mem_of_getElem? (i := 6) rfl) rfl rfl⟩
  · have hhead : (vendorAssignments data.json r)[0]? =
        some (.researchDate, .ok ((parseDate data.researchDate).map fun d => .value (.date d))) :=
          rfl
    unfold VendorData.replace
    cases hdate : parseDate data.researchDate with
    | none =>
      rw [unassigned_cell r fun attr hmem => ?_]
      · exact h.researchDate
      · rcases List.mem_cons.mp hmem with hsame | hmem
        · have hnone : (vendorAssignments data.json r)[0]? = some (.researchDate, .ok none) := by
            rw [hhead, hdate]
            rfl
          rw [vendorAssignments, List.getElem?_cons_zero, ← hsame] at hnone
          cases hnone
        · obtain ⟨f, hf, hkeep⟩ := List.mem_map.mp hmem
          rw [show f = .researchDate from congrArg Prod.fst hkeep] at hf
          exact absurd hf (by decide)
    | some d =>
      rw [hdate] at hhead
      exact vendor_assigned r (List.mem_of_getElem? hhead) rfl rfl
  · have hmem : (.systemId, .ok (some (.json (data.systemId.elim .null .int)))) ∈
        vendorAssignments data.json r :=
      List.mem_of_getElem? (i := 4) rfl
    unfold VendorData.replace
    cases hs : data.systemId with
    | none =>
      rw [hs] at hmem
      exact vendor_assigned r hmem rfl rfl
    | some n =>
      rw [hs] at hmem
      exact vendor_assigned_int hbinds hmem rfl rfl

/-- A PUT does to the rows of a table what it does to the row of its id. -/
theorem modify_shown {t : VendorTable} {id : ℕ} {f : Vendor → Vendor} {hf : ∀ v, (f v).id = v.id}
    {body : Json}
    {db : DB} (h : Shown t db) {out : Response × DB}
    (hout : run (updateVendorResearch id (.json body)) db = out)
    (hgood : out.1.Success)
    (hrow : ∀ v r, IsRow v r → Binds body r →
      IsRow (f v) (assignCells r (updateValues .vendorResearch (vendorAssignments body r)))) :
    Shown (t.modify id f hf) out.2 := by
  have hruns := updateHandler_cases (fun data row r hprepare => ?_)
    (fun data row assignments ops db' row' _ _ _ _ => ⟨_, rfl⟩) hout
  · rcases hruns with ⟨hbad, -⟩ |
      ⟨-, row, data, assignments, ops, -, hfind, hbody, hprepare, hops, hall⟩
    · exact absurd hgood hbad
    cases hbody
    cases hprepare
    obtain ⟨hdb, heval⟩ := updateOps_eq hops hall
    have hnodup : ((db .vendorResearch).map Row.id).Nodup := h.ids ▸ t.keys
    have hfound : ∀ r ∈ db .vendorResearch, r.id = id → r = row := by
      rintro r hr rfl
      exact Option.some.inj ((find_of_mem hnodup hr).symm.trans hfind)
    unfold Shown at h ⊢
    rw [hdb, setCells_same, VendorTable.modify, List.forall₂_map_left_iff,
      List.forall₂_map_right_iff]
    refine ((List.forall₂_and_left _ _).mpr ⟨hfound, h.flip⟩).flip.imp fun v r hboth => ?_
    obtain ⟨hfound, hsame⟩ := hboth
    by_cases hid : v.id = id
    · have hrid := hsame.id.trans hid
      rw [if_pos hid, if_pos hrid, ← hfound hrid]
      refine hrow v r hsame fun a ha => ?_
      rw [hfound hrid] at ha
      obtain ⟨x, hx, hbind⟩ := heval a ha
      exact ⟨x, hx, fun attr hattr c hc => (hbind attr hattr c hc).imp fun w hw => hw.1⟩
    · have hrid : r.id ≠ id := fun heq => hid (hsame.id.symm.trans heq)
      rw [if_neg hid, if_neg hrid]
      exact hsame
  · cases hprepare

/-- **PUT.** -/
theorem update_shown {t : VendorTable} {id : ℕ} {u : VendorUpdate} {db : DB} (h : Shown t db)
    {out : Response × DB}
    (hout : run (updateVendorResearch id (.json u.json)) db = out) (hgood : out.1.Success) :
    Shown (t.update id u) out.2 :=
  modify_shown h hout hgood fun _ _ => isRow_assigned

/-- **PUT of a whole vendor research.** -/
theorem replace_shown {t : VendorTable} {id : ℕ} {data : VendorData} {db : DB} (h : Shown t db)
    {out : Response × DB}
    (hout : run (updateVendorResearch id (.json data.json)) db = out) (hgood : out.1.Success) :
    Shown (t.replace id data) out.2 :=
  modify_shown h hout hgood fun _ _ => isRow_replaced

/-! ## The dictionary of systems -/

/-- An entry is a row of the database. -/
def IsEntry (entry : SystemEntry) (r : Record) : Prop :=
  r.id = entry.id ∧ r.cell .systemName = .text entry.systemName

/-- The database has the entries of a dictionary. -/
def EntriesShown (t : SystemTable) (db : DB) : Prop :=
  List.Forall₂ IsEntry t.entries (db .systemDictionary)

theorem EntriesShown.ids {t : SystemTable} {db : DB} (h : EntriesShown t db) :
    (db .systemDictionary).map Row.id = t.entries.map SystemEntry.id := by
  unfold EntriesShown at h
  rw [← List.forall₂_eq_eq_eq, List.forall₂_map_left_iff, List.forall₂_map_right_iff]
  exact h.flip.imp fun r entry hrow => hrow.1

/-- **POST of a system.** -/
theorem create_entry_shown {k : Clock} {t : SystemTable} {systemName remarks : String} {db : DB}
    (h : EntriesShown t db)
    {out : Response × DB}
    (hout : run (createSystemDictionary k (.json (entryJson systemName remarks))) db = out)
    (hgood : out.1.Success) : EntriesShown (t.create systemName) out.2 := by
  subst hout
  have hdone : (handle k (.create .dictionary (.json (entryJson systemName remarks)))
      db).1.Success :=
    hgood
  obtain ⟨_, attrs, row, hbody, hattrs, hbuilt, hid, hrows⟩ := create_stores (by decide) hdone
  cases hbody
  have hname : row.cell .systemName = .text systemName := by
    have hcell := hbuilt (required .systemName .string) (List.mem_of_getElem? (i := 0) rfl)
    cases hattrs
    exact (Except.ok.inj hcell).symm
  have hnext : Relational.nextId (db .systemDictionary) = (t.newEntry systemName).id := by
    rw [Relational.nextId, h.ids]
    rfl
  unfold EntriesShown
  exact hrows ▸ List.rel_append h (List.Forall₂.cons ⟨hid.trans hnext, hname⟩ List.Forall₂.nil)

/-! ## Imports -/

/-- The POSTs of `resolveSystems`: one for each name that the server does not have. -/
def entryRequests : SystemTable → List ImportRecord → List Request
  | _, [] => []
  | systems, record :: records =>
    let rest := entryRequests (ResearchPage.resolveSystem systems record).1 records
    if record.systemName ≠ "" ∧ JavaScript.orNull record.data.systemId = none ∧
        systems.entries.find? (fun s => s.systemName = record.systemName) = none then
      .create .dictionary (.json (entryJson record.systemName "导入模板自动创建")) :: rest
    else rest

/-- The PUT or POST of `saveRecord`. -/
def saveRequest (page : ResearchPage) (data : VendorData) : Request :=
  match page.vendorResearches.find? fun v =>
    v.systemId = data.systemId ∧ v.taskName = some data.taskName with
  | some existing => .update .vendorResearch existing.id (.json data.json)
  | none => .create .vendorResearch (.json data.json)

/-- The requests of an import (`Research.jsx`, lines 216–356). -/
def importRequests (page : ResearchPage) (newDate : String → Json) (now : Json)
    (task : ResearchTask) (rows : List (List String)) (systems : SystemTable) : List Request :=
  let records := rows.map (page.importRecord newDate now task)
  entryRequests systems records ++
    (ResearchPage.resolveSystems systems records).2.map (saveRequest page)

/-- The database after some requests, each of which succeeds. -/
inductive Served (k : Clock) : List Request → DB → DB → Prop
  | nil (db : DB) : Served k [] db db
  | cons {request : Request} {requests : List Request} {db db' : DB}
      (hgood : (handle k request db).1.Success)
      (hrest : Served k requests (handle k request db).2 db') :
      Served k (request :: requests) db db'

theorem served_append {k : Clock} {requests requests' : List Request} {db db' : DB}
    (h : Served k (requests ++ requests') db db') :
    ∃ between, Served k requests db between ∧ Served k requests' between db' := by
  induction requests generalizing db with
  | nil => exact ⟨db, .nil db, h⟩
  | cons request requests ih =>
    cases h with
    | cons hgood hrest =>
      obtain ⟨between, hbefore, hafter⟩ := ih hrest
      exact ⟨between, .cons hgood hbefore, hafter⟩

/-- Requests that do not change a table leave what is shown of it. -/
theorem Shown.handle {t : VendorTable} {db : DB} (h : Shown t db) (k : Clock) {request : Request}
    (hother : Table.vendorResearch ∉ request.writes) : Shown t (handle k request db).2 := by
  unfold Shown at h ⊢
  rwa [(handle_near k request fun _ _ => rfl).2.left _ hother]

theorem EntriesShown.handle {t : SystemTable} {db : DB} (h : EntriesShown t db) (k : Clock)
    {request : Request} (hother : Table.systemDictionary ∉ request.writes) :
    EntriesShown t (handle k request db).2 := by
  unfold EntriesShown at h ⊢
  rwa [(handle_near k request fun _ _ => rfl).2.left _ hother]

/-- The entries that an import makes. -/
theorem entryRequests_shown {k : Clock} {vendors : VendorTable} {systems : SystemTable}
    {records : List ImportRecord} {db db' : DB} (hvendors : Shown vendors db)
    (hsystems : EntriesShown systems db)
    (hserved : Served k (entryRequests systems records) db db') :
    Shown vendors db' ∧ EntriesShown (ResearchPage.resolveSystems systems records).1 db' := by
  induction records generalizing systems db with
  | nil =>
    cases hserved
    exact ⟨hvendors, hsystems⟩
  | cons record records ih =>
    rw [ResearchPage.resolveSystems]
    rw [entryRequests] at hserved
    by_cases hnew : record.systemName ≠ "" ∧ JavaScript.orNull record.data.systemId = none ∧
        systems.entries.find? (fun s => s.systemName = record.systemName) = none
    · rw [if_pos hnew] at hserved
      have hresolve : (ResearchPage.resolveSystem systems record).1 =
          systems.create record.systemName := by
        rw [ResearchPage.resolveSystem, if_pos ⟨hnew.1, hnew.2.1⟩, hnew.2.2]
      cases hserved with
      | cons hgood hrest =>
        have hother : Table.vendorResearch ∉ [Table.systemDictionary] := by decide
        have hvendors' : Shown vendors
            (handle k (.create .dictionary (.json (entryJson record.systemName "导入模板自动创建")))
              db).2 :=
          hvendors.handle k hother
        refine ih hvendors' ?_ hrest
        rw [hresolve]
        exact create_entry_shown hsystems rfl hgood
    · rw [if_neg hnew] at hserved
      have hresolve : (ResearchPage.resolveSystem systems record).1 = systems := by
        rw [ResearchPage.resolveSystem]
        split_ifs with hask
        · cases hfind : systems.entries.find? fun s => s.systemName = record.systemName with
          | none => exact absurd ⟨hask.1, hask.2, hfind⟩ hnew
          | some system => rfl
        · rfl
      rw [hresolve] at hserved ⊢
      exact ih hvendors hsystems hserved

/-- A vendor research that an import saves. -/
theorem saveRequest_shown {k : Clock} {page : ResearchPage} {vendors : VendorTable}
    {systems : SystemTable} {data : VendorData} {db : DB} (hvendors : Shown vendors db)
    (hsystems : EntriesShown systems db) (hgood : (handle k (saveRequest page data) db).1.Success) :
    Shown (page.saveRecord k.utcDate vendors data) (handle k (saveRequest page data) db).2 ∧
      EntriesShown systems (handle k (saveRequest page data) db).2 := by
  have hother : Table.systemDictionary ∉ (saveRequest page data).writes := by
    unfold saveRequest
    split <;> exact (by decide : Table.systemDictionary ∉ [Table.vendorResearch])
  refine ⟨?_, hsystems.handle k hother⟩
  unfold saveRequest at hgood ⊢
  unfold ResearchPage.saveRecord
  cases hfind : page.vendorResearches.find? fun v =>
      v.systemId = data.systemId ∧ v.taskName = some data.taskName with
  | some existing =>
    rw [hfind] at hgood
    exact replace_shown hvendors rfl hgood
  | none =>
    rw [hfind] at hgood
    exact create_shown hvendors rfl hgood

/-- The vendor researches that an import saves. -/
theorem saveRequests_shown {k : Clock} {page : ResearchPage} {vendors : VendorTable}
    {systems : SystemTable} {datas : List VendorData} {db db' : DB} (hvendors : Shown vendors db)
    (hsystems : EntriesShown systems db)
    (hserved : Served k (datas.map (saveRequest page)) db db') :
    Shown (datas.foldl (page.saveRecord k.utcDate) vendors) db' ∧ EntriesShown systems db' := by
  induction datas generalizing vendors db with
  | nil =>
    cases hserved
    exact ⟨hvendors, hsystems⟩
  | cons data datas ih =>
    cases hserved with
    | cons hgood hrest =>
      obtain ⟨hvendors', hsystems'⟩ := saveRequest_shown hvendors hsystems hgood
      exact ih hvendors' hsystems' hrest

/-- **An import**: its requests, where each succeeds, do to the database what it does to the
    tables. -/
theorem import_shown {k : Clock} {page : ResearchPage} {newDate : String → Json} {now : Json}
    {task : ResearchTask} {rows : List (List String)} {server : ImportServer} {db db' : DB}
    (hvendors : Shown server.vendors db) (hsystems : EntriesShown server.systems db)
    (hserved : Served k (importRequests page newDate now task rows server.systems) db db') :
    Shown (page.importRows k.utcDate newDate now task rows server).vendors db' ∧
      EntriesShown (page.importRows k.utcDate newDate now task rows server).systems db' := by
  obtain ⟨between, hentries, hsaves⟩ := served_append hserved
  obtain ⟨hvendors', hsystems'⟩ := entryRequests_shown hvendors hsystems hentries
  exact saveRequests_shown hvendors' hsystems' hsaves

end ProjectEvaluation.Backend
