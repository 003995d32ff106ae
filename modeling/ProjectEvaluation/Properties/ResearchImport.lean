import ProjectEvaluation.Lib.Upsert
import ProjectEvaluation.Properties.BrowserImports

/-!
# Importing vendor researches on the research page

A file is imported into the vendor researches of a task, and then imported again.

Results:
* `import_once_iff`: afterwards each system of the file has one vendor research with the values of
its last row, and the second import changes nothing, unless a new system has two rows, a last row
keeps its CR, or the rows without a system differ and the task had no such vendor research. -/

namespace ProjectEvaluation.Pages

open Python JavaScript Rfc4180 Upsert

/-! ## The rows of a file -/

/-- The records after the header with seven fields or more, as the import asks for. -/
def fileRows (doc : Document) : List (List Cell × Bool) :=
  (doc.ended.drop 1).filter fun record => 7 ≤ record.1.length

/-- The text of a field. -/
def fieldText (i : ℕ) (record : List Cell × Bool) : String :=
  String.ofList ((texts record.1).getD i [])

/-- CR stays at the end of the remarks: they are the last field, and the record ends in CRLF. -/
def KeepsReturn (record : List Cell × Bool) : Prop := record.2 = true ∧ record.1.length = 7

instance (record : List Cell × Bool) : Decidable (KeepsReturn record) := by
  unfold KeepsReturn
  infer_instance

/-- The remarks as they are read. -/
def remarksRead (record : List Cell × Bool) : String :=
  fieldText 6 record ++ if KeepsReturn record then "\r" else ""

/-- The rows of a file that name a system; under the empty name, those that name none. -/
def rowsNaming (doc : Document) (name : String) : List (List Cell × Bool) :=
  (fileRows doc).filter fun record => fieldText 4 record = name

/-- The values of a row. -/
def rowValues (record : List Cell × Bool) : List String := (written record).map String.ofList

theorem vendorRows_plain {doc : Document} (h : doc.Plain) :
    vendorRows (csvText doc) = (fileRows doc).map rowValues := by
  rw [csvText, vendorRows_eq, cutRows_plain (by norm_num) h, List.map_map]
  rfl

theorem rowValues_getD {record : List Cell × Bool} {i : ℕ} (hi : i < record.1.length) :
    (rowValues record).getD i "" =
      fieldText i record ++ if record.2 = true ∧ record.1.length = i + 1 then "\r" else "" := by
  have hlength : i < (texts record.1).length := by rwa [texts, List.length_map]
  rw [rowValues, List.getD_eq_getElem?_getD, List.getElem?_map, getElem?_written, fieldText,
    List.getD_eq_getElem?_getD, List.getElem?_eq_getElem hlength]
  by_cases hend : record.2 = true ∧ record.1.length = i + 1
  · simp [hend]
  · simp [hend]

theorem long_of_fileRows {doc : Document} {record : List Cell × Bool} (h : record ∈ fileRows doc) :
    7 ≤ record.1.length := by
  simpa using (List.mem_filter.mp h).2

/-- What the import reads of a row. -/
theorem rowValues_read {doc : Document} {record : List Cell × Bool} (h : record ∈ fileRows doc) :
    (rowValues record).getD 4 "" = fieldText 4 record ∧
      (rowValues record).getD 5 "" = fieldText 5 record ∧
      (rowValues record).getD 6 "" = remarksRead record := by
  have hlong := long_of_fileRows h
  refine ⟨?_, ?_, ?_⟩
  · rw [rowValues_getD (by omega), if_neg (by omega), String.append_empty]
  · rw [rowValues_getD (by omega), if_neg (by omega), String.append_empty]
  · rw [rowValues_getD (by omega)]
    rfl

/-! ## The dictionary -/

namespace SystemTable

/-- The dictionary with an entry for a name; the empty name needs none. -/
def withName (t : SystemTable) (name : String) : SystemTable :=
  if name = "" ∨ (t.entries.find? fun s => s.systemName = name).isSome then t else t.create name

/-- The dictionary with an entry for each name. -/
def withNames (t : SystemTable) (names : List String) : SystemTable := names.foldl withName t

/-- The id of the first entry with a name. -/
def idOf (t : SystemTable) (name : String) : Option ℤ :=
  if name = "" then none else (t.entries.find? fun s => s.systemName = name).map fun s => (s.id : ℤ)

theorem entries_withName (t : SystemTable) (name : String) :
    t.entries <+: (t.withName name).entries := by
  unfold withName
  split_ifs
  · exact List.prefix_rfl
  · exact List.prefix_append _ _

theorem entries_withNames (t : SystemTable) (names : List String) :
    t.entries <+: (t.withNames names).entries := by
  induction names generalizing t with
  | nil => exact List.prefix_rfl
  | cons name names ih => exact (t.entries_withName name).trans (ih (t.withName name))

/-- An entry that is there keeps its id. -/
theorem idOf_of_prefix {t t' : SystemTable} (h : t.entries <+: t'.entries) {name : String} {n : ℤ}
    (hn : t.idOf name = some n) : t'.idOf name = some n := by
  unfold idOf at hn ⊢
  split_ifs at hn ⊢
  obtain ⟨s, hs, rfl⟩ := Option.map_eq_some_iff.mp hn
  rw [h.find?_eq_some hs]
  rfl

theorem idOf_withName (t : SystemTable) {name : String} (hname : name ≠ "") :
    ∃ n, (t.withName name).idOf name = some n := by
  rw [idOf, if_neg hname]
  unfold withName
  by_cases hknown : (t.entries.find? fun s => s.systemName = name).isSome
  · rw [if_pos (Or.inr hknown)]
    obtain ⟨s, hs⟩ := Option.isSome_iff_exists.mp hknown
    exact ⟨s.id, by rw [hs]; rfl⟩
  · rw [if_neg (by simp [hname, hknown])]
    have hnone : (t.entries.find? fun s => s.systemName = name) = none := by simpa using hknown
    refine ⟨(t.newEntry name).id, ?_⟩
    rw [create, List.find?_append, hnone]
    simp [newEntry]

/-- Every name has an entry then. -/
theorem idOf_withNames (t : SystemTable) {names : List String} {name : String} (hmem : name ∈ names)
    (hname : name ≠ "") : ∃ n, (t.withNames names).idOf name = some n := by
  induction names generalizing t with
  | nil => cases hmem
  | cons first names ih =>
    rcases List.mem_cons.mp hmem with rfl | hmem
    · obtain ⟨n, hn⟩ := t.idOf_withName hname
      exact ⟨n, idOf_of_prefix ((t.withName name).entries_withNames names) hn⟩
    · exact ih (t.withName first) hmem

/-- The names that have entries add none. -/
theorem withNames_of_known {t : SystemTable} {names : List String}
    (h : ∀ name ∈ names, name ≠ "" → ∃ n, t.idOf name = some n) :
    t.withNames names = t := by
  induction names with
  | nil => rfl
  | cons name names ih =>
    have hsame : t.withName name = t := by
      refine if_pos (or_iff_not_imp_left.mpr fun hname => ?_)
      obtain ⟨n, hn⟩ := h name List.mem_cons_self hname
      rw [idOf, if_neg hname] at hn
      obtain ⟨s, hs, -⟩ := Option.map_eq_some_iff.mp hn
      exact Option.isSome_iff_exists.mpr ⟨s, hs⟩
    rw [withNames, List.foldl_cons, hsame]
    exact ih fun other hother => h other (List.mem_cons_of_mem _ hother)

/-- The entry of a name. -/
theorem find_of_idOf {t : SystemTable} {name : String} {n : ℤ} (h : t.idOf name = some n) :
    ∃ s, (t.entries.find? fun s => s.systemName = name) = some s ∧ (s.id : ℤ) = n := by
  unfold idOf at h
  split_ifs at h
  exact Option.map_eq_some_iff.mp h

/-- Two names have two ids. -/
theorem idOf_inj {t : SystemTable} {a b : String} {n : ℤ} (ha : t.idOf a = some n)
    (hb : t.idOf b = some n) : a = b := by
  obtain ⟨s, hs, hsid⟩ := find_of_idOf ha
  obtain ⟨s', hs', hsid'⟩ := find_of_idOf hb
  have hid : s.id = s'.id := by exact_mod_cast hsid.trans hsid'.symm
  have hsame := List.inj_on_of_nodup_map t.keys (List.mem_of_find?_eq_some hs)
    (List.mem_of_find?_eq_some hs') hid
  have hname : s.systemName = a := by simpa using List.find?_some hs
  have hname' : s'.systemName = b := by simpa using List.find?_some hs'
  rw [← hname, ← hname', hsame]

end SystemTable

/-! ## The records -/

/-- A record with the id that the dictionary has for its name. -/
def ImportRecord.resolved (t : SystemTable) (record : ImportRecord) : VendorData :=
  { record.data with systemId := t.idOf record.systemName }

namespace ResearchPage

/-- What the import finds out about a record whose system the page looked up. -/
theorem resolveSystem_eq {known t : SystemTable} (ht : known.entries <+: t.entries)
    {record : ImportRecord}
    (hrecord : record.data.systemId = known.idOf record.systemName) :
    resolveSystem t record = (t.withName record.systemName,
      record.resolved (t.withName record.systemName)) := by
  obtain ⟨data, name⟩ := record
  change data.systemId = known.idOf name at hrecord
  unfold resolveSystem ImportRecord.resolved
  by_cases hname : name = ""
  · subst hname
    have hdata : { data with systemId := none } = data := by
      cases data
      cases hrecord
      rfl
    rw [if_neg (by simp), SystemTable.withName, if_pos (Or.inl rfl), SystemTable.idOf,
      if_pos rfl, hdata]
  · cases hfind : t.entries.find? fun s => s.systemName = name with
    | some s =>
      have hsame : t.withName name = t := if_pos (Or.inr (by rw [hfind]; rfl))
      have hid : t.idOf name = some (s.id : ℤ) := by rw [SystemTable.idOf, if_neg hname, hfind]; rfl
      rw [hsame, hid]
      split_ifs with hask
      · rfl
      · -- the page knew the id
        have hread : data.systemId = some (s.id : ℤ) := by
          cases hknown : data.systemId with
          | none => exact absurd ⟨hname, by rw [hknown]; rfl⟩ hask
          | some n =>
            exact (SystemTable.idOf_of_prefix ht (hrecord.symm.trans hknown)).symm.trans hid
        cases data
        cases hread
        rfl
    | none =>
      have hcreate : t.withName name = t.create name := if_neg (by simp [hname, hfind])
      have hnone : data.systemId = none := by
        cases hknown : data.systemId with
        | none => rfl
        | some n =>
          obtain ⟨s, hs, -⟩ :=
            SystemTable.find_of_idOf (SystemTable.idOf_of_prefix ht (hrecord.symm.trans hknown))
          rw [hfind] at hs
          cases hs
      have hid : (t.create name).idOf name = some ((t.newEntry name).id : ℤ) := by
        rw [SystemTable.idOf, if_neg hname, SystemTable.create, List.find?_append, hfind]
        simp [SystemTable.newEntry]
      rw [if_pos ⟨hname, by rw [hnone]; rfl⟩, hcreate, hid]

/-- The dictionary has an entry for every name then, and the records have the ids of their names. -/
theorem resolveSystems_eq {known t : SystemTable} (ht : known.entries <+: t.entries)
    {records : List ImportRecord}
    (hrecords : ∀ record ∈ records, record.data.systemId = known.idOf record.systemName) :
    resolveSystems t records =
      (t.withNames (records.map ImportRecord.systemName),
        records.map
        (ImportRecord.resolved (t.withNames (records.map ImportRecord.systemName)))) := by
  induction records generalizing t with
  | nil => rfl
  | cons record records ih =>
    have hstep := t.entries_withName record.systemName
    rw [resolveSystems, resolveSystem_eq ht (hrecords record List.mem_cons_self),
      ih (ht.trans hstep) fun other hother => hrecords other (List.mem_cons_of_mem _ hother)]
    have hid : (t.withName record.systemName).idOf record.systemName =
        ((t.withName record.systemName).withNames (records.map ImportRecord.systemName)).idOf
          record.systemName := by
      by_cases hname : record.systemName = ""
      · rw [SystemTable.idOf, if_pos hname, SystemTable.idOf, if_pos hname]
      · obtain ⟨n, hn⟩ := t.idOf_withName hname
        rw [hn, SystemTable.idOf_of_prefix ((t.withName record.systemName).entries_withNames _) hn]
    rw [ImportRecord.resolved, hid]
    rfl

end ResearchPage

/-! ## The vendor researches -/

theorem VendorData.id_replace (data : VendorData) (v : Vendor) : (data.replace v).id = v.id := rfl

/-- How vendor researches are saved: their keys are the task and the system. -/
def vendorScheme (today : Date) : Scheme Vendor VendorData (Option String × Option ℤ)
    (String × Option String) where
  id := Vendor.id
  rowKey v := (v.taskName, v.systemId)
  content v := (v.manufacturer, v.remarks)
  key data := (some data.taskName, data.systemId)
  given data := (data.manufacturer, some data.remarks)
  make id data := data.row today id
  replace data v := data.replace v
  id_make _ _ := rfl
  rowKey_make _ _ := rfl
  content_make _ _ := rfl
  id_replace := VendorData.id_replace
  rowKey_replace _ _ := rfl
  content_replace _ _ := rfl

theorem existing_eq_find (page : ResearchPage) (today : Date) (data : VendorData) :
    (page.vendorResearches.find? fun v => v.systemId = data.systemId ∧
      v.taskName = some data.taskName) =
      (vendorScheme today).existing page.vendorResearches data := by
  refine congrFun (congrArg List.find? (funext fun v => ?_)) _
  rw [decide_eq_decide]
  simp [vendorScheme, and_comm]

/-- The import saves its records under this scheme. -/
theorem saveRecords_rows (page : ResearchPage) (today : Date) (records : List VendorData)
    (t : VendorTable) :
    (records.foldl (page.saveRecord today) t).rows =
      (vendorScheme today).saveAll page.vendorResearches t.rows records := by
  induction records generalizing t with
  | nil => rfl
  | cons data records ih =>
    have hstep : (page.saveRecord today t data).rows =
        (vendorScheme today).save page.vendorResearches t.rows data := by
      rw [ResearchPage.saveRecord, Scheme.save, existing_eq_find page today]
      cases (vendorScheme today).existing page.vendorResearches data <;> rfl
    rw [List.foldl_cons, ih, hstep]
    rfl

/-! ## An import -/

/-- The names of a file. -/
def fileNames (doc : Document) : List String := (fileRows doc).map (fieldText 4)

/-- The dictionary with an entry for each name of a file. -/
def dictionaryWith (doc : Document) (systems : SystemTable) : SystemTable :=
  systems.withNames (fileNames doc)

/-- What the import saves for a row. -/
def rowData (page : ResearchPage) (newDate : String → Json) (now : Json) (task : ResearchTask)
    (t : SystemTable)
    (record : List Cell × Bool) : VendorData :=
  (page.importRecord newDate now task (rowValues record)).resolved t

/-- What it saves for a file. -/
def importData (page : ResearchPage) (newDate : String → Json) (now : Json) (task : ResearchTask)
    (doc : Document)
    (systems : SystemTable) : List VendorData :=
  (fileRows doc).map (rowData page newDate now task (dictionaryWith doc systems))

/-- The lists of the page are those of the server. -/
structure UpToDate (page : ResearchPage) (server : ImportServer) : Prop where
  systems : page.systems = server.systems.entries
  vendors : page.vendorResearches = server.vendors.rows

section

variable {page : ResearchPage} {today : Date} {newDate : String → Json} {now : Json}
  {task : ResearchTask}
  {doc : Document} {server : ImportServer}

theorem import_eq (hplain : doc.Plain) (hpage : UpToDate page server) :
    page.handleImportTemplate today newDate now task (csvText doc) server =
      { vendors := (importData page newDate now task doc server.systems).foldl
          (page.saveRecord today) server.vendors
        systems := dictionaryWith doc server.systems } := by
  have hnames : ((fileRows doc).map rowValues).map
      (fun values => (page.importRecord newDate now task values).systemName) = fileNames doc := by
    rw [List.map_map]
    exact List.map_congr_left fun record hrecord => (rowValues_read hrecord).1
  have hread : ∀ record ∈ ((fileRows doc).map rowValues).map (page.importRecord newDate now task),
      record.data.systemId = server.systems.idOf record.systemName := by
    intro record hrecord
    obtain ⟨values, -, rfl⟩ := List.mem_map.mp hrecord
    simp only [ResearchPage.importRecord, hpage.systems, SystemTable.idOf]
    split_ifs <;> rfl
  rw [ResearchPage.handleImportTemplate, ResearchPage.importRows, vendorRows_plain hplain,
    ResearchPage.resolveSystems_eq List.prefix_rfl hread, List.map_map, List.map_map, List.map_map]
  rw [List.map_map] at hnames
  simp only [Function.comp_def] at hnames ⊢
  rw [hnames, List.map_map]
  rfl

/-- **An import.** -/
theorem import_rows (hplain : doc.Plain) (hpage : UpToDate page server) :
    (page.handleImportTemplate today newDate now task (csvText doc) server).vendors.rows =
      (vendorScheme today).saveAll server.vendors.rows server.vendors.rows
        (importData page newDate now task doc server.systems) := by
  rw [import_eq hplain hpage, saveRecords_rows, hpage.vendors]

theorem import_systems (hplain : doc.Plain) (hpage : UpToDate page server) :
    (page.handleImportTemplate today newDate now task (csvText doc) server).systems =
      dictionaryWith doc server.systems := by
  rw [import_eq hplain hpage]

theorem rowData_entry (today : Date) {t : SystemTable} {record : List Cell × Bool}
    (h : record ∈ fileRows doc) :
    (vendorScheme today).entry (rowData page newDate now task t record) =
      ((some task.taskName, t.idOf (fieldText 4 record)),
        (fieldText 5 record, some (remarksRead record))) := by
  obtain ⟨hname, hmanufacturer, hremarks⟩ := rowValues_read h
  simp only [Scheme.entry, vendorScheme, rowData, ImportRecord.resolved, ResearchPage.importRecord,
    hname, hmanufacturer, hremarks]

theorem rowData_key (today : Date) {t : SystemTable} {record : List Cell × Bool}
    (h : record ∈ fileRows doc) :
    (vendorScheme today).key (rowData page newDate now task t record) =
      (some task.taskName, t.idOf (fieldText 4 record)) :=
  congrArg Prod.fst (rowData_entry today h)

theorem rowData_given (today : Date) {t : SystemTable} {record : List Cell × Bool}
    (h : record ∈ fileRows doc) :
    (vendorScheme today).given (rowData page newDate now task t record) =
      (fieldText 5 record, some (remarksRead record)) :=
  congrArg Prod.snd (rowData_entry today h)

/-- In the dictionary with the names of a file, two of them have the same id only if they are the
    same. -/
theorem idOf_dictionaryWith {systems : SystemTable} {a b : String} (ha : a ∈ fileNames doc ∨ a = "")
    (hb : b ∈ fileNames doc ∨ b = "") :
    (dictionaryWith doc systems).idOf a = (dictionaryWith doc systems).idOf b ↔ a = b := by
  refine ⟨fun h => ?_, fun h => by rw [h]⟩
  have hnone : (dictionaryWith doc systems).idOf "" = none := if_pos rfl
  by_cases hempty : a = ""
  · by_contra hne
    have hname : b ≠ "" := fun heq => hne (hempty.trans heq.symm)
    obtain ⟨n, hn⟩ := systems.idOf_withNames (hb.resolve_right hname) hname
    rw [hempty, hnone] at h
    cases h.trans hn
  · obtain ⟨n, hn⟩ := systems.idOf_withNames (ha.resolve_right hempty) hempty
    exact SystemTable.idOf_inj hn (h.symm.trans hn)

/-- What is saved for the rows of a name. -/
theorem itemsOf_importData (today : Date) {name : String}
    (hname : name ∈ fileNames doc ∨ name = "") :
    (vendorScheme today).itemsOf (importData page newDate now task doc server.systems)
        (some task.taskName, (dictionaryWith doc server.systems).idOf name) =
      (rowsNaming doc name).map
        (rowData page newDate now task (dictionaryWith doc server.systems)) := by
  rw [Scheme.itemsOf, importData, List.filter_map, rowsNaming]
  refine congrArg (List.map _) (List.filter_congr fun record hrecord => ?_)
  rw [Function.comp_apply, decide_eq_decide, rowData_key today hrecord, Prod.mk.injEq,
    eq_self_iff_true, true_and]
  exact idOf_dictionaryWith (Or.inl (List.mem_map_of_mem hrecord)) hname

/-! ## Importing twice -/

/-- The page after the import: `fetchSystems` and `fetchVendorResearches`. -/
def ResearchPage.refreshed (page : ResearchPage) (server : ImportServer) : ResearchPage :=
  { page with systems := server.systems.entries, vendorResearches := server.vendors.rows }

/-- Each system a file names has one vendor research of the task, with the manufacturer and the
    remarks of its last row. -/
def OneEach (doc : Document) (task : ResearchTask) (server : ImportServer) : Prop :=
  ∀ name last, name ≠ "" → (rowsNaming doc name).getLast? = some last →
    ∃ system v, (server.systems.entries.find? fun s => s.systemName = name) = some system ∧
      server.vendors.forSystem task.taskName system.id = [v] ∧
      v.manufacturer = fieldText 5 last ∧ v.remarks = some (fieldText 6 last)

/-- No entry and no vendor research is added, and no manufacturer and no remarks change. -/
def Unchanged (before after : ImportServer) : Prop :=
  after.systems.entries = before.systems.entries ∧
    after.vendors.rows.map (fun v => (v.id, v.manufacturer, v.remarks)) =
      before.vendors.rows.map fun v => (v.id, v.manufacturer, v.remarks)

/-- The task has a vendor research for an id, or one without a system. -/
def HasResearch (task : ResearchTask) (server : ImportServer) (system : Option ℤ) : Prop :=
  ∃ v ∈ server.vendors.rows, v.taskName = some task.taskName ∧ v.systemId = system

/-- The files that are imported as they should be. A system that a file names has a vendor research
    of the task already, under the id that the dictionary has or will have for it, or has one row
    only, and the last of its rows does not keep its CR. Of the rows without a system the last one
    is read as the first one is, unless the task has a vendor research without a system. -/
structure ImportsOnce (doc : Document) (task : ResearchTask) (server : ImportServer) : Prop where
  named : ∀ name last, name ≠ "" → (rowsNaming doc name).getLast? = some last →
    (HasResearch task server ((dictionaryWith doc server.systems).idOf name) ∨
      (rowsNaming doc name).length = 1) ∧
      ¬ KeepsReturn last
  unnamed : ∀ first last, (rowsNaming doc "").head? = some first →
    (rowsNaming doc "").getLast? = some last →
    HasResearch task server none ∨ fieldText 5 first = fieldText 5 last ∧
      remarksRead first = remarksRead last

theorem remarksRead_eq {record : List Cell × Bool} : remarksRead record = fieldText 6 record ↔
    ¬ KeepsReturn record := by
  unfold remarksRead
  by_cases hreturn : KeepsReturn record
  · rw [if_pos hreturn]
    refine iff_of_false (fun h => ?_) (fun h => h hreturn)
    have hlength := congrArg (fun s : String => s.toList.length) h
    simp at hlength
  · rw [if_neg hreturn]
    exact iff_of_true (String.append_empty) hreturn

theorem hasResearch_iff (today : Date) {k : Option ℤ} :
    HasResearch task server k ↔
      ∃ v ∈ server.vendors.rows, (vendorScheme today).rowKey v = (some task.taskName, k) := by
  simp [HasResearch, vendorScheme]

theorem forSystem_eq (today : Date) (t : VendorTable) (n : ℤ) :
    t.forSystem task.taskName n =
      (vendorScheme today).rowsOf t.rows (some task.taskName, some n) := by
  refine List.filter_congr fun v _ => ?_
  simp [vendorScheme]

theorem mem_fileNames {name : String} {last : List Cell × Bool}
    (h : (rowsNaming doc name).getLast? = some last) :
    name ∈ fileNames doc := by
  obtain ⟨hmem, hname⟩ := List.mem_filter.mp (List.mem_of_getLast? h)
  exact List.mem_map.mpr ⟨last, hmem, by simpa using hname⟩

/-- **One vendor research for each system.** -/
theorem oneEach_iff (hplain : doc.Plain) (hpage : UpToDate page server)
    (hone : ∀ system, (server.vendors.forSystem task.taskName system).length ≤ 1) :
    OneEach doc task (page.handleImportTemplate today newDate now task (csvText doc) server) ↔
      ∀ name last, name ≠ "" → (rowsNaming doc name).getLast? = some last →
        (HasResearch task server ((dictionaryWith doc server.systems).idOf name) ∨
          (rowsNaming doc name).length = 1) ∧
          ¬ KeepsReturn last := by
  rw [OneEach, import_systems hplain hpage]
  refine forall_congr' fun name =>
    forall_congr' fun last => forall_congr' fun hname => forall_congr' fun hlast => ?_
  obtain ⟨n, hn⟩ := server.systems.idOf_withNames (mem_fileNames hlast) hname
  obtain ⟨system, hsystem, rfl⟩ := SystemTable.find_of_idOf hn
  have hitems : (vendorScheme today).itemsOf (importData page newDate now task doc server.systems)
      (some task.taskName, some (system.id : ℤ)) = _ :=
        hn ▸ itemsOf_importData today (Or.inl (mem_fileNames hlast))
  have hsaved : ((vendorScheme today).itemsOf (importData page newDate now task doc server.systems)
      (some task.taskName, some (system.id : ℤ))).getLast? =
        some (rowData page newDate now task (dictionaryWith doc server.systems) last) := by
    rw [hitems, List.getLast?_map, hlast]
    rfl
  have hids : (server.vendors.rows.map (vendorScheme today).id).Nodup := server.vendors.keys
  have hrow := (vendorScheme today).one_row_iff hids
    (forSystem_eq today server.vendors _ ▸ hone system.id) hsaved
    (fieldText 5 last, some (fieldText 6 last))
  have hmem := List.mem_of_mem_filter (List.mem_of_getLast? hlast)
  have hread : (fieldText 5 last, some (remarksRead last)) =
      (fieldText 5 last, some (fieldText 6 last)) ↔
      ¬ KeepsReturn last := by
    rw [← remarksRead_eq, Prod.mk.injEq, Option.some_inj, eq_self_iff_true, true_and]
  rw [rowData_given today hmem, hread, hitems, List.length_map, ← hasResearch_iff today,
    ← import_rows hplain hpage] at hrow
  have hid : (dictionaryWith doc server.systems).idOf name = some (system.id : ℤ) := hn
  rw [hid, ← hrow]
  constructor
  · rintro ⟨system', v, hsystem', hv, hmanufacturer, hremarks⟩
    obtain rfl := Option.some.inj (hsystem.symm.trans hsystem')
    exact ⟨v, forSystem_eq today _ _ ▸ hv, Prod.ext hmanufacturer hremarks⟩
  · rintro ⟨v, hv, hcontent⟩
    exact ⟨system, v, hsystem, (forSystem_eq today _ _).trans hv, congrArg Prod.fst hcontent,
      congrArg Prod.snd hcontent⟩

/-- **The second import.** -/
theorem unchanged_iff (hplain : doc.Plain) (hpage : UpToDate page server) (today' : Date)
    (now' : Json)
    {after : ImportServer}
    (hafter : page.handleImportTemplate today newDate now task (csvText doc) server = after) :
    Unchanged after ((page.refreshed after).handleImportTemplate today' newDate now' task
      (csvText doc) after) ↔
      ∀ name first last, (rowsNaming doc name).head? = some first →
        (rowsNaming doc name).getLast? = some last →
        HasResearch task server ((dictionaryWith doc server.systems).idOf name) ∨
          fieldText 5 first = fieldText 5 last ∧ remarksRead first = remarksRead last := by
  have hsystems : after.systems = dictionaryWith doc server.systems :=
    hafter ▸ import_systems hplain hpage
  have hrows : after.vendors.rows =
      (vendorScheme today).saveAll server.vendors.rows server.vendors.rows
      (importData page newDate now task doc server.systems) := hafter ▸ import_rows hplain hpage
  have hpage' : UpToDate (page.refreshed after) after := ⟨rfl, rfl⟩
  -- the dictionary has all names already
  have hsame : dictionaryWith doc after.systems = after.systems := by
    refine SystemTable.withNames_of_known fun name hmem hname => ?_
    rw [hsystems]
    exact server.systems.idOf_withNames hmem hname
  have hentries : (importData (page.refreshed after) newDate now' task doc after.systems).map
      (vendorScheme today').entry =
      (importData page newDate now task doc server.systems).map (vendorScheme today).entry := by
    rw [importData, importData, List.map_map, List.map_map]
    refine List.map_congr_left fun record hrecord => ?_
    rw [Function.comp_apply, Function.comp_apply, rowData_entry today' hrecord,
      rowData_entry today hrecord, hsame, hsystems]
  have hids : (server.vendors.rows.map (vendorScheme today).id).Nodup := server.vendors.keys
  rw [Unchanged, import_systems hplain hpage', hsame, eq_self_iff_true, true_and,
    import_rows hplain hpage', hrows]
  refine ((vendorScheme today).saveAll_again_iff hids
    (vendorScheme today') rfl rfl rfl hentries).trans ?_
  constructor
  · intro h name first last hfirst hlast
    have hitems : (vendorScheme today).itemsOf (importData page newDate now task doc server.systems)
        (some task.taskName, (dictionaryWith doc server.systems).idOf name) = _ :=
      itemsOf_importData today (Or.inl (mem_fileNames hlast))
    have hsaved := h (some task.taskName, (dictionaryWith doc server.systems).idOf name) _ _
      (by rw [hitems, List.head?_map, hfirst]; rfl) (by rw [hitems, List.getLast?_map, hlast]; rfl)
    rw [← hasResearch_iff today,
      rowData_given today (List.mem_of_mem_filter (List.mem_of_mem_head? hfirst)),
      rowData_given today (List.mem_of_mem_filter (List.mem_of_getLast? hlast)), Prod.mk.injEq,
      Option.some_inj] at hsaved
    exact hsaved
  · intro h k first last hfirst hlast
    obtain ⟨hmem, rfl⟩ := (vendorScheme today).mem_itemsOf.mp (List.mem_of_getLast? hlast)
    obtain ⟨record, hrecord, rfl⟩ := List.mem_map.mp hmem
    have hname : fieldText 4 record ∈ fileNames doc := List.mem_map_of_mem hrecord
    rw [rowData_key today hrecord, itemsOf_importData today (Or.inl hname)] at hfirst hlast
    rw [List.head?_map] at hfirst
    rw [List.getLast?_map] at hlast
    obtain ⟨firstRow, hfirstRow, rfl⟩ := Option.map_eq_some_iff.mp hfirst
    obtain ⟨lastRow, hlastRow, hsame⟩ := Option.map_eq_some_iff.mp hlast
    have hrow := h (fieldText 4 record) firstRow lastRow hfirstRow hlastRow
    rw [rowData_key today hrecord, ← hasResearch_iff today, ← hsame,
      rowData_given today (List.mem_of_mem_filter (List.mem_of_mem_head? hfirstRow)),
      rowData_given today (List.mem_of_mem_filter (List.mem_of_getLast? hlastRow)), Prod.mk.injEq,
      Option.some_inj]
    exact hrow

/-- **Importing a file twice.** From lists that are up to date and with one vendor research at most
    for each system, each system of a file without quotes has one vendor research with the values of
    its last row, and the second import changes nothing, iff the file is one that is imported as it
    should be. -/
theorem import_once_iff (page : ResearchPage) (newDate : String → Json) (today today' : Date)
    (now now' : Json)
    (task : ResearchTask) {doc : Document} (hplain : doc.Plain) {server : ImportServer}
    (hpage : UpToDate page server)
    (hone : ∀ system, (server.vendors.forSystem task.taskName system).length ≤ 1)
    {after : ImportServer}
    (hafter : page.handleImportTemplate today newDate now task (csvText doc) server = after) :
    (OneEach doc task after ∧
        Unchanged after ((page.refreshed after).handleImportTemplate today' newDate now' task
          (csvText doc) after)) ↔
      ImportsOnce doc task server := by
  rw [unchanged_iff hplain hpage today' now' hafter, ← hafter, oneEach_iff hplain hpage hone]
  have hnone : (dictionaryWith doc server.systems).idOf "" = none := if_pos rfl
  constructor
  · rintro ⟨hnamed, hall⟩
    exact ⟨hnamed, fun first last hfirst hlast => hnone ▸ hall "" first last hfirst hlast⟩
  · rintro ⟨hnamed, hunnamed⟩
    refine ⟨hnamed, fun name first last hfirst hlast => ?_⟩
    by_cases hname : name = ""
    · subst hname
      rw [hnone]
      exact hunnamed first last hfirst hlast
    · rcases (hnamed name last hname hlast).1 with hknown | hlength
      · exact Or.inl hknown
      · -- the first row is the last one
        obtain ⟨row, hrow⟩ := List.length_eq_one_iff.mp hlength
        rw [hrow] at hfirst hlast
        obtain rfl := Option.some.inj (hfirst.symm.trans hlast)
        exact Or.inr ⟨rfl, rfl⟩

end

/-- A file with two rows for one system. -/
def twoRows : Document where
  lines :=
    [vendorHeaders, ["", "", "", "", "HIS", "东软", "一期"], ["", "", "", "", "HIS", "卫宁", "二期"]].map
    fun fields => (fields.map fun s => Cell.ofText s.toList, .lf)
  last := none

/-- The task it is imported for. -/
def importTask : ResearchTask := ⟨"任务", 1⟩

/-- A server without systems and vendor researches, and one with the system and a vendor research.
    -/
def emptyServer : ImportServer := ⟨⟨[], List.nodup_nil⟩, ⟨[], List.nodup_nil⟩⟩

theorem firstDay_isDate : IsDate 1970 1 1 := by decide

def hisServer : ImportServer :=
  ⟨⟨[⟨1, ⟨1970, 1, 1, firstDay_isDate⟩, 1, 1, some "任务", some 1, "", some ""⟩],
    List.nodup_singleton 1⟩, ⟨[⟨1, "HIS"⟩], List.nodup_singleton 1⟩⟩

/-- The page with the lists of a server. -/
def pageOf (server : ImportServer) : ResearchPage :=
  ⟨[], [], server.systems.entries, server.vendors.rows, none⟩

/-- What the import makes of a server. -/
def importTwoRows (server : ImportServer) : ImportServer :=
  (pageOf server).handleImportTemplate ⟨1970, 1, 1, firstDay_isDate⟩
    (fun _ => .null) .null importTask (csvText twoRows) server

theorem imports_twoRows : ImportsOnce twoRows importTask hisServer where
  named := by
    intro name last hname hlast
    have hmem := List.mem_of_getLast? hlast
    have hnamed : ∀ record ∈ fileRows twoRows,
        fieldText 4 record = "HIS" ∧ ¬ KeepsReturn record := by
      decide +kernel
    obtain ⟨hrecord, hsame⟩ := List.mem_filter.mp hmem
    obtain ⟨hhis, hreturn⟩ := hnamed last hrecord
    obtain rfl : "HIS" = name := hhis.symm.trans (of_decide_eq_true hsame)
    have hid : (dictionaryWith twoRows hisServer.systems).idOf "HIS" = some 1 := by decide +kernel
    exact ⟨Or.inl ⟨_, List.mem_cons_self, rfl, hid.symm⟩, hreturn⟩
  unnamed := by
    intro first last hfirst hlast
    have hnone : rowsNaming twoRows "" = [] := by decide +kernel
    rw [hnone] at hfirst
    cases hfirst

/-- The file is imported as it should be for a system that has a vendor research. -/
theorem import_once_iff_two :
    OneEach twoRows importTask (importTwoRows hisServer) ∧
      Unchanged (importTwoRows hisServer)
        (((pageOf hisServer).refreshed (importTwoRows hisServer)).handleImportTemplate
          ⟨1970, 1, 2, by decide⟩ (fun _ => .null) .null importTask (csvText twoRows)
          (importTwoRows hisServer)) :=
  (import_once_iff (pageOf hisServer) (fun _ => .null) ⟨1970, 1, 1, by decide⟩
    ⟨1970, 1, 2, by decide⟩ .null .null importTask (by decide +kernel) ⟨rfl, rfl⟩
    (fun _ => List.length_filter_le _ _) rfl).mpr imports_twoRows

/-- **A new system with two rows gets two vendor researches.** -/
theorem new_system_imported_twice :
    twoRows.Plain ∧ UpToDate (pageOf emptyServer) emptyServer ∧
      (∀ system, (emptyServer.vendors.forSystem importTask.taskName system).length ≤ 1) ∧
      ¬ OneEach twoRows importTask (importTwoRows emptyServer) := by
  refine ⟨by decide +kernel, ⟨rfl, rfl⟩, fun _ => Nat.zero_le 1, fun h => ?_⟩
  have hrow : (rowsNaming twoRows "HIS").getLast?.isSome := by decide +kernel
  obtain ⟨last, hlast⟩ := Option.isSome_iff_exists.mp hrow
  obtain ⟨system, v, hsystem, hone, -⟩ := h "HIS" last (by decide) hlast
  have hfind : ((importTwoRows emptyServer).systems.entries.find? fun s => s.systemName = "HIS") =
      some ⟨1, "HIS"⟩ := by
    decide +kernel
  obtain rfl := Option.some.inj (hfind.symm.trans hsystem)
  have htwo : ((importTwoRows emptyServer).vendors.forSystem importTask.taskName 1).length = 2 := by
    decide +kernel
  have hlength := congrArg List.length hone
  rw [show (((⟨1, "HIS"⟩ : SystemEntry).id : ℕ) : ℤ) = 1 from rfl, htwo] at hlength
  cases hlength

end ProjectEvaluation.Pages
