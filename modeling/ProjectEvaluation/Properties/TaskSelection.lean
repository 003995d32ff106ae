import ProjectEvaluation.Pages.Research
import ProjectEvaluation.Properties.Imports

/-!
# Selecting a task

Results:
* `task_selected`: what the requests of `handleTaskSelect` leave of the vendor researches.
-/

namespace ProjectEvaluation.Pages

open Python JavaScript Backend

/-- The table after the requests of a selection, each of the two kinds in some order. -/
def VendorTable.afterBatch (today : Date) (t : VendorTable) (batch : Option ResearchPage.Batch) :
    VendorTable :=
  match batch with
  | none => t
  | some batch => batch.creates.foldl (create today) (batch.deletes.foldl delete t)

/-- The same requests in another order. -/
def SameRequests : Option ResearchPage.Batch → Option ResearchPage.Batch → Prop
  | none, none => True
  | some b, some b' => b.deletes.Perm b'.deletes ∧ b.creates.Perm b'.creates
  | _, _ => False

/-- A vendor research of a task for a system that nobody filled in yet. -/
structure Blank (page : ResearchPage) (task : ResearchTask) (system : SystemEntry)
    (v : Vendor) : Prop where
  researcherId : v.researcherId = orNumber page.user 1
  projectId : v.projectId =
    orNumber (some task.projectId) (orNumber (page.projects.head?.map Project.id) 1)
  taskName : v.taskName = some task.taskName
  systemId : v.systemId = some (system.id : ℤ)
  manufacturer : v.manufacturer = ""
  remarks : v.remarks = some ""

/-- What a selection leaves: all vendor researches where each system has one of the task;
    else those of the other tasks, and a blank one of the task for each system. -/
def Selected (page : ResearchPage) (task : ResearchTask) (before after : VendorTable) : Prop :=
  if page.hasAllSystems task then after.rows = before.rows
  else
    (∀ v, v.taskName ≠ some task.taskName → (v ∈ after.rows ↔ v ∈ before.rows)) ∧
      ∃ systems : List SystemEntry, systems.Perm page.systems ∧
        List.Forall₂ (Blank page task) systems (after.ofTask task.taskName)

/-- The rows a selection deletes are those of the task. -/
theorem mem_deletes {page : ResearchPage} {server : VendorTable}
    (hloaded : page.vendorResearches = server.rows)
    {task : ResearchTask} {deletes : List ℕ}
    (hdeletes : deletes.Perm ((page.existingVendors task).map Vendor.id))
    {v : Vendor} (hv : v ∈ server.rows) : v.id ∈ deletes ↔ v.taskName = some task.taskName := by
  rw [hdeletes.mem_iff, ResearchPage.existingVendors, hloaded, List.mem_map]
  constructor
  · rintro ⟨w, hw, hid⟩
    obtain ⟨hrow, htask⟩ := List.mem_filter.mp hw
    obtain rfl := List.inj_on_of_nodup_map server.keys hrow hv hid
    exact of_decide_eq_true htask
  · intro htask
    exact ⟨v, List.mem_filter.mpr ⟨hv, decide_eq_true htask⟩, rfl⟩

/-- The new rows are blank, one for each system. -/
theorem blank_rows {today : Date} {page : ResearchPage} {now : Json} {task : ResearchTask}
    {creates : List VendorData}
    (hcreates : creates.Perm (page.vendorResearchData now task)) {new : List Vendor}
    (hnew : List.Forall₂ (fun (data : VendorData) v => v = data.row today v.id) creates new) :
    ∃ systems : List SystemEntry,
      systems.Perm page.systems ∧ List.Forall₂ (Blank page task) systems new := by
  have hsystems : Relation.Comp
      (· = List.map (page.vendorData now task) ·) List.Perm creates page.systems := by
    rw [List.eq_map_comp_perm]
    exact hcreates
  obtain ⟨systems, rfl, hperm⟩ := hsystems
  rw [List.forall₂_map_left_iff] at hnew
  refine ⟨systems, hperm, hnew.imp fun system v hv => ?_⟩
  rw [hv]
  exact ⟨rfl, rfl, rfl, rfl, rfl, rfl⟩

/-- **Selecting a task.** With the vendor researches of the server in the page, after all
    requests of a selection: where every system has a vendor research of the task nothing
    changes; else the task has a blank one for each system and no other, and the other
    tasks have what they had. In either case the task has one for every system. -/
theorem task_selected (today : Date) (page : ResearchPage) (server : VendorTable)
    (hloaded : page.vendorResearches = server.rows) (now : Json) (task : ResearchTask)
    (batch : Option ResearchPage.Batch)
    (hbatch : SameRequests batch (page.handleTaskSelect now task)) :
    Selected page task server (server.afterBatch today batch) ∧
      ∀ system ∈ page.systems, ∃ v ∈ (server.afterBatch today batch).rows,
        v.taskName = some task.taskName ∧ v.systemId = some (system.id : ℤ) := by
  rw [ResearchPage.handleTaskSelect_eq] at hbatch
  by_cases hall : page.hasAllSystems task = true
  · rw [if_pos hall] at hbatch
    cases batch with
    | some b => exact absurd hbatch id
    | none =>
      refine ⟨by rw [Selected, if_pos hall]; rfl, fun system hsystem => ?_⟩
      have hcovered := List.all_eq_true.mp hall system hsystem
      obtain ⟨v, hv, hid⟩ := List.mem_map.mp (List.contains_iff_mem.mp hcovered)
      obtain ⟨hrow, htask⟩ := List.mem_filter.mp hv
      exact ⟨v, hloaded ▸ hrow, of_decide_eq_true htask, hid⟩
  · rw [if_neg hall] at hbatch
    cases batch with
    | none => exact absurd hbatch id
    | some b =>
      obtain ⟨hdeletes, hcreates⟩ := hbatch
      obtain ⟨new, hnew, hrows⟩ :=
        VendorTable.create_all today (b.deletes.foldl VendorTable.delete server) b.creates
      obtain ⟨systems, hperm, hblank⟩ := blank_rows hcreates hrows
      have hafter : (server.afterBatch today (some b)).rows =
          (server.rows.filter fun v => v.id ∉ b.deletes) ++ new := by
        rw [← VendorTable.delete_all]
        exact hnew
      have htask : ∀ v ∈ new, v.taskName = some task.taskName := by
        intro v hv
        obtain ⟨system, -, hblank⟩ := exists_of_forall₂ hblank.flip v hv
        exact hblank.taskName
      have hkept : ∀ v, v ∈ server.rows.filter (fun v => v.id ∉ b.deletes) ↔
          v ∈ server.rows ∧ v.taskName ≠ some task.taskName := by
        intro v
        rw [List.mem_filter, decide_eq_true_eq]
        exact and_congr_right fun hv => not_congr (mem_deletes hloaded hdeletes hv)
      refine ⟨?_, fun system hsystem => ?_⟩
      · rw [Selected, if_neg hall]
        refine ⟨fun v hother => ?_, systems, hperm, ?_⟩
        · rw [hafter, List.mem_append, hkept, or_iff_left fun hv => hother (htask v hv)]
          exact and_iff_left hother
        · have hofTask : (server.afterBatch today (some b)).ofTask task.taskName = new := by
            rw [VendorTable.ofTask, hafter, List.filter_append]
            have hnone : (server.rows.filter fun v => v.id ∉ b.deletes).filter
                (fun v => decide (v.taskName = some task.taskName)) = [] := by
              rw [List.filter_eq_nil_iff]
              intro v hv
              simpa using ((hkept v).mp hv).2
            rw [hnone, List.nil_append, List.filter_eq_self]
            exact fun v hv => decide_eq_true (htask v hv)
          rw [hofTask]
          exact hblank
      · obtain ⟨v, hv, hblank⟩ := exists_of_forall₂ hblank system (hperm.mem_iff.mpr hsystem)
        refine ⟨v, ?_, hblank.taskName, hblank.systemId⟩
        rw [hafter]
        exact List.mem_append_right _ hv

theorem filledDay_isDate : IsDate 2026 2 1 := by decide

/-- A page with two systems, the first with a vendor research that was filled in. -/
def grownDictionary : ResearchPage where
  tasks := [⟨"任务", 1⟩]
  projects := [⟨1, "项目"⟩]
  systems := [⟨1, "HIS"⟩, ⟨2, "LIS"⟩]
  vendorResearches :=
    [⟨1, ⟨2026, 2, 1, filledDay_isDate⟩, 1, 1, some "任务", some 1, "东软", some "已填写"⟩]
  user := some 1

/-- The table of the server is the list of the page. -/
def grownServer : VendorTable := ⟨grownDictionary.vendorResearches, by decide⟩

/-- The selection deletes it. -/
theorem filled_in_lost :
    ∃ batch, grownDictionary.handleTaskSelect .null ⟨"任务", 1⟩ = some batch ∧
      ((grownServer.afterBatch ⟨2026, 2, 2, by decide⟩ (some batch)).rows.map fun v =>
        (v.systemId, v.manufacturer)) =
        [(some 1, ""), (some 2, "")] :=
  ⟨_, rfl, by decide⟩

/-- After it there is one for each system. -/
theorem grown_dictionary_selected :
    Selected grownDictionary ⟨"任务", 1⟩ grownServer (grownServer.afterBatch ⟨2026, 2, 2, by decide⟩
        (grownDictionary.handleTaskSelect .null ⟨"任务", 1⟩)) ∧
      ∀ system ∈ grownDictionary.systems, ∃ v ∈ (grownServer.afterBatch ⟨2026, 2, 2, by decide⟩
        (grownDictionary.handleTaskSelect .null ⟨"任务", 1⟩)).rows,
        v.taskName = some "任务" ∧ v.systemId = some (system.id : ℤ) :=
  task_selected ⟨2026, 2, 2, by decide⟩ grownDictionary grownServer rfl .null ⟨"任务", 1⟩ _
    ⟨List.Perm.refl _, List.Perm.refl _⟩

end ProjectEvaluation.Pages
