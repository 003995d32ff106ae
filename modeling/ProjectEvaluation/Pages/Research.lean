import ProjectEvaluation.JavaScript.Text
import ProjectEvaluation.Pages.VendorTable

/-!
# `Research.jsx`: the research tasks and their vendor researches
-/

namespace ProjectEvaluation.Pages

open Python JavaScript

/-- A research task. -/
structure ResearchTask where
  taskName : String
  projectId : ℤ
  deriving DecidableEq

/-- The state of the page (`Research.jsx`, lines 20–31); `user` is `user?.id`. -/
structure ResearchPage where
  tasks : List ResearchTask
  projects : List Project
  systems : List SystemEntry
  vendorResearches : List Vendor
  user : Option ℤ

namespace ResearchPage

/-! ## Selecting a task -/

/-- `existingVendors` (`Research.jsx`, lines 87–89). -/
def existingVendors (page : ResearchPage) (task : ResearchTask) : List Vendor :=
  page.vendorResearches.filter fun vendor => vendor.taskName = some task.taskName

/-- `hasAllSystems` (`Research.jsx`, lines 92–94). -/
def hasAllSystems (page : ResearchPage) (task : ResearchTask) : Bool :=
  let existingSystemIds := (page.existingVendors task).map Vendor.systemId
  page.systems.all fun system => existingSystemIds.contains (some (system.id : ℤ))

/-- A vendor research of a task that is made for a system (`Research.jsx`, lines 107–115). -/
def vendorData (page : ResearchPage) (now : Json) (task : ResearchTask) (system : SystemEntry) :
    VendorData where
  researchDate := now
  researcherId := orNumber page.user 1
  projectId := orNumber (some task.projectId) (orNumber (page.projects.head?.map Project.id) 1)
  taskName := task.taskName
  systemId := some system.id
  manufacturer := ""
  remarks := ""

/-- `vendorResearchData` (`Research.jsx`, lines 107–115). -/
def vendorResearchData (page : ResearchPage) (now : Json) (task : ResearchTask) : List VendorData :=
  page.systems.map (page.vendorData now task)

/-- The requests of a batch (`Research.jsx`, lines 117–143): the DELETEs, and the POSTs after all of
    them. -/
structure Batch where
  deletes : List ℕ
  creates : List VendorData

/-- `handleTaskSelect` (`Research.jsx`, lines 80–150): the batch it starts, if it starts one. -/
def handleTaskSelect (page : ResearchPage) (now : Json) (task : ResearchTask) : Option Batch :=
  if page.hasAllSystems task then none
  else if 0 < (page.vendorResearchData now task).length then
    some ⟨(page.existingVendors task).map Vendor.id, page.vendorResearchData now task⟩
  else none

/-- A batch is started unless every system has a vendor research of the task. -/
theorem handleTaskSelect_eq (page : ResearchPage) (now : Json) (task : ResearchTask) :
    page.handleTaskSelect now task =
      if page.hasAllSystems task then none
      else some ⟨(page.existingVendors task).map Vendor.id, page.vendorResearchData now task⟩ := by
  unfold handleTaskSelect
  by_cases hall : page.hasAllSystems task = true
  · rw [if_pos hall, if_pos hall]
  · have hne : page.systems ≠ [] := by
      intro hempty
      exact hall (by rw [hasAllSystems, hempty]; rfl)
    rw [if_neg hall, if_neg hall, if_pos]
    rw [vendorResearchData, List.length_map]
    exact List.length_pos_of_ne_nil hne

end ResearchPage

/-! ## The cells of the vendor researches -/

/-- `onChange` of the cells of the manufacturer and the remarks (`Research.jsx`, lines 617–643): the
    PUT it sends. -/
def textChanged (cell : TextCell) (value : String) : VendorUpdate := .text cell value

/-- `onChange` of the cell of the system name (`Research.jsx`, lines 587–610): the PUT it sends, and
    the name it POSTs where no system has it. -/
def systemNameChanged (systems : List SystemEntry) (systemName : String) :
    VendorUpdate × Option String :=
  match systems.find? fun system => system.systemName = systemName with
  | some system => (.system (some systemName) (some system.id), none)
  | none => (.system (some systemName) none, some systemName)

/-- The PUT that the answer of this POST sends (`Research.jsx`, lines 600–603). -/
def systemCreated (system : SystemEntry) : VendorUpdate := .system none (some system.id)

end ProjectEvaluation.Pages
