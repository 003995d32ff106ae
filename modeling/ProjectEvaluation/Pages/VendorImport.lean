import ProjectEvaluation.Pages.Research

/-!
# Importing vendor researches

`handleImportTemplate` of `Research.jsx` and of `VendorResearchForm.jsx`. `new Date(s)` is a
parameter: apart from the ISO formats its reading of a text is left to the browser. The
dates are those of one moment, `now` in the page and `today` at the server, and every
request succeeds.
-/

namespace ProjectEvaluation.Pages

open Python JavaScript

/-- The columns of the templates of both pages (`Research.jsx`, line 195; `VendorResearchForm.jsx`,
    line 115). -/
def vendorHeaders : List String := ["调研日期", "调研人", "项目名称", "任务名称", "系统名称", "制造商", "备注"]

/-- The values of the lines with seven or more (`Research.jsx`, lines 233–239); the first line is
    the header. -/
def vendorRows (csvContent : String) : List (List String) :=
  (((split '\n' csvContent).drop 1).map (split ',')).filter fun values => 7 ≤ values.length

/-- The tables of the server an import changes. -/
structure ImportServer where
  vendors : VendorTable
  systems : SystemTable

/-- `values[0] ? new Date(values[0]) : new Date()` (`Research.jsx`, line 261;
    `VendorResearchForm.jsx`, line 159). -/
def researchDate (newDate : String → Json) (now : Json) (values : List String) : Json :=
  if values.getD 0 "" = "" then now else newDate (values.getD 0 "")

/-! ## `Research.jsx` -/

/-- A record of `importData` (`Research.jsx`, lines 260–269). -/
structure ImportRecord where
  data : VendorData
  systemName : String

namespace ResearchPage

/-- The record of a row (`Research.jsx`, lines 240–269). -/
def importRecord (page : ResearchPage) (newDate : String → Json) (now : Json) (task : ResearchTask)
    (values : List String) : ImportRecord :=
  let firstProject := orNumber (page.projects.head?.map Project.id) 1
  let projectName := values.getD 2 ""
  let project :=
    if projectName = "" then none else page.projects.find? fun p => p.projectName = projectName
  let systemName := values.getD 4 ""
  let system :=
    if systemName = "" then none else page.systems.find? fun s => s.systemName = systemName
  { data :=
      { researchDate := researchDate newDate now values
        researcherId := orNumber page.user 1
        projectId := project.elim firstProject Project.id
        taskName := task.taskName
        systemId := system.map fun s => s.id
        manufacturer := values.getD 5 ""
        remarks := values.getD 6 "" }
    systemName }

/-- A record whose system the page does not know is given the id the server has for its
    name, or that of a new entry (`Research.jsx`, lines 276–297). -/
def resolveSystem (systems : SystemTable) (record : ImportRecord) : SystemTable × VendorData :=
  if record.systemName ≠ "" ∧ orNull record.data.systemId = none then
    match systems.entries.find? fun s => s.systemName = record.systemName with
    | some system => (systems, { record.data with systemId := some system.id })
    | none =>
      (systems.create record.systemName,
        { record.data with systemId := some (systems.newEntry record.systemName).id })
  else (systems, record.data)

/-- The records one after the other (`Research.jsx`, lines 275–298). -/
def resolveSystems : SystemTable → List ImportRecord → SystemTable × List VendorData
  | systems, [] => (systems, [])
  | systems, record :: records =>
    let resolved := resolveSystem systems record
    let rest := resolveSystems resolved.1 records
    (rest.1, resolved.2 :: rest.2)

/-- A record replaces the vendor research of its system and task that the page has, or is
    added (`Research.jsx`, lines 305–329). -/
def saveRecord (page : ResearchPage) (today : Date) (vendors : VendorTable) (data : VendorData) :
    VendorTable :=
  match page.vendorResearches.find? fun v =>
    v.systemId = data.systemId ∧ v.taskName = some data.taskName with
  | some existing => vendors.replace existing.id data
  | none => vendors.create today data

/-- What an import makes of the rows of a file (`Research.jsx`, lines 235–329). -/
def importRows (page : ResearchPage) (today : Date) (newDate : String → Json) (now : Json)
    (task : ResearchTask)
    (rows : List (List String)) (server : ImportServer) : ImportServer :=
  let resolved := resolveSystems server.systems (rows.map (page.importRecord newDate now task))
  { vendors := resolved.2.foldl (page.saveRecord today) server.vendors
    systems := resolved.1 }

/-- `handleImportTemplate` (`Research.jsx`, lines 216–356). -/
def handleImportTemplate (page : ResearchPage) (today : Date) (newDate : String → Json) (now : Json)
    (task : ResearchTask) (csvContent : String) (server : ImportServer) : ImportServer :=
  page.importRows today newDate now task (vendorRows csvContent) server

end ResearchPage

/-! ## `VendorResearchForm.jsx` -/

/-- The state of the page (`VendorResearchForm.jsx`, lines 20–31); `taskName` is that of its URL,
    and `user` is `user?.id`. -/
structure VendorResearchForm where
  taskName : String
  projects : List Project
  systems : List SystemEntry
  user : Option ℤ

namespace VendorResearchForm

/-- The record of a row (`VendorResearchForm.jsx`, lines 158–166). -/
def importRecord (page : VendorResearchForm) (newDate : String → Json) (now : Json)
    (values : List String) :
    VendorData where
  researchDate := researchDate newDate now values
  researcherId := orNumber page.user 1
  projectId := orNumber (page.projects.head?.map Project.id) 1
  taskName := orText (values.getD 3 "") page.taskName
  systemId := orNull (page.systems.head?.map fun s => s.id)
  manufacturer := values.getD 5 ""
  remarks := values.getD 6 ""

/-- What an import makes of the rows of a file (`VendorResearchForm.jsx`, lines 154–185). -/
def importRows (page : VendorResearchForm) (today : Date) (newDate : String → Json) (now : Json)
    (rows : List (List String)) (server : ImportServer) : ImportServer :=
  { server with
    vendors := (rows.map (page.importRecord newDate now)).foldl (VendorTable.create today)
      server.vendors }

/-- `handleImportTemplate` (`VendorResearchForm.jsx`, lines 136–211). -/
def handleImportTemplate (page : VendorResearchForm) (today : Date) (newDate : String → Json)
    (now : Json)
    (csvContent : String) (server : ImportServer) : ImportServer :=
  page.importRows today newDate now (vendorRows csvContent) server

end VendorResearchForm

end ProjectEvaluation.Pages
