import Mathlib.Data.List.Basic

/-!
# The files the pages offer as templates
-/

namespace ProjectEvaluation.Pages

/-! ## `ResearchTemplate.jsx` -/

/-- `headers` (`ResearchTemplate.jsx`, line 236). -/
def templateHeaders : List String :=
  ["project_category", "project_level", "system_name", "standard_requirement", "requirement_type",
   "inspection_project", "reference_screenshot", "remarks", "clause_id", "enabled_status"]

/-- `chineseDescriptions` (`ResearchTemplate.jsx`, line 239). The last of them has a comma of its
    own. -/
def chineseDescriptions : List String :=
  ["项目类别ID(evaluation_type_id)", "项目级别ID", "系统名称ID", "标准要求", "要求类型", "考察项目", "参考截图URL",
   "备注说明", "标准条款ID", "启用状态(1=启用,0=禁用)"]

/-- `headers.join(',')` (`ResearchTemplate.jsx`, line 246). -/
def templateHeading : List Char := (",".intercalate templateHeaders).toList

/-- `chineseDescriptions.join(',')` (`ResearchTemplate.jsx`, line 247). -/
def templateDescription : List Char := (",".intercalate chineseDescriptions).toList

end ProjectEvaluation.Pages
