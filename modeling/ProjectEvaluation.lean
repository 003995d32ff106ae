import ProjectEvaluation.Lib.Transaction
import ProjectEvaluation.Lib.Relational
import ProjectEvaluation.Lib.Forest
import ProjectEvaluation.Lib.Decimal
import ProjectEvaluation.Lib.Rfc4180
import ProjectEvaluation.Lib.CutCsv
import ProjectEvaluation.Lib.Machine
import ProjectEvaluation.Lib.Calendar
import ProjectEvaluation.Python.Text
import ProjectEvaluation.Python.Dates
import ProjectEvaluation.Python.Ordinals
import ProjectEvaluation.Python.Csv
import ProjectEvaluation.JavaScript.Text
import ProjectEvaluation.JavaScript.Dates
import ProjectEvaluation.Backend.Values
import ProjectEvaluation.Backend.Models
import ProjectEvaluation.Backend.Orm
import ProjectEvaluation.Backend.Constraints
import ProjectEvaluation.Backend.Handlers
import ProjectEvaluation.Backend.Routes.System
import ProjectEvaluation.Backend.Routes.Standards
import ProjectEvaluation.Backend.Routes.Projects
import ProjectEvaluation.Backend.Routes.Training
import ProjectEvaluation.Backend.Routes.Imports
import ProjectEvaluation.Backend.Routes.Uploads
import ProjectEvaluation.Backend.Requests
import ProjectEvaluation.Properties.Imports
import ProjectEvaluation.Properties.References
import ProjectEvaluation.Backend.Reachable
import ProjectEvaluation.Properties.PartialUpdate
import ProjectEvaluation.Properties.RoundTrip
import ProjectEvaluation.Properties.MenuTree
import ProjectEvaluation.Properties.TaskLink
import ProjectEvaluation.Pages.Catalog
import ProjectEvaluation.Properties.Uploads
import ProjectEvaluation.Pages.Templates
import ProjectEvaluation.Properties.TemplateCsv
import ProjectEvaluation.Properties.TemplateFormats
import ProjectEvaluation.Pages.Menus
import ProjectEvaluation.Pages.Role
import ProjectEvaluation.Properties.RolePermissions
import ProjectEvaluation.Properties.RoleDialog
import ProjectEvaluation.Pages.EMRStandardClause
import ProjectEvaluation.Properties.FilteredLists
import ProjectEvaluation.Pages.VendorTable
import ProjectEvaluation.Pages.Research
import ProjectEvaluation.Properties.VendorServer
import ProjectEvaluation.Properties.TaskSelection
import ProjectEvaluation.Properties.TaskBatches
import ProjectEvaluation.Properties.CellEdits
import ProjectEvaluation.Pages.VendorImport
import ProjectEvaluation.Properties.BrowserImports
import ProjectEvaluation.Properties.ImportAgreement
import ProjectEvaluation.Lib.Upsert
import ProjectEvaluation.Properties.ResearchImport
import ProjectEvaluation.Properties.StoredRows
import ProjectEvaluation.Pages.EvaluationProject
import ProjectEvaluation.Properties.ProjectForm
import ProjectEvaluation.Properties.DateFields
import ProjectEvaluation.Properties.LearningRecords
import ProjectEvaluation.Pages.ResearchForm
import ProjectEvaluation.Properties.TaskNames
import ProjectEvaluation.Lib.UndoLog
import ProjectEvaluation.Pages.MenuManagement
import ProjectEvaluation.Properties.MenuRenaming
import ProjectEvaluation.Properties.MenuUndo
import ProjectEvaluation.Pages.CatalogViewer
import ProjectEvaluation.Properties.LearningSessions
import ProjectEvaluation.Pages.ResearchTemplate
import ProjectEvaluation.Properties.TemplateCategory
import ProjectEvaluation.Properties.CodeLinks
import ProjectEvaluation.Properties.RepeatedUpdates
import ProjectEvaluation.Properties.Seeding
import ProjectEvaluation.Properties.ImportedRows
import ProjectEvaluation.Pages.Skin
import ProjectEvaluation.Properties.Skins
import ProjectEvaluation.Pages.Layout
import ProjectEvaluation.Properties.Sidebar
import ProjectEvaluation.Lib.Marks
import ProjectEvaluation.Properties.PlannedCompletion
import ProjectEvaluation.Pages.MenuTable
import ProjectEvaluation.Properties.MenuTables
import ProjectEvaluation.Lib.Wildcard
import ProjectEvaluation.Backend.Routes.Clauses
import ProjectEvaluation.Properties.ClauseRows
import ProjectEvaluation.Properties.ClauseFilters
import ProjectEvaluation.Properties.FunctionScores
import ProjectEvaluation.Properties.ClauseImport
import ProjectEvaluation.Lib.Lockstep
import ProjectEvaluation.Lib.Footprint
import ProjectEvaluation.Backend.Routes.Lists
import ProjectEvaluation.Backend.Footprints
import ProjectEvaluation.Backend.Queries
import ProjectEvaluation.Properties.Clients
import ProjectEvaluation.Lib.Glob
import ProjectEvaluation.Sqlite.Utf8
import ProjectEvaluation.Sqlite.Like
import ProjectEvaluation.Properties.Like
import ProjectEvaluation.Properties.Mirrors
import ProjectEvaluation.Properties.Logins
import ProjectEvaluation.Properties.ColumnEdits
import ProjectEvaluation.Lib.BitFields
import ProjectEvaluation.Sqlite.Varint
import ProjectEvaluation.Properties.Varints
import ProjectEvaluation.Sqlite.Record
import ProjectEvaluation.Properties.SerialTypes
import ProjectEvaluation.Properties.Records
import ProjectEvaluation.Lib.Binary64
import ProjectEvaluation.Sqlite.Numbers
