import ProjectEvaluation.Backend.Requests
import ProjectEvaluation.JavaScript.Dates

/-!
# `Catalog.jsx`: the course catalog

The page keeps a record of learning: it makes one when an attachment is opened, and updates it
when the viewer is closed.
-/

namespace ProjectEvaluation.Pages

open JavaScript Python
open Backend (Request)

/-! ## The list of courses -/

/-- The parameters of the request of `fetchCoursewareList` (`Catalog.jsx`, lines 34–50). -/
def coursewareParams (selectedCourseType : Option String) : List (String × String) :=
  if truthy selectedCourseType then [("course_type", selectedCourseType.getD "")] else []

/-! ## Starting to learn -/

/-- The kinds of attachments the player knows (`Catalog.jsx`, lines 148–160). -/
inductive AttachmentType
  | pdf | mp4 | image
  deriving DecidableEq

/-- The kind `handleStartLearning` reads off the URL of an attachment (`Catalog.jsx`, lines
    147–160); `none` is the message `不支持的文件类型`. -/
def attachmentType (attachmentUrl : String) : Option AttachmentType :=
  if endsWith (lower attachmentUrl) ".pdf" then some .pdf
  else if endsWith (lower attachmentUrl) ".mp4" then some .mp4
  else if endsWith (lower attachmentUrl) ".jpg" || endsWith (lower attachmentUrl) ".jpeg" ||
      endsWith (lower attachmentUrl) ".png" then some .image
  else none

/-- `formatDate` (`Catalog.jsx`, lines 170 and 222). -/
def formatDate (date : ℤ) : String := (split 'T' (toISOString date)).headD ""

/-- `formatTime` (`Catalog.jsx`, lines 171 and 223). -/
def formatTime (offset date : ℤ) : String :=
  substringTo 5 ((split ' ' (toTimeString offset date)).headD "")

/-- `learningRecordData` (`Catalog.jsx`, lines 174–180 and 226–232); `user` is the name of the user.
    -/
def learningRecordData (offset : ℤ) (user : Option String) (courseware : ℕ)
    (startTime endTime : ℤ) : Json :=
  .dict
    [(.learningCourseware, .int courseware), (.learningPerson, .str (orText (user.getD "") "未知用户")),
     (.learningDate, .str (formatDate startTime)), (.startTime, .str (formatTime offset startTime)),
     (.endTime, .str (formatTime offset endTime))]

/-- The request of `handleStartLearning` (`Catalog.jsx`, line 183): the start is the end for the
    time being. -/
def startRequest (offset : ℤ) (user : Option String) (courseware : ℕ) (startTime : ℤ) : Request :=
  .create .learningRecord (.json (learningRecordData offset user courseware startTime startTime))

/-! ## Closing the viewer -/

/-- The request of `handleViewerModalClose` for the record it holds (`Catalog.jsx`, line 235). -/
def closeRequest (offset : ℤ) (user : Option String) (courseware : ℕ) (startTime endTime : ℤ)
    (id : ℕ) : Request :=
  .update .learningRecord id (.json (learningRecordData offset user courseware startTime endTime))

/-- `durationMinutes` (`Catalog.jsx`, line 219): `Math.round` of the quotient. -/
def durationMinutes (startTime endTime : ℤ) : ℤ := (endTime - startTime + 30000) / 60000

/-- The request after that (`Catalog.jsx`, lines 239–240): the record of a short time is deleted. -/
def shortRequest (startTime endTime : ℤ) (id : ℕ) : Option Request :=
  if durationMinutes startTime endTime < 30 then some (.delete .learningRecord id) else none

end ProjectEvaluation.Pages
