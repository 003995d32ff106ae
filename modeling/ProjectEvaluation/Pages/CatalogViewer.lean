import ProjectEvaluation.Pages.Catalog
import ProjectEvaluation.Pages.EvaluationProject

/-!
# `Catalog.jsx`: the viewer

Opening an attachment sends a request, and so does closing the viewer. The handlers go on when
the answers arrive; until then other clicks are possible. The state has the page, the database
and what is on its way between them.
-/

namespace ProjectEvaluation.Pages.Viewer

open JavaScript Python Relational Backend

/-- A click on 开始学习: the how manieth it is, on which course, and when. -/
structure Session where
  number : ℕ
  courseware : ℕ
  startTime : TimeValue
  deriving DecidableEq

/-- What is on its way: the requests and their answers, with the variables that the handlers of
    the page still need. -/
inductive Message
  | post (session : Session)
  | created (session : Session) (id : ℕ)
  | put (session : Session) (id : ℕ) (endTime : TimeValue)
  | saved (session : Session) (id : ℕ) (endTime : TimeValue)
  | delete (id : ℕ)
  | deleted
  deriving DecidableEq

/-- The page and the server (`Catalog.jsx`, lines 22–28). `learning` stands for `startLearningTime`
    and `currentCoursewareInfo`, which are set together and cleared together. The last three members
    are no variables of the program: the number of clicks, the rows the page has made that are still
    there, and the sessions at whose end the viewer was closed. -/
structure ViewerState where
  db : DB
  learning : Option Session
  currentLearningRecordId : Option ℕ
  viewerModalVisible : Bool
  messages : List Message
  clicks : ℕ
  records : List (ℕ × Session)
  ended : List (Session × TimeValue)

/-- The page is opened. -/
def ViewerState.open (db : DB) : ViewerState where
  db := db
  learning := none
  currentLearningRecordId := none
  viewerModalVisible := false
  messages := []
  clicks := 0
  records := []
  ended := []

/-! ## Clicks -/

/-- `handleStartLearning` up to its request (`Catalog.jsx`, lines 140–211). -/
def ViewerState.start (s : ViewerState) (courseware : ℕ) (startTime : TimeValue) : ViewerState :=
  let session : Session := { number := s.clicks, courseware, startTime }
  { s with
    learning := some session, messages := s.messages ++ [.post session],
    clicks := s.clicks + 1 }

/-- 重置状态, at the end of `handleViewerModalClose` (`Catalog.jsx`, lines 249–253). -/
def ViewerState.reset (s : ViewerState) : ViewerState :=
  { s with learning := none, currentLearningRecordId := none, viewerModalVisible := false }

/-- The session of the page ends. -/
def ViewerState.finish (s : ViewerState) (endTime : TimeValue) : ViewerState :=
  { s with ended := s.ended ++ (s.learning.map fun session => (session, endTime)).toList }

/-- `handleViewerModalClose` up to its first request (`Catalog.jsx`, lines 214–235). -/
def ViewerState.close (s : ViewerState) (endTime : TimeValue) : ViewerState :=
  match s.learning, s.currentLearningRecordId with
  | some session, some id =>
    { s.finish endTime with messages := s.messages ++ [.put session id endTime] }
  | _, _ => (s.finish endTime).reset

/-! ## The server -/

section Server

variable (offset : ℤ) (user : Option String)

/-- The request of a message. -/
def Message.request : Message → Option Request
  | .post session => some (startRequest offset user session.courseware session.startTime.ms)
  | .put session id endTime =>
    some (closeRequest offset user session.courseware session.startTime.ms endTime.ms id)
  | .delete id => some (.delete .learningRecord id)
  | _ => none

/-- The answer to a message. -/
def Message.answer (response : Response) : Message → Message
  | .post session => .created session (idOf response.body)
  | .put session id endTime => .saved session id endTime
  | .delete _ => .deleted
  | m => m

/-- The rows of the page after a message. -/
def Message.recorded (response : Response) (records : List (ℕ × Session)) :
    Message → List (ℕ × Session)
  | .post session => records ++ [(idOf response.body, session)]
  | .delete id => records.filter fun record => record.1 ≠ id
  | _ => records

/-- A request is served, and succeeds. -/
def ViewerState.serve (s : ViewerState) (k : Clock) (m : Message) : Option ViewerState :=
  (m.request offset user).bind fun request =>
    let (response, db) := handle k request s.db
    if response.Success then
      some { s with
        db, messages := s.messages.erase m ++ [m.answer response],
        records := m.recorded response s.records }
    else none

end Server

/-! ## Answers -/

/-- The handlers of the page go on. -/
def ViewerState.receive (s : ViewerState) (m : Message) : Option ViewerState :=
  let s := { s with messages := s.messages.erase m }
  match m with
  | .created _ id => some { s with currentLearningRecordId := some id, viewerModalVisible := true }
  | .saved session id endTime =>
    if durationMinutes session.startTime.ms endTime.ms < 30 then
      some { s with messages := s.messages ++ [.delete id] }
    else some s.reset
  | .deleted => some s.reset
  | _ => none

/-- The clicks of the user, and the requests and answers that arrive. -/
inductive ViewerEvent
  | start (courseware : ℕ) (attachment : String) (startTime : TimeValue)
  | close (endTime : TimeValue)
  | serve (k : Clock) (m : Message)
  | receive (m : Message)

/-- An event; `none` where it is not possible, or a request fails. An attachment the player does
    not know only leads to a message, and the viewer can be closed while it is open. -/
def ViewerState.step (offset : ℤ) (user : Option String) (s : ViewerState) :
    ViewerEvent → Option ViewerState
  | .start courseware attachment startTime =>
    if (attachmentType attachment).isSome then some (s.start courseware startTime) else some s
  | .close endTime => if s.viewerModalVisible then some (s.close endTime) else none
  | .serve k m => if m ∈ s.messages then s.serve offset user k m else none
  | .receive m => if m ∈ s.messages then s.receive m else none

end ProjectEvaluation.Pages.Viewer
