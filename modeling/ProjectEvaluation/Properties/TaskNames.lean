import ProjectEvaluation.Backend.Reachable
import ProjectEvaluation.Lib.Machine
import ProjectEvaluation.Pages.ResearchForm
import ProjectEvaluation.Properties.TaskLink

/-!
# The names of research tasks

Tasks are created with the name the form proposes, and deleted.

Results:
* `task_names_distinct_iff`: in a run the names of the tasks are distinct throughout iff no task
  is created from the parts of one that is still there.
-/

namespace ProjectEvaluation.Pages.ResearchForm

open Calendar (dateOf)
open JavaScript Python Relational Backend Machine

/-! ## Runs -/

/-- The database, with the parts the name of each task was made of. -/
structure TaskPool where
  db : DB
  origin : ℕ → Option NameParts

/-- The form is opened and submitted for a project, at the time `now`, or a task is deleted. -/
inductive TaskEvent
  | create (k : Clock) (offset now : ℤ) (projectId : ℕ) (values : TaskValues)
  | delete (k : Clock) (id : ℕ)

section Runs

variable (pinyin : String → String) (otherText : Json → String)

/-- A new task, if the project is in the list. -/
def TaskPool.create (k : Clock) (offset now : ℤ) (projectId : ℕ) (values : TaskValues)
    (s : TaskPool)
    (selectedProject : Json) : TaskPool :=
  let today := dateOf (localDay offset now)
  let projects := (getEvaluationProjects s.db).body
  let (response, db) :=
    handle k (handleSubmit pinyin otherText today projects projectId selectedProject values) s.db
  { db
    origin :=
      if response.Success then
        Function.update s.origin (nextId (s.db .researchTask))
          (nameParts pinyin otherText today selectedProject)
      else s.origin }

/-- One event; a project that is not in the list cannot be chosen. -/
def TaskPool.step (s : TaskPool) : TaskEvent → Option TaskPool
  | .create k offset now projectId values =>
    (entryOf projectId (getEvaluationProjects s.db).body).map
      (s.create pinyin otherText k offset now projectId values)
  | .delete k id => some { s with db := (handle k (.delete .researchTask id) s.db).2 }

/-- The names of the tasks are pairwise distinct. -/
def TaskPool.NamesDistinct (s : TaskPool) : Prop :=
  ((s.db .researchTask).map fun task => task.cell .taskName).Nodup

/-- A task that is created has other parts than every task that is there: the two letters of the
    project, its type and level, or the month differ. -/
def FreshParts (s : TaskPool) : TaskEvent → Prop
  | .create k offset now projectId values =>
    ∀ selectedProject ∈ entryOf projectId (getEvaluationProjects s.db).body,
      (handle k (handleSubmit pinyin otherText (dateOf (localDay offset now))
        (getEvaluationProjects s.db).body projectId
        selectedProject values) s.db).1.Success →
      ∀ task ∈ s.db .researchTask,
        s.origin task.id ≠ some
        (nameParts pinyin otherText (dateOf (localDay offset now)) selectedProject)
  | .delete _ _ => True

instance (s : TaskPool) (e : TaskEvent) : Decidable (FreshParts pinyin otherText s e) := by
  cases e <;> (unfold FreshParts; infer_instance)

/-- Every task has the name of its parts, and the names are distinct. -/
structure TaskPool.Inv (s : TaskPool) : Prop where
  valid : Valid s.db
  named : ∀ task ∈ s.db .researchTask, ∃ parts, s.origin task.id = some parts ∧ parts.Regular ∧
    task.cell .taskName = .text parts.taskName
  distinct : s.NamesDistinct

variable {pinyin otherText}

/-! ## Steps -/

/-- What a creation does: nothing, or it adds a task with the name of its parts. -/
theorem create_cases {s : TaskPool} (hvalid : Valid s.db) {k : Clock} {offset now : ℤ}
    {projectId : ℕ}
    {values : TaskValues} {selectedProject : Json}
    (hentry : entryOf projectId (getEvaluationProjects s.db).body = some selectedProject) :
    let parts := nameParts pinyin otherText (dateOf (localDay offset now)) selectedProject
    let request :=
      handleSubmit pinyin otherText (dateOf (localDay offset now)) (getEvaluationProjects s.db).body
      projectId selectedProject values
    let s' := s.create pinyin otherText k offset now projectId values selectedProject
    (¬ (handle k request s.db).1.Success ∧ s' = s) ∨
      (handle k request s.db).1.Success ∧
        s'.origin = Function.update s.origin (nextId (s.db .researchTask)) (some parts) ∧
        ∃ row : Record, row.id = nextId (s.db .researchTask) ∧
          row.cell .taskName = .text parts.taskName ∧
          s'.db .researchTask = s.db .researchTask ++ [row] := by
  intro parts request s'
  have hname : generateTaskName pinyin otherText (dateOf (localDay offset now))
      (getEvaluationProjects s.db).body projectId =
      parts.taskName := by
    rw [generateTaskName, hentry]
    rfl
  have hrequest : request = LinkRequest.toRequest (.createTask (.json
      (newValues parts.taskName projectId selectedProject values))) := by
    show Request.create .researchTask (.json (newValues (generateTaskName pinyin otherText
      (dateOf (localDay offset now)) (getEvaluationProjects s.db).body projectId) projectId
        selectedProject values)) = _
    rw [hname]
    rfl
  have hs' : s' =
      { db := (handle k request s.db).2, origin := if (handle k request s.db).1.Success then
      Function.update s.origin (nextId (s.db .researchTask)) (some parts) else s.origin } := rfl
  rw [hs', hrequest]
  rcases link_cases hvalid k
    (.createTask (.json (newValues parts.taskName projectId selectedProject values))) with
    ⟨hbad, hsame⟩ | ⟨hgood, data, hbody, ⟨row, hid, hcell, hrows⟩, -⟩
  · left
    rw [hsame, if_neg hbad]
    exact ⟨hbad, rfl⟩
  · right
    cases hbody
    rw [if_pos hgood]
    exact ⟨hgood, rfl, row, hid, hcell, hrows⟩

/-- **A creation keeps the names distinct** iff it has other parts than every task that is there. -/
theorem create_distinct_iff {s s' : TaskPool} (h : s.Inv) {k : Clock} {offset now : ℤ}
    {projectId : ℕ}
    {values : TaskValues}
    (hstep : s.step pinyin otherText (.create k offset now projectId values) = some s') :
    s'.NamesDistinct ↔ FreshParts pinyin otherText s (.create k offset now projectId values) := by
  obtain ⟨selectedProject, hentry, rfl⟩ := Option.map_eq_some_iff.mp hstep
  have hfresh : FreshParts pinyin otherText s (.create k offset now projectId values) ↔
      ((handle k (handleSubmit pinyin otherText (dateOf (localDay offset now))
        (getEvaluationProjects s.db).body
        projectId selectedProject values) s.db).1.Success → ∀ task ∈ s.db .researchTask,
        s.origin task.id ≠ some
        (nameParts pinyin otherText (dateOf (localDay offset now)) selectedProject)) := by
    show (∀ project ∈ entryOf projectId (getEvaluationProjects s.db).body, _) ↔ _
    rw [hentry]
    exact ⟨fun h => h selectedProject rfl, fun h project hp => Option.some.inj hp ▸ h⟩
  rw [hfresh]
  rcases create_cases h.valid hentry with
    ⟨hbad, hsame⟩ | ⟨hgood, horigin, row, hid, hname, hrows⟩
  · rw [hsame]
    exact iff_of_true h.distinct fun hgood => absurd hgood hbad
  · have hregular :=
      nameParts_regular pinyin otherText (dateOf (localDay offset now)) selectedProject
    have hnames : (TaskPool.create pinyin otherText k offset now projectId values s
        selectedProject).NamesDistinct ↔
        ∀ task ∈ s.db .researchTask, task.cell .taskName ≠
          .text (nameParts pinyin otherText
            (dateOf (localDay offset now)) selectedProject).taskName := by
      rw [TaskPool.NamesDistinct, hrows, List.map_append, List.map_singleton,
        List.nodup_append_comm, List.singleton_append, List.nodup_cons, hname,
        and_iff_left (show ((s.db .researchTask).map fun task => task.cell .taskName).Nodup from
          h.distinct)]
      simp
    rw [hnames, imp_iff_right hgood]
    refine forall₂_congr fun task htask => not_congr ?_
    obtain ⟨parts, horigin, hparts, htaskName⟩ := h.named task htask
    rw [htaskName, horigin, Value.text.injEq, Option.some_inj]
    exact ⟨taskName_injective hparts hregular, congrArg NameParts.taskName⟩

/-- **One event keeps the invariant**, if a task that is created has other parts. -/
theorem step_inv {s s' : TaskPool} {e : TaskEvent} (h : s.Inv)
    (hfresh : FreshParts pinyin otherText s e)
    (hstep : s.step pinyin otherText e = some s') : s'.Inv := by
  cases e with
  | create k offset now projectId values =>
    have hdistinct := (create_distinct_iff h hstep).mpr hfresh
    obtain ⟨selectedProject, hentry, rfl⟩ := Option.map_eq_some_iff.mp hstep
    refine ⟨handle_valid h.valid, ?_, hdistinct⟩
    rcases create_cases h.valid hentry with
      ⟨hbad, hsame⟩ | ⟨hgood, horigin, row, hid, hname, hrows⟩
    · rw [hsame]
      exact h.named
    · rw [hrows, horigin]
      intro task htask
      rcases List.mem_append.mp htask with htask | htask
      · rw [Function.update_of_ne (Nat.ne_of_lt (lt_nextId htask))]
        exact h.named task htask
      · rw [List.mem_singleton.mp htask, hid, Function.update_self]
        exact ⟨_, rfl, nameParts_regular .., hname⟩
  | delete k id =>
    cases hstep
    have hvalid : Valid (handle k (.delete .researchTask id) s.db).2 := handle_valid h.valid
    rcases link_cases h.valid k (.deleteTask id) with ⟨-, hsame⟩ | ⟨-, task, -, -, hrows, -⟩
    · have hsame : (handle k (.delete .researchTask id) s.db).2 = s.db := hsame
      rw [hsame]
      exact h
    · have hrows : (handle k (.delete .researchTask id) s.db).2 .researchTask =
          (s.db .researchTask).filter fun t => t.id ≠ id := hrows
      refine ⟨hvalid, fun task htask => ?_, ?_⟩
      · have htask : task ∈ (handle k (.delete .researchTask id) s.db).2 .researchTask := htask
        rw [hrows] at htask
        exact h.named task (List.mem_filter.mp htask).1
      · show (((handle k (.delete .researchTask id) s.db).2 .researchTask).map fun task =>
          task.cell .taskName).Nodup
        rw [hrows]
        exact h.distinct.sublist (List.filter_sublist.map _)

end Runs

/-! ## The names in a run -/

/-- The pool without tasks. -/
def TaskPool.init (db : DB) : TaskPool where
  db := db
  origin := fun _ => none

theorem init_inv {db : DB} (hdb : Reachable db) (hnone : db .researchTask = []) :
    (TaskPool.init db).Inv := by
  refine ⟨hdb.valid, fun task htask => ?_, ?_⟩
  · have htask : task ∈ db .researchTask := htask
    rw [hnone] at htask
    cases htask
  · show ((db .researchTask).map fun task => task.cell .taskName).Nodup
    rw [hnone]
    exact List.nodup_nil

/-- **The names of the tasks are distinct after every event of a run** if and only if every task
    that is created has other parts than the tasks that are there. -/
theorem task_names_distinct_iff (pinyin : String → String) (otherText : Json → String) {db : DB}
    (hdb : Reachable db)
    (hnone : db .researchTask = []) (run : List TaskEvent) :
    Always (TaskPool.step pinyin otherText)
        (fun s e => ∀ s', s.step pinyin otherText e = some s' → s'.NamesDistinct) (.init db) run ↔
      Always (TaskPool.step pinyin otherText) (FreshParts pinyin otherText) (.init db) run := by
  refine (Always.iff_of_invariant (I := TaskPool.Inv) (fun s e h => ?_)
    (fun s e s' h hfresh hstep => ?_)
    (init_inv hdb hnone)).symm
  · cases e with
    | create k offset now projectId values =>
      constructor
      · intro hfresh s' hstep
        exact (create_distinct_iff h hstep).mpr hfresh
      · intro hdistinct
        cases hentry : entryOf projectId (getEvaluationProjects s.db).body with
        | none =>
          intro project hproject
          rw [hentry] at hproject
          cases hproject
        | some project =>
          have hstep : s.step pinyin otherText (.create k offset now projectId values) = some _ :=
            congrArg (Option.map _) hentry
          exact (create_distinct_iff h hstep).mp (hdistinct _ hstep)
    | delete k id =>
      have hfresh : FreshParts pinyin otherText s (.delete k id) := trivial
      exact iff_of_true hfresh fun s' hstep => (step_inv h hfresh hstep).distinct
  · exact step_inv h hfresh hstep

/-- The spelling of one name; letters are separated by blanks. -/
def spelled (text : String) : String := if text = "项目" then "x m" else ""

/-- The database with this project. -/
def hospital : DB :=
  (handle .epoch (.create .project (.json (.dict
    [(.projectId, .str "1"), (.projectName, .str "项目"), (.projectManagerId, .int 1),
     (.projectType, .int 1), (.projectLevel, .int 1), (.establishmentDate, .str "2024-01-05")])))
       fun _ =>
       []).2

theorem hospital_reachable : Reachable hospital := .request .epoch _ .empty

/-- The form is filled in for it, at a time in UTC. -/
def newTask (now : ℤ) : TaskEvent :=
  .create .epoch 0 now 1 ⟨.int 1, .int 1, .str "进度中", .str "2024-03-01"⟩

/-- Two tasks on January 5, 2024. -/
theorem task_names_equal :
    Reachable hospital ∧ hospital .researchTask = [] ∧
      (exec (TaskPool.step spelled fun _ => "") (.init hospital) [newTask 1704412800000,
        newTask 1704412800000]).map
        (fun s => (s.db .researchTask).map fun task => task.cell .taskName) =
          some [.text "x -1-1-2401-01", .text "x -1-1-2401-01"] :=
  ⟨hospital_reachable, by decide +kernel, by decide +kernel⟩

/-- One task in January, and one in February. -/
theorem task_names_distinct_iff_two_months :
    Always (TaskPool.step spelled fun _ => "")
      (fun s e => ∀ s', s.step spelled (fun _ => "") e = some s' → s'.NamesDistinct)
        (.init hospital)
      [newTask 1704412800000, newTask 1707091200000] :=
  (task_names_distinct_iff spelled (fun _ => "") hospital_reachable (by decide +kernel)
    [newTask 1704412800000, newTask 1707091200000]).mpr (by decide +kernel)

end ProjectEvaluation.Pages.ResearchForm
