import ProjectEvaluation.Lib.Machine
import ProjectEvaluation.Pages.Research

/-!
# The batches of the research page

The page of `Research.jsx` with its requests: the four loads, the selections of tasks,
and the DELETEs and POSTs of the batches they start. The server carries out a request some
time after it was sent, and the answer arrives some time after that.

Results:
* `one_research_per_system`: if a task has one vendor research at most for each system, it
  keeps so in every run where a batch is started only when the page knows the vendor
  researches it is to replace and no other batch of the task has POSTs left.
-/

namespace ProjectEvaluation.Pages

open Python Machine

/-! ## Runs of the page -/

/-- A batch on its way: DELETEs and POSTs that the server has yet to carry out, answers
    that have yet to arrive, and POSTs that wait for the answers of the DELETEs. -/
structure RunningBatch where
  task : String
  deletes : List ℕ
  deleted : ℕ
  waiting : List VendorData
  creates : List VendorData
  created : ℕ

/-- The lists of the server no request of the page changes. -/
structure ServerLists where
  tasks : List ResearchTask
  projects : List Project
  systems : List SystemEntry
  keys : (systems.map SystemEntry.id).Nodup

/-- The page and the server. -/
structure ResearchSession where
  page : ResearchPage
  server : VendorTable
  loadingTasks : Bool
  loadingProjects : Bool
  loadingSystems : Bool
  vendorRequests : ℕ
  vendorAnswers : List (List Vendor)
  batches : List RunningBatch

/-- What happens. -/
inductive ResearchEvent
  | tasksLoaded
  | projectsLoaded
  | systemsLoaded
  | vendorsRead
  | vendorsLoaded (i : ℕ)
  | select (task : ResearchTask)
  | delete (b i : ℕ)
  | deleted (b : ℕ)
  | create (b i : ℕ)
  | created (b : ℕ)

namespace ResearchSession

/-- The page after its first render, with its four requests. -/
def start (user : Option ℤ) (server : VendorTable) : ResearchSession where
  page := { tasks := [], projects := [], systems := [], vendorResearches := [], user }
  server
  loadingTasks := true
  loadingProjects := true
  loadingSystems := true
  vendorRequests := 1
  vendorAnswers := []
  batches := []

/-- No request is in flight. -/
def Quiet (s : ResearchSession) : Prop :=
  s.loadingTasks = false ∧ s.loadingProjects = false ∧ s.loadingSystems = false ∧
    s.vendorRequests = 0 ∧
    s.vendorAnswers = [] ∧ ∀ b ∈ s.batches, b.deletes = [] ∧ b.deleted = 0 ∧ b.waiting = [] ∧
      b.creates = [] ∧ b.created = 0

/-- A batch that was started; without DELETEs its POSTs are sent at once. -/
def launch (task : ResearchTask) (batch : ResearchPage.Batch) : RunningBatch where
  task := task.taskName
  deletes := batch.deletes
  deleted := 0
  waiting := if batch.deletes = [] then [] else batch.creates
  creates := if batch.deletes = [] then batch.creates else []
  created := 0

/-- The answer of a DELETE; the last of them lets the POSTs go. -/
def afterDeleted (batch : RunningBatch) : RunningBatch :=
  if batch.deletes = [] ∧ batch.deleted = 1 then
    { batch with deleted := 0, waiting := [], creates := batch.creates ++ batch.waiting }
  else { batch with deleted := batch.deleted - 1 }

/-- One event. -/
def step (today : Date) (now : Json) (lists : ServerLists) (s : ResearchSession) :
    ResearchEvent → Option ResearchSession
  | .tasksLoaded =>
    if s.loadingTasks then some
      { s with loadingTasks := false, page := { s.page with tasks := lists.tasks } } else none
  | .projectsLoaded =>
    if s.loadingProjects then
      some { s with loadingProjects := false, page := { s.page with projects := lists.projects } }
    else none
  | .systemsLoaded =>
    if s.loadingSystems then
      some { s with loadingSystems := false, page := { s.page with systems := lists.systems } }
    else none
  | .vendorsRead =>
    if 0 < s.vendorRequests then
      some { s with
        vendorRequests := s.vendorRequests - 1
        vendorAnswers := s.vendorAnswers ++ [s.server.rows] }
    else none
  | .vendorsLoaded i =>
    s.vendorAnswers[i]?.map fun vendors =>
      { s with
        page := { s.page with vendorResearches := vendors },
        vendorAnswers := s.vendorAnswers.eraseIdx i }
  | .select task =>
    if task ∈ s.page.tasks then
      some { s with
        batches := s.batches ++ ((s.page.handleTaskSelect now task).map (launch task)).toList }
    else none
  | .delete b i =>
    s.batches[b]?.bind fun batch => batch.deletes[i]?.map fun id =>
      { s with
        server := s.server.delete id
        batches := s.batches.set b
          { batch with deletes := batch.deletes.eraseIdx i, deleted := batch.deleted + 1 } }
  | .deleted b =>
    s.batches[b]?.bind fun batch =>
      if 0 < batch.deleted then some { s with batches := s.batches.set b (afterDeleted batch) }
        else none
  | .create b i =>
    s.batches[b]?.bind fun batch => batch.creates[i]?.map fun data =>
      { s with
        server := s.server.create today data
        batches := s.batches.set b
          { batch with creates := batch.creates.eraseIdx i, created := batch.created + 1 } }
  | .created b =>
    s.batches[b]?.bind fun batch =>
      if 0 < batch.created then
        some { s with
          batches := s.batches.set b { batch with created := batch.created - 1 }
          vendorRequests :=
            s.vendorRequests + if batch.creates = [] ∧ batch.created = 1 then 1 else 0 }
      else none

/-- A batch is started only when the page knows the vendor researches it is to replace,
    and no other batch of the task has POSTs left. -/
def InTime (now : Json) (s : ResearchSession) : ResearchEvent → Prop
  | .select task => ∀ batch ∈ s.page.handleTaskSelect now task,
    (∀ v ∈ s.server.rows, v.taskName = some task.taskName →
      (∃ system ∈ s.page.systems, v.systemId = some (system.id : ℤ)) → v.id ∈ batch.deletes) ∧
    ∀ b ∈ s.batches, b.task = task.taskName → b.waiting = [] ∧ b.creates = []
  | _ => True

instance (now : Json) (s : ResearchSession) (e : ResearchEvent) : Decidable (s.InTime now e) := by
  cases e <;> (unfold InTime; infer_instance)

end ResearchSession

/-! ## The invariant -/

/-- A task has one row at most for each system. -/
def AtMostOne (t : VendorTable) : Prop := ∀ task system, (t.forSystem task system).length ≤ 1

theorem atMostOne_iff {t : VendorTable} : AtMostOne t ↔
    ∀ v ∈ t.rows, ∀ w ∈ t.rows, ∀ task system, v.taskName = some task → w.taskName = some task →
      v.systemId = some system → w.systemId = some system → v = w := by
  constructor
  · intro h v hv w hw task system hvt hwt hvs hws
    have hmem : ∀ u ∈ t.rows, u.taskName = some task → u.systemId = some system →
        u ∈ t.forSystem task system :=
      fun u hu htask hsystem => VendorTable.mem_forSystem.mpr ⟨hu, htask, hsystem⟩
    have hle := h task system
    rcases hrows : t.forSystem task system with _ | ⟨u, _ | ⟨u', rest⟩⟩
    · have hv' := hmem v hv hvt hvs
      rw [hrows] at hv'
      cases hv'
    · have hv' := hmem v hv hvt hvs
      have hw' := hmem w hw hwt hws
      rw [hrows, List.mem_singleton] at hv' hw'
      rw [hv', hw']
    · rw [hrows] at hle
      simp at hle
  · intro h task system
    have hnodup : (t.forSystem task system).Nodup := (List.Nodup.of_map _ t.keys).filter _
    rcases hrows : t.forSystem task system with _ | ⟨v, _ | ⟨w, rest⟩⟩
    · simp
    · simp
    · exfalso
      have hv :=
        VendorTable.mem_forSystem.mp (hrows ▸ List.mem_cons_self : v ∈ t.forSystem task system)
      have hw := VendorTable.mem_forSystem.mp
        (hrows ▸ List.mem_cons_of_mem _ List.mem_cons_self : w ∈ t.forSystem task system)
      have hsame := h v hv.1 w hw.1 task system hv.2.1 hw.2.1 hv.2.2 hw.2.2
      rw [hrows, hsame] at hnodup
      simp at hnodup

namespace RunningBatch

/-- The POSTs the server has yet to carry out. -/
def pending (b : RunningBatch) : List VendorData := b.creates ++ b.waiting

/-- A batch whose POSTs will not double a row: they are for different systems, the rows
    they are to replace will be deleted first, and none is sent before. -/
structure Tidy (t : VendorTable) (b : RunningBatch) : Prop where
  task : ∀ data ∈ b.pending, data.taskName = b.task
  systems : (b.pending.map VendorData.systemId).Nodup
  replaced : ∀ v ∈ t.rows, v.taskName = some b.task → ∀ data ∈ b.pending,
    v.systemId = data.systemId → v.id ∈ b.deletes
  first : b.creates ≠ [] → b.deletes = []

end RunningBatch

/-- The invariant of the runs in time. -/
structure ResearchSession.Tidy (s : ResearchSession) : Prop where
  once : AtMostOne s.server
  systems : (s.page.systems.map SystemEntry.id).Nodup
  batches : ∀ b ∈ s.batches, b.Tidy s.server
  single : ∀ (i j : ℕ) (b b' : RunningBatch), s.batches[i]? = some b → s.batches[j]? = some b' →
    b.task = b'.task →
    b.pending ≠ [] → b'.pending ≠ [] → i = j

theorem RunningBatch.Tidy.mono {t t' : VendorTable} {b : RunningBatch} (h : b.Tidy t)
    (hrows : ∀ v ∈ t'.rows, v ∈ t.rows) : b.Tidy t' where
  task := h.task
  systems := h.systems
  replaced := fun v hv => h.replaced v (hrows v hv)
  first := h.first

theorem AtMostOne.mono {t t' : VendorTable} (h : AtMostOne t) (hrows : ∀ v ∈ t'.rows, v ∈ t.rows) :
    AtMostOne t' := by
  rw [atMostOne_iff] at h ⊢
  exact fun v hv w hw => h v (hrows v hv) w (hrows w hw)

namespace ResearchSession.Tidy

variable {s : ResearchSession}

/-- One batch is replaced by what it becomes. -/
theorem setBatch (h : s.Tidy) {i : ℕ} {batch batch' : RunningBatch}
    (hbatch : s.batches[i]? = some batch)
    {server : VendorTable} {requests : ℕ} (honce : AtMostOne server)
    (htask : batch'.task = batch.task)
    (hpending : batch'.pending ≠ [] → batch.pending ≠ []) (htidy : batch'.Tidy server)
    (hothers : ∀ j b, j ≠ i → s.batches[j]? = some b → b.Tidy server) :
    Tidy { s with server, vendorRequests := requests, batches := s.batches.set i batch' } := by
  have hindex : ∀ j b, (s.batches.set i batch')[j]? = some b → (j = i ∧ b = batch') ∨
      (j ≠ i ∧ s.batches[j]? = some b) := by
    intro j b hb
    by_cases hj : i = j
    · subst hj
      have hlt := (List.getElem?_eq_some_iff.mp hbatch).1
      rw [List.getElem?_set_self hlt] at hb
      exact Or.inl ⟨rfl, (Option.some.inj hb).symm⟩
    · rw [List.getElem?_set_ne hj] at hb
      exact Or.inr ⟨Ne.symm hj, hb⟩
  refine ⟨honce, h.systems, fun b hb => ?_, fun j k b b' hj hk hsame hopen hopen' => ?_⟩
  · obtain ⟨j, hj⟩ := List.mem_iff_getElem?.mp hb
    rcases hindex j b hj with ⟨-, rfl⟩ | ⟨hne, hold⟩
    · exact htidy
    · exact hothers j b hne hold
  · rcases hindex j b hj with ⟨rfl, rfl⟩ | ⟨hj', hold⟩ <;>
      rcases hindex k b' hk with ⟨rfl, rfl⟩ | ⟨hk', hold'⟩
    · rfl
    · exact h.single _ _ batch b' hbatch hold' (htask.symm.trans hsame) (hpending hopen) hopen'
    · exact h.single _ _ b batch hold hbatch (hsame.trans htask) hopen (hpending hopen')
    · exact h.single _ _ b b' hold hold' hsame hopen hopen'

/-- The page changes, but not the server or a batch. -/
theorem setPage (h : s.Tidy) {s' : ResearchSession} (hserver : s'.server = s.server)
    (hbatches : s'.batches = s.batches)
    (hsystems : (s'.page.systems.map SystemEntry.id).Nodup) : s'.Tidy := by
  refine ⟨?_, hsystems, ?_, ?_⟩
  · rw [hserver]
    exact h.once
  · rw [hserver, hbatches]
    exact h.batches
  · rw [hbatches]
    exact h.single

/-- **A batch that is started in time.** -/
theorem select (h : s.Tidy) {now : Json} {task : ResearchTask} {batch : ResearchPage.Batch}
    (hbatch : s.page.handleTaskSelect now task = some batch) (htime : s.InTime now (.select task)) :
    Tidy { s with batches := s.batches ++ [launch task batch] } := by
  obtain ⟨hknown, hothers⟩ := htime batch hbatch
  have hcreates : batch.creates = s.page.vendorResearchData now task := by
    rw [ResearchPage.handleTaskSelect_eq] at hbatch
    split_ifs at hbatch
    cases hbatch
    rfl
  have hpending : (launch task batch).pending = batch.creates := by
    unfold RunningBatch.pending launch
    split_ifs
    · exact List.append_nil _
    · rfl
  have hindex : ∀ (j : ℕ) b, (s.batches ++ [launch task batch])[j]? = some b →
      s.batches[j]? = some b ∨ (j = s.batches.length ∧ b = launch task batch) := by
    intro j b hb
    rw [List.getElem?_append] at hb
    split_ifs at hb with hlt
    · exact Or.inl hb
    · obtain ⟨hone, hsame⟩ := List.getElem?_eq_some_iff.mp hb
      rw [List.length_singleton] at hone
      have hj : j = s.batches.length := by omega
      subst hj
      exact Or.inr ⟨rfl, by simpa using hsame.symm⟩
  have hclosed : ∀ b ∈ s.batches, b.task = task.taskName → b.pending = [] := by
    intro b hb hsame
    obtain ⟨hwaiting, hsent⟩ := hothers b hb hsame
    rw [RunningBatch.pending, hwaiting, hsent]
    rfl
  refine ⟨h.once, h.systems, fun b hb => ?_, fun i j b b' hi hj hsame hopen hopen' => ?_⟩
  · rcases List.mem_append.mp hb with hb | hb
    · exact h.batches b hb
    rw [List.mem_singleton.mp hb]
    refine ⟨?_, ?_, ?_, ?_⟩
    · intro data hdata
      rw [hpending, hcreates] at hdata
      obtain ⟨system, -, rfl⟩ := List.mem_map.mp hdata
      rfl
    · rw [hpending, hcreates, ResearchPage.vendorResearchData, List.map_map]
      have hids : s.page.systems.map (VendorData.systemId ∘ s.page.vendorData now task) =
          (s.page.systems.map SystemEntry.id).map fun (id : ℕ) => (some (id : ℤ) : Option ℤ) := by
        rw [List.map_map]
        rfl
      rw [hids]
      exact h.systems.map fun a b hab => by simpa using hab
    · intro v hv htask data hdata hsystem
      rw [hpending, hcreates] at hdata
      obtain ⟨system, hmem, rfl⟩ := List.mem_map.mp hdata
      exact hknown v hv htask ⟨system, hmem, hsystem⟩
    · unfold launch
      split_ifs with hnone
      · exact fun _ => hnone
      · exact fun hne => absurd rfl hne
  · rcases hindex i b hi with hold | ⟨rfl, rfl⟩ <;> rcases hindex j b' hj with hold' | ⟨rfl, rfl⟩
    · exact h.single i j b b' hold hold' hsame hopen hopen'
    · exact absurd (hclosed b (List.mem_of_getElem? hold) hsame) hopen
    · exact absurd (hclosed b' (List.mem_of_getElem? hold') hsame.symm) hopen'
    · rfl

/-- A DELETE that is carried out. -/
theorem delete (h : s.Tidy) {b i id : ℕ} {batch : RunningBatch}
    (hbatch : s.batches[b]? = some batch)
    (hid : batch.deletes[i]? = some id) :
    Tidy { s with
      server := s.server.delete id
      batches := s.batches.set b
        { batch with deletes := batch.deletes.eraseIdx i, deleted := batch.deleted + 1 } } := by
  have hrows : ∀ v ∈ (s.server.delete id).rows, v ∈ s.server.rows :=
    fun v hv => (VendorTable.mem_delete.mp hv).1
  have hbatches := h.batches batch (List.mem_of_getElem? hbatch)
  refine h.setBatch hbatch (h.once.mono hrows) rfl (fun hopen => hopen) ?_ fun j b' _ hb' =>
    (h.batches b' (List.mem_of_getElem? hb')).mono hrows
  refine ⟨hbatches.task, hbatches.systems, fun v hv htask data hdata hsystem => ?_, fun hopen => ?_⟩
  · obtain ⟨hv, hne⟩ := VendorTable.mem_delete.mp hv
    exact mem_eraseIdx_of_ne (hbatches.replaced v hv htask data hdata hsystem) hid hne
  · have hnone := hbatches.first hopen
    rw [hnone] at hid
    cases hid

/-- A POST that is carried out. -/
theorem create (h : s.Tidy) {today : Date} {b i : ℕ} {batch : RunningBatch} {data : VendorData}
    (hbatch : s.batches[b]? = some batch) (hdata : batch.creates[i]? = some data) :
    Tidy { s with
      server := s.server.create today data
      batches := s.batches.set b
        { batch with creates := batch.creates.eraseIdx i, created := batch.created + 1 } } := by
  have hbatches := h.batches batch (List.mem_of_getElem? hbatch)
  have hcreate : data ∈ batch.creates := List.mem_of_getElem? hdata
  have hpending : data ∈ batch.pending := List.mem_append_left _ hcreate
  have hsent : batch.deletes = [] := hbatches.first (List.ne_nil_of_mem hcreate)
  -- no row of the task is left for the system
  have hfree : ∀ v ∈ s.server.rows, v.taskName = some data.taskName →
      v.systemId ≠ data.systemId := by
    intro v hv htask hsystem
    rw [hbatches.task data hpending] at htask
    have hmem := hbatches.replaced v hv htask data hpending hsystem
    rw [hsent] at hmem
    cases hmem
  have hsub : ∀ d ∈ batch.creates.eraseIdx i ++ batch.waiting, d ∈ batch.pending := by
    intro d hd
    rcases List.mem_append.mp hd with hd | hd
    · exact List.mem_append_left _ ((List.eraseIdx_sublist _ _).subset hd)
    · exact List.mem_append_right _ hd
  refine h.setBatch hbatch ?_ rfl (fun _ => List.ne_nil_of_mem hpending) ?_ fun j b' hne hb' => ?_
  · rw [atMostOne_iff]
    have honce := atMostOne_iff.mp h.once
    intro v hv w hw task system hvt hwt hvs hws
    rcases VendorTable.mem_create.mp hv with hv | rfl <;>
      rcases VendorTable.mem_create.mp hw with hw | rfl
    · exact honce v hv w hw task system hvt hwt hvs hws
    · exact absurd (hvs.trans hws.symm) (hfree v hv (hvt.trans hwt.symm))
    · exact absurd (hws.trans hvs.symm) (hfree w hw (hwt.trans hvt.symm))
    · rfl
  · have hperm : (data :: (batch.creates.eraseIdx i ++ batch.waiting)).Perm batch.pending := by
      obtain ⟨hlt, rfl⟩ := List.getElem?_eq_some_iff.mp hdata
      exact (List.getElem_cons_eraseIdx_perm hlt).append_right _
    have hnodup := (hperm.map VendorData.systemId).nodup_iff.mpr hbatches.systems
    rw [List.map_cons, List.nodup_cons] at hnodup
    refine ⟨fun d hd => hbatches.task d (hsub d hd), hnodup.2, fun v hv htask d hd hsystem => ?_,
      fun _ => hsent⟩
    rcases VendorTable.mem_create.mp hv with hv | rfl
    · exact hbatches.replaced v hv htask d (hsub d hd) hsystem
    · exact absurd (List.mem_map.mpr ⟨d, hd, hsystem.symm⟩) hnodup.1
  · have hother := h.batches b' (List.mem_of_getElem? hb')
    refine ⟨hother.task, hother.systems, fun v hv htask d hd hsystem => ?_, hother.first⟩
    rcases VendorTable.mem_create.mp hv with hv | rfl
    · exact hother.replaced v hv htask d hd hsystem
    · have hsame : b'.task = batch.task := by
        rw [← hbatches.task data hpending]
        exact (Option.some.inj htask).symm
      have hindex :=
        h.single j b b' batch hb' hbatch hsame (List.ne_nil_of_mem hd) (List.ne_nil_of_mem hpending)
      exact absurd hindex hne

/-- An answer of a DELETE. -/
theorem deleted (h : s.Tidy) {b : ℕ} {batch : RunningBatch} (hbatch : s.batches[b]? = some batch) :
    Tidy { s with batches := s.batches.set b (afterDeleted batch) } := by
  have hbatches := h.batches batch (List.mem_of_getElem? hbatch)
  have hothers : ∀ j b', j ≠ b → s.batches[j]? = some b' → b'.Tidy s.server :=
    fun j b' _ hb' => h.batches b' (List.mem_of_getElem? hb')
  unfold afterDeleted
  split_ifs with hlast
  · have hpending : (batch.creates ++ batch.waiting) ++ [] = batch.pending := List.append_nil _
    refine h.setBatch hbatch h.once rfl
      (fun hopen => by rwa [RunningBatch.pending, hpending] at hopen) ?_ hothers
    refine ⟨?_, ?_, ?_, fun _ => hlast.1⟩
    · rw [RunningBatch.pending, hpending]
      exact hbatches.task
    · rw [RunningBatch.pending, hpending]
      exact hbatches.systems
    · rw [RunningBatch.pending, hpending]
      exact hbatches.replaced
  · exact h.setBatch hbatch h.once rfl (fun hopen => hopen)
      ⟨hbatches.task, hbatches.systems, hbatches.replaced, hbatches.first⟩ hothers

/-- **One event** in time keeps the invariant. -/
theorem step (h : s.Tidy) {today : Date} {now : Json} {lists : ServerLists} {e : ResearchEvent}
    {s' : ResearchSession}
    (htime : s.InTime now e) (hstep : s.step today now lists e = some s') : s'.Tidy := by
  cases e with
  | tasksLoaded =>
    simp only [ResearchSession.step] at hstep
    split_ifs at hstep
    cases hstep
    exact h.setPage rfl rfl h.systems
  | projectsLoaded =>
    simp only [ResearchSession.step] at hstep
    split_ifs at hstep
    cases hstep
    exact h.setPage rfl rfl h.systems
  | systemsLoaded =>
    simp only [ResearchSession.step] at hstep
    split_ifs at hstep
    cases hstep
    exact h.setPage rfl rfl lists.keys
  | vendorsRead =>
    simp only [ResearchSession.step] at hstep
    split_ifs at hstep
    cases hstep
    exact h.setPage rfl rfl h.systems
  | vendorsLoaded i =>
    obtain ⟨vendors, -, rfl⟩ := Option.map_eq_some_iff.mp hstep
    exact h.setPage rfl rfl h.systems
  | select task =>
    simp only [ResearchSession.step] at hstep
    split_ifs at hstep
    cases hstep
    cases hbatch : s.page.handleTaskSelect now task with
    | none =>
      rw [Option.map_none, Option.toList_none, List.append_nil]
      exact h
    | some batch => exact h.select hbatch htime
  | delete b i =>
    obtain ⟨batch, hbatch, hstep⟩ := Option.bind_eq_some_iff.mp hstep
    obtain ⟨id, hid, rfl⟩ := Option.map_eq_some_iff.mp hstep
    exact h.delete hbatch hid
  | deleted b =>
    obtain ⟨batch, hbatch, hstep⟩ := Option.bind_eq_some_iff.mp hstep
    split_ifs at hstep
    cases hstep
    exact h.deleted hbatch
  | create b i =>
    obtain ⟨batch, hbatch, hstep⟩ := Option.bind_eq_some_iff.mp hstep
    obtain ⟨data, hdata, rfl⟩ := Option.map_eq_some_iff.mp hstep
    exact h.create hbatch hdata
  | created b =>
    obtain ⟨batch, hbatch, hstep⟩ := Option.bind_eq_some_iff.mp hstep
    by_cases hpos : 0 < batch.created
    · rw [if_pos hpos] at hstep
      cases hstep
      have hbatches := h.batches batch (List.mem_of_getElem? hbatch)
      exact h.setBatch hbatch h.once rfl (fun hopen => hopen)
        ⟨hbatches.task, hbatches.systems, hbatches.replaced, hbatches.first⟩
        fun j b' _ hb' => h.batches b' (List.mem_of_getElem? hb')
    · rw [if_neg hpos] at hstep
      cases hstep

end ResearchSession.Tidy

/-! ## Runs in time -/

theorem tidy_start (user : Option ℤ) {server : VendorTable} (h : AtMostOne server) :
    (ResearchSession.start user server).Tidy :=
  ⟨h, List.nodup_nil, fun b hb => (nomatch hb),
    fun i j b b' hb => by simp [ResearchSession.start] at hb⟩

/-- **One vendor research for each system.** From a server with one at most for each task
    and system, in every run whose batches are started in time, there is one at most in
    every state, whatever the order of the loads, the requests and the answers; so too when
    no request is in flight. -/
theorem one_research_per_system (today : Date) (now : Json) (lists : ServerLists) (user : Option ℤ)
    (server : VendorTable) (honce : AtMostOne server) (es : List ResearchEvent)
    (s : ResearchSession)
    (hexec : exec (ResearchSession.step today now lists) (.start user server) es = some s)
    (htime : Always (ResearchSession.step today now lists) (ResearchSession.InTime now)
      (.start user server) es)
    (task : String) (system : ℤ) : (s.server.forSystem task system).length ≤ 1 :=
  (htime.invariant (I := ResearchSession.Tidy) (fun _ _ _ h hgood hstep => h.step hgood hstep)
    (tidy_start user honce)
    hexec).once task system

/-- A server with one task, one system and one vendor research. -/
def oneSystem : ServerLists := ⟨[⟨"任务", 1⟩], [⟨1, "项目"⟩], [⟨1, "HIS"⟩], by decide⟩

theorem selectedDay_isDate : IsDate 2026 2 1 := by decide

def oneVendor : VendorTable :=
  ⟨[⟨1, ⟨2026, 2, 1, selectedDay_isDate⟩, 1, 1, some "任务", some 1, "东软", some ""⟩], by decide⟩

/-- The task is selected before the vendor researches are loaded. -/
def earlySelection : List ResearchEvent :=
  [.tasksLoaded, .systemsLoaded, .select ⟨"任务", 1⟩, .create 0 0, .created 0, .projectsLoaded,
   .vendorsRead, .vendorsRead, .vendorsLoaded 0, .vendorsLoaded 0]

/-- The system then has two vendor researches. -/
theorem early_selection_doubles :
    ∃ s, exec (ResearchSession.step ⟨2026, 2, 2, by decide⟩ .null oneSystem)
        (.start (some 1) oneVendor) earlySelection =
        some s ∧ s.Quiet ∧ (oneVendor.forSystem "任务" 1).length = 1 ∧
          (s.server.forSystem "任务" 1).length = 2 := by
  refine ⟨_, rfl, ⟨rfl, rfl, rfl, rfl, rfl, fun b hb => ?_⟩, by decide, by decide⟩
  rw [List.mem_singleton.mp hb]
  exact ⟨rfl, rfl, rfl, rfl, rfl⟩

/-- The task is selected when everything is loaded and nothing was made yet. -/
def calmSelection : List ResearchEvent :=
  [.vendorsRead, .tasksLoaded, .systemsLoaded, .projectsLoaded, .vendorsLoaded 0, .select ⟨"任务", 1⟩,
   .create 0 0, .created 0, .vendorsRead, .vendorsLoaded 0]

/-- The system then has one vendor research. -/
theorem calm_selection_once :
    ∃ s, exec (ResearchSession.step ⟨2026, 2, 2, by decide⟩ .null oneSystem)
      (.start (some 1) ⟨[], by decide⟩)
        calmSelection = some s ∧ (s.server.forSystem "任务" 1).length ≤ 1 := by
  obtain ⟨s, hs⟩ : ∃ s, exec (ResearchSession.step ⟨2026, 2, 2, by decide⟩ .null oneSystem)
      (.start (some 1) ⟨[], by decide⟩) calmSelection = some s := ⟨_, rfl⟩
  exact ⟨s, hs, one_research_per_system ⟨2026, 2, 2, by decide⟩ .null oneSystem (some 1)
    ⟨[], by decide⟩
    (fun _ _ => Nat.zero_le 1) calmSelection s hs (by decide) "任务" 1⟩

end ProjectEvaluation.Pages
