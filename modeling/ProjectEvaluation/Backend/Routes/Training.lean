import ProjectEvaluation.Backend.Handlers

/-!
# `routes.py`: training courseware and learning records

The courseware handlers look roles up while the courseware is being built: each
lookup that the session cannot answer by itself flushes what is pending.

Results:
* `appendRoles_spec`: the role loop, for any invariant of its flushes.
* `createTrainingCourseware_cases`, `updateTrainingCourseware_cases`: the runs of
  the two handlers.
-/

namespace ProjectEvaluation.Backend

open Python Relational Transaction

/-! ## The role loop -/

/-- A key that is equal to an integer in Python. -/
def integerKey : Json → Option ℤ
  | .int n => some n
  | .bool b => some (if b then 1 else 0)
  | .float (.finite x) => if x.value.den = 1 then some x.value.num else none
  | _ => none

/-- The role of a key that the session holds already. -/
def inSession (held : List ℕ) (key : Json) : Option ℕ :=
  (integerKey key).bind fun n => held.find? fun r => (r : ℤ) = n

theorem inSession_mem {held : List ℕ} {key : Json} {r : ℕ} (h : inSession held key = some r) :
    r ∈ held := by
  obtain ⟨n, -, h⟩ := Option.bind_eq_some_iff.mp h
  exact List.mem_of_find?_eq_some h

/-- The loop over `data['training_targets']` (`routes.py`, lines 601–604 and 639–642):
    `role = Role.query.get(role_id)`, and `courseware.training_targets.append(role)` if there is
    one. `known` are the roles in the list at the last flush, `roles` those in it now; the session
    holds both. `save known roles` is what a flush writes. -/
def appendRoles (save : List ℕ → List ℕ → List Op) :
    List ℕ → List ℕ → List Json → Txn DB Op Exn (List ℕ × List ℕ)
  | known, roles, [] => pure (known, roles)
  | known, roles, j :: js => do
    let key ← ofResult (identity j)
    match inSession (known ++ roles) key with
    | some r => appendRoles save known (roles ++ [r]) js
    | none =>
      stageAll ((save known roles).map fun o => .ok (some o))
      match ← query applyOp (loadByKey .role key) with
      | some role => appendRoles save roles (roles ++ [role.id]) js
      | none => appendRoles save roles roles js

/-- Every number of a list is the id of a role. -/
def AllRoles (db : DB) (roles : List ℕ) : Prop := ∀ r ∈ roles, ∃ role ∈ db .role, role.id = r

theorem AllRoles.append {db : DB} {roles : List ℕ} (h : AllRoles db roles) {r : ℕ}
    (hr : ∃ role ∈ db .role, role.id = r) : AllRoles db (roles ++ [r]) := by
  intro q hq
  rcases List.mem_append.mp hq with hq | hq
  · exact h q hq
  · rw [List.mem_singleton.mp hq]; exact hr

/-- What a query with pending operations does. -/
theorem exec_query_pending {α : Type} (f : DB → Except Exn α) (db w : DB) (ops : List Op) :
    exec (query applyOp f) { committed := db, work := w, pending := ops } =
      match applyAll applyOp ops w with
      | .ok w' => (f w', { committed := db, work := w', pending := [] })
      | .error e => (.error e, { committed := db, work := db, pending := [] }) := by
  rw [query, exec_bind, exec_flush]
  cases applyAll applyOp ops w <;> rfl

/-- **One round of the role loop.** It looks among the roles it has, and then flushes what is saved
    and loads the role. -/
theorem exec_appendRoles_cons (save : List ℕ → List ℕ → List Op) (db w : DB)
    (known roles : List ℕ) (j : Json)
    (js : List Json) :
    exec (appendRoles save known roles (j :: js)) { committed := db, work := w, pending := [] } =
      match identity j with
      | .error e => (.error e, { committed := db, work := w, pending := [] })
      | .ok key =>
        match inSession (known ++ roles) key with
        | some r => exec (appendRoles save known (roles ++ [r]) js)
            { committed := db, work := w, pending := [] }
        | none =>
          match applyAll applyOp (save known roles) w with
          | .error e => (.error e, { committed := db, work := db, pending := [] })
          | .ok w' =>
            match loadByKey .role key w' with
            | .error e => (.error e, { committed := db, work := w', pending := [] })
            | .ok found =>
              exec (appendRoles save roles (roles ++ (found.map Row.id).toList) js)
                { committed := db, work := w', pending := [] } := by
  cases hkey : identity j with
  | error e => simp [appendRoles, exec_bind, hkey]
  | ok key =>
    cases hin : inSession (known ++ roles) key with
    | some r => simp [appendRoles, exec_bind, hkey, hin]
    | none =>
      have hstage :=
        exec_stageAll_ok (ε := Exn) (save known roles) { committed := db, work := w, pending := [] }
      cases hall : applyAll applyOp (save known roles) w with
      | error e => simp [appendRoles, exec_bind, hkey, hin, hstage, exec_query_pending, hall]
      | ok w' =>
        cases hload : loadByKey .role key w' with
        | error e =>
          simp [appendRoles, exec_bind, hkey, hin, hstage, exec_query_pending, hall, hload]
        | ok found =>
          cases found <;> simp [appendRoles, exec_bind, hkey, hin, hstage, exec_query_pending,
            hall, hload]

/-- **The role loop.** It commits nothing; an invariant of its flushes holds at its
    end, and it only appends ids of roles. -/
theorem appendRoles_spec (save : List ℕ → List ℕ → List Op) (db : DB)
    (inv : List ℕ → List ℕ → DB → Prop)
    (happend : ∀ known roles r w, inv known roles w → inv known (roles ++ [r]) w)
    (hflush : ∀ known roles w w', inv known roles w → AllRoles db roles →
      applyAll applyOp (save known roles) w = .ok w' → inv roles roles w' ∧ w' .role = db .role) :
    ∀ js known roles w, inv known roles w → AllRoles db known → AllRoles db roles →
      (∃ e s, exec (appendRoles save known roles js) { committed := db, work := w, pending := [] } =
        (.error e, s) ∧ s.committed = db) ∨
      (∃ known' roles' w', exec (appendRoles save known roles js)
        { committed := db, work := w, pending := [] } =
          (.ok (known', roles'), { committed := db, work := w', pending := [] }) ∧
        inv known' roles' w' ∧ AllRoles db roles') := by
  intro js
  induction js with
  | nil =>
    intro known roles w hinv _ hroles
    exact Or.inr ⟨known, roles, w, rfl, hinv, hroles⟩
  | cons j js ih =>
    intro known roles w hinv hknown hroles
    cases hkey : identity j with
    | error e =>
      simp only [exec_appendRoles_cons, hkey]
      exact Or.inl ⟨e, _, rfl, rfl⟩
    | ok key =>
      cases hin : inSession (known ++ roles) key with
      | some r =>
        have hr : ∃ role ∈ db .role, role.id = r := by
          rcases List.mem_append.mp (inSession_mem hin) with hmem | hmem
          · exact hknown r hmem
          · exact hroles r hmem
        simp only [exec_appendRoles_cons, hkey, hin]
        exact ih known (roles ++ [r]) w (happend _ _ r w hinv) hknown (hroles.append hr)
      | none =>
        cases hall : applyAll applyOp (save known roles) w with
        | error e =>
          simp only [exec_appendRoles_cons, hkey, hin, hall]
          exact Or.inl ⟨e, _, rfl, rfl⟩
        | ok w' =>
          obtain ⟨hinv', hrole⟩ := hflush known roles w w' hinv hroles hall
          cases hload : loadByKey .role key w' with
          | error e =>
            simp only [exec_appendRoles_cons, hkey, hin, hall, hload]
            exact Or.inl ⟨e, _, rfl, rfl⟩
          | ok found =>
            simp only [exec_appendRoles_cons, hkey, hin, hall, hload]
            cases found with
            | none =>
              rw [Option.map_none, Option.toList_none, List.append_nil]
              exact ih roles roles w' hinv' hroles hroles
            | some role =>
              have hmem : role ∈ db .role := by
                obtain ⟨v, -, hv⟩ := map_eq_ok.mp hload
                rw [← hrole]
                exact List.mem_of_find?_eq_some hv
              exact ih roles (roles ++ [role.id]) w' (happend _ _ _ w' hinv') hroles
                (hroles.append ⟨role, hmem, rfl⟩)

/-- One database is reached from another by changes of the role list of a
    courseware, all of them to ids of roles. -/
def Retargeted (k : Clock) (courseware : ℕ) (db w w' : DB) : Prop :=
  ∃ lists : List (List ℕ), (∀ roles ∈ lists, AllRoles db roles) ∧
    applyAll (setTargets k courseware) lists w = .ok w'

theorem Retargeted.refl (k : Clock) (courseware : ℕ) (db w : DB) : Retargeted k courseware db w w :=
  ⟨[], by simp, rfl⟩

theorem Retargeted.step {k : Clock} {courseware : ℕ} {db w w₁ w' : DB} {roles : List ℕ}
    (h : Retargeted k courseware db w w₁) (hroles : AllRoles db roles)
    (hset : setTargets k courseware roles w₁ = .ok w') : Retargeted k courseware db w w' := by
  obtain ⟨lists, hall, happly⟩ := h
  refine ⟨lists ++ [roles], ?_, ?_⟩
  · intro q hq
    rcases List.mem_append.mp hq with hq | hq
    · exact hall q hq
    · rw [List.mem_singleton.mp hq]; exact hroles
  · rw [applyAll_append, happly]
    exact (applyAll_singleton _ _ _).trans hset

/-- An invariant of the changes of role lists. -/
theorem Retargeted.preserves {k : Clock} {courseware : ℕ} {db w w' : DB} {P : DB → Prop}
    (h : Retargeted k courseware db w w')
    (hP : ∀ roles w w', AllRoles db roles → P w → setTargets k courseware roles w = .ok w' → P w')
    (hw : P w) : P w' := by
  obtain ⟨lists, hall, happly⟩ := h
  exact applyAll_preserves_mem _ (fun roles hmem w w' => hP roles w w' (hall roles hmem)) hw happly

theorem Retargeted.other {k : Clock} {courseware : ℕ} {db w w' : DB}
    (h : Retargeted k courseware db w w')
    {t : Table} (ht : t ≠ .trainingTargets) : w' t = w t :=
  h.preserves (P := fun w' => w' t = w t)
    (fun _ _ _ _ hw hset => (setTargets_other hset ht).trans hw) rfl

theorem Retargeted.rows {k : Clock} {courseware : ℕ} {db w w' : DB}
    (h : Retargeted k courseware db w w')
    {q : Record} (hq : q.cell .coursewareId ≠ .int courseware) :
    q ∈ w' .trainingTargets ↔ q ∈ w .trainingTargets :=
  h.preserves (P := fun w' => q ∈ w' .trainingTargets ↔ q ∈ w .trainingTargets)
    (fun _ _ _ _ hw hset => (setTargets_rows hset hq).trans hw) Iff.rfl

/-! ## Training courseware -/

/-- The attributes of a courseware the handlers answer with. -/
def coursewareFields : List Field :=
  [.id, .coursewareName, .attachment, .version, .author, .uploadDate, .courseDuration,
   .enabledStatus, .courseType]

/-- The answer of the courseware handlers (`routes.py`, lines 607–618 and 644–655); its role list is
    always empty. -/
def renderCourseware (courseware : Record) : Json :=
  .dict ((coursewareFields.map fun f => (f, shown courseware f)) ++ [(.trainingTargets, .list [])])

/-- What a flush writes of a new courseware: nothing before the first role joined
    its list, since only then the session holds it. -/
def saveNew (k : Clock) (id : ℕ) (attrs : List (Field × Attr)) (known roles : List ℕ) : List Op :=
  if roles = [] then []
  else (if known = [] then [.insert k .trainingCourseware attrs] else []) ++
    [.setTargets k id roles]

/-- What the last flush writes: `session.add` put the courseware in the session. -/
def saveLast (k : Clock) (id : ℕ) (attrs : List (Field × Attr)) (known roles : List ℕ) : List Op :=
  if roles = [] then [.insert k .trainingCourseware attrs] else saveNew k id attrs known roles

/-- The arguments of the constructor in `create_training_courseware` (`routes.py`, lines 590–598).
    -/
def coursewareSources : List Source :=
  [.item .coursewareName, .item .attachment, .item .version, .item .author,
   .get .courseDuration (.str "1h"), .get .enabledStatus (.int 1), .get .courseType .null]

/-- Commit, then answer with the courseware. -/
def commitCourseware (id status : ℕ) : Handler := do
  commit applyOp
  let row ← query applyOp (reload .trainingCourseware id)
  pure { status, body := renderCourseware row }

/-- The role list of a new courseware: what it was at the last flush, and is. -/
def newTargets (k : Clock) (id : ℕ) (attrs : List (Field × Attr)) (data : Json) :
    Txn DB Op Exn (List ℕ × List ℕ) :=
  if data.has .trainingTargets then do
    let items ← ofResult ((data.item .trainingTargets).bind Json.iter)
    appendRoles (saveNew k id attrs) [] [] items
  else pure ([], [])

/-- `POST /api/training-courseware` (`routes.py`, lines 587–618). -/
def createTrainingCourseware (k : Clock) (body : Body) : Handler := do
  let data ← ofResult body.getJson
  let attrs ← ofResult (construct data coursewareSources)
  let id ← query applyOp fun db => .ok (nextId (db .trainingCourseware))
  let (known, roles) ← newTargets k id attrs data
  stageAll ((saveLast k id attrs known roles).map fun o => .ok (some o))
  commitCourseware id 201

/-- The roles in the list of a courseware. -/
def rolesOf (courseware : ℕ) (db : DB) : List ℕ :=
  ((db .role).filter fun role => Value.int role.id ∈ targetsOf db courseware).map Row.id

/-- The role list part of `update_training_courseware` (`routes.py`, lines 635–642). Reading the
    list flushes the attributes; `clear()` empties it in the session only. -/
def replaceTargets (k : Clock) (id : ℕ) (data : Json) : Txn DB Op Exn Unit :=
  if data.has .trainingTargets then do
    let known ← query applyOp fun db => .ok (rolesOf id db)
    let items ← ofResult ((data.item .trainingTargets).bind Json.iter)
    let (_, roles) ← appendRoles (fun _ roles => [.setTargets k id roles]) known [] items
    stage (.setTargets k id roles)
  else pure ()

/-- The assignments of `update_training_courseware` (`routes.py`, lines 627–633). -/
def coursewareAssignments (data : Json) (courseware : Record) : List Assignment :=
  [.coursewareName, .attachment, .version, .author, .courseDuration, .enabledStatus,
    .courseType].map
    (keep data courseware)

/-- `PUT /api/training-courseware/<int:courseware_id>` (`routes.py`, lines 621–655). -/
def updateTrainingCourseware (k : Clock) (id : ℕ) (body : Body) : Handler := do
  match ← query applyOp (getById .trainingCourseware id) with
  | none => pure (refuse 404 "培训课件不存在")
  | some courseware =>
    let data ← ofResult body.getJson
    stageAll ((coursewareAssignments data courseware).map (Assignment.op .trainingCourseware id))
    replaceTargets k id data
    commitCourseware id 200

/-- `DELETE /api/training-courseware/<int:courseware_id>` (`routes.py`, lines 658–665). -/
def deleteTrainingCourseware : ℕ → Handler :=
  deleteHandler .trainingCourseware "培训课件不存在" "培训课件删除成功" fun _ _ => .ok []

theorem exec_commitCourseware (id status : ℕ) (db w : DB) (ops : List Op) :
    exec (commitCourseware id status) { committed := db, work := w, pending := ops } =
      match applyAll applyOp ops w with
      | .error e => (.error e, { committed := db, work := db, pending := [] })
      | .ok w' =>
        match reload .trainingCourseware id w' with
        | .error e => (.error e, { committed := w', work := w', pending := [] })
        | .ok row =>
          (.ok { status, body := renderCourseware row },
            { committed := w', work := w', pending := [] }) := by
  unfold commitCourseware
  cases hall : applyAll applyOp ops w with
  | error e => simp [exec_bind, exec_commit, hall]
  | ok w' =>
    cases hload : reload .trainingCourseware id w' <;>
      simp [exec_bind, exec_map, exec_commit, hall, exec_query_clean, hload]

/-- What the flushes of `create_training_courseware` keep: the courseware is not in
    the database yet, or it was inserted and its role list changed since. -/
def CoursewareSaved (k : Clock) (attrs : List (Field × Attr)) (db : DB)
    (known roles : List ℕ) (w : DB) :
    Prop :=
  (known = [] ∧ w = db) ∨
    (known ≠ [] ∧ roles ≠ [] ∧ ∃ w₀, insertRow k .trainingCourseware attrs db = .ok w₀ ∧
      Retargeted k (nextId (db .trainingCourseware)) db w₀ w)

theorem CoursewareSaved.flush {k : Clock} {attrs : List (Field × Attr)} {db : DB}
    {known roles : List ℕ}
    {w w' : DB} (h : CoursewareSaved k attrs db known roles w) (hne : roles ≠ [])
    (hroles : AllRoles db roles)
    (hall : applyAll applyOp (saveNew k (nextId (db .trainingCourseware)) attrs known roles) w =
      .ok w') :
    ∃ w₀, insertRow k .trainingCourseware attrs db = .ok w₀ ∧
      Retargeted k (nextId (db .trainingCourseware)) db w₀ w' := by
  rw [saveNew, if_neg hne] at hall
  rcases h with ⟨rfl, rfl⟩ | ⟨hknown, -, w₀, hins, hre⟩
  · rw [if_pos rfl, List.singleton_append, applyAll_cons, bind_eq_ok] at hall
    obtain ⟨w₀, hins, hset⟩ := hall
    rw [applyAll_singleton] at hset
    exact ⟨w₀, hins, (Retargeted.refl ..).step hroles hset⟩
  · rw [if_neg hknown, List.nil_append, applyAll_singleton] at hall
    exact ⟨w₀, hins, hre.step hroles hall⟩

theorem CoursewareSaved.last {k : Clock} {attrs : List (Field × Attr)} {db : DB}
    {known roles : List ℕ}
    {w w' : DB} (h : CoursewareSaved k attrs db known roles w) (hroles : AllRoles db roles)
    (hall : applyAll applyOp (saveLast k (nextId (db .trainingCourseware)) attrs known roles) w =
      .ok w') :
    ∃ w₀, insertRow k .trainingCourseware attrs db = .ok w₀ ∧
      Retargeted k (nextId (db .trainingCourseware)) db w₀ w' := by
  by_cases hne : roles = []
  · rw [saveLast, if_pos hne, applyAll_singleton] at hall
    rcases h with ⟨-, rfl⟩ | ⟨-, hr, -⟩
    · exact ⟨w', hall, Retargeted.refl ..⟩
    · exact absurd hne hr
  · rw [saveLast, if_neg hne] at hall
    exact h.flush hne hroles hall

theorem newTargets_spec (k : Clock) (attrs : List (Field × Attr)) (data : Json) (db : DB) :
    (∃ e s, exec (newTargets k (nextId (db .trainingCourseware)) attrs data)
        { committed := db, work := db, pending := [] } = (.error e, s) ∧ s.committed = db) ∨
      (∃ known roles w, exec (newTargets k (nextId (db .trainingCourseware)) attrs data)
          { committed := db, work := db, pending := [] } =
            (.ok (known, roles), { committed := db, work := w, pending := [] }) ∧
        CoursewareSaved k attrs db known roles w ∧ AllRoles db roles) := by
  have hstart : CoursewareSaved k attrs db [] [] db := Or.inl ⟨rfl, rfl⟩
  have hnone : AllRoles db [] := fun _ h => nomatch h
  unfold newTargets
  by_cases hhas : data.has .trainingTargets = true
  · simp only [if_pos hhas, exec_bind, exec_ofResult]
    cases hitems : (data.item .trainingTargets).bind Json.iter with
    | error e => exact Or.inl ⟨e, _, rfl, rfl⟩
    | ok items =>
      refine appendRoles_spec _ db
        (CoursewareSaved k attrs db) ?_ ?_ items [] [] db hstart hnone hnone
      · rintro known roles r w (h | ⟨hknown, hroles, h⟩)
        · exact Or.inl h
        · exact Or.inr ⟨hknown, by simp, h⟩
      · intro known roles w w' h hall happly
        by_cases hroles : roles = []
        · subst hroles
          rw [saveNew, if_pos rfl] at happly
          cases happly
          rcases h with ⟨-, rfl⟩ | ⟨-, hne, -⟩
          · exact ⟨Or.inl ⟨rfl, rfl⟩, rfl⟩
          · exact absurd rfl hne
        · obtain ⟨w₀, hins, hre⟩ := h.flush hroles hall happly
          refine ⟨Or.inr ⟨hroles, hroles, w₀, hins, hre⟩, ?_⟩
          rw [hre.other (by decide), insertRow_other hins (by decide)]
  · rw [if_neg hhas]
    exact Or.inr ⟨[], [], db, rfl, hstart, hnone⟩

/-- **The runs of `create_training_courseware`.** -/
theorem createTrainingCourseware_cases {k : Clock} {body : Body} {db : DB} {out : Response × DB}
    (hout : run (createTrainingCourseware k body) db = out) :
    Runs db out fun db' =>
      ∃ data attrs w, body = .json data ∧ construct data coursewareSources = .ok attrs ∧
        insertRow k .trainingCourseware attrs db = .ok w ∧
        Retargeted k (nextId (db .trainingCourseware)) db w db' := by
  have hfail : ∀ e s, exec (createTrainingCourseware k body) (Session.init db) = (.error e, s) →
      s.committed = db → ¬ out.1.Success ∧ out.2 = db := by
    intro e s hexec hs
    rw [run, serve_of_exec_error hexec] at hout
    subst hout
    exact ⟨uncaught_not_success e, hs⟩
  cases body with
  | malformed =>
    exact Or.inl (hfail .badRequest (Session.init db)
      (by simp [createTrainingCourseware, exec_bind, Body.getJson]) rfl)
  | json data =>
    cases hattrs : construct data coursewareSources with
    | error e =>
      exact Or.inl (hfail e (Session.init db)
        (by simp [createTrainingCourseware, exec_bind, Body.getJson, hattrs]) rfl)
    | ok attrs =>
      rcases newTargets_spec k attrs data db with
        ⟨e, s, hexec, hs⟩ | ⟨known, roles, w, hexec, hsaved, hroles⟩
      · refine Or.inl (hfail e s ?_ hs)
        have hexec' : exec (newTargets k (nextId (db .trainingCourseware)) attrs data)
            (Session.init db) =
          (.error e, s) := hexec
        simp [createTrainingCourseware, exec_bind, Body.getJson, hattrs, exec_query_init, hexec']
      · have hexec' : exec (newTargets k (nextId (db .trainingCourseware)) attrs data)
            (Session.init db) =
          (.ok (known, roles), { committed := db, work := w, pending := [] }) := hexec
        have hstage := exec_stageAll_ok (ε := Exn)
          (saveLast k (nextId (db .trainingCourseware)) attrs known roles)
          { committed := db, work := w, pending := [] }
        set ops := saveLast k (nextId (db .trainingCourseware)) attrs known roles with hops
        have hrun : exec (createTrainingCourseware k (.json data)) (Session.init db) =
            exec (commitCourseware (nextId (db .trainingCourseware)) 201)
              { committed := db, work := w, pending := ops } := by
          simp [createTrainingCourseware, exec_bind, Body.getJson, hattrs, exec_query_init, hexec',
            hstage, ← hops]
        rw [exec_commitCourseware] at hrun
        cases hlast : applyAll applyOp ops w with
        | error e =>
          rw [hlast] at hrun
          exact Or.inl (hfail e _ hrun rfl)
        | ok w' =>
          obtain ⟨w₀, hins, hre⟩ := hsaved.last hroles hlast
          have hload : reload .trainingCourseware (nextId (db .trainingCourseware)) w' =
              .ok (newRow k .trainingCourseware attrs db) := by
            rw [reload_congr (hre.other (by decide))]
            exact reload_newRow hins
          simp only [hlast, hload] at hrun
          rw [run, serve_of_exec_ok hrun] at hout
          subst hout
          exact Or.inr ⟨(by norm_num : 201 < 400), data, attrs, w₀, rfl, hattrs, hins, hre⟩

theorem rolesOf_allRoles (courseware : ℕ) (db : DB) : AllRoles db (rolesOf courseware db) := by
  intro r hr
  obtain ⟨role, hmem, rfl⟩ := List.mem_map.mp hr
  exact ⟨role, (List.mem_filter.mp hmem).1, rfl⟩

/-- Pending operations and a change of the role list at most are what
    `replaceTargets` leaves to the commit. -/
theorem replaceTargets_spec (k : Clock) (id : ℕ) (data : Json) {db : DB} {ops : List Op}
    (hother : ∀ w, applyAll applyOp ops db = .ok w → w .role = db .role) :
    (∃ e s, exec (replaceTargets k id data) { committed := db, work := db, pending := ops } =
        (.error e, s) ∧
        s.committed = db) ∨
      (data.has .trainingTargets = false ∧
        exec (replaceTargets k id data) { committed := db, work := db, pending := ops } =
          (.ok (), { committed := db, work := db, pending := ops })) ∨
      (∃ w w₁ roles, data.has .trainingTargets = true ∧ applyAll applyOp ops db = .ok w ∧
        Retargeted k id db w w₁ ∧ AllRoles db roles ∧
        exec (replaceTargets k id data) { committed := db, work := db, pending := ops } =
          (.ok (), { committed := db, work := w₁, pending := [.setTargets k id roles] })) := by
  unfold replaceTargets
  by_cases hhas : data.has .trainingTargets = true
  · rw [if_pos hhas]
    cases hall : applyAll applyOp ops db with
    | error e =>
      refine Or.inl ⟨e, { committed := db, work := db, pending := [] }, ?_, rfl⟩
      simp [exec_bind, exec_query_pending, hall]
    | ok w =>
      cases hitems : (data.item .trainingTargets).bind Json.iter with
      | error e =>
        refine Or.inl ⟨e, { committed := db, work := w, pending := [] }, ?_, rfl⟩
        simp [exec_bind, exec_query_pending, hall]
      | ok items =>
        have hrole := hother w hall
        have hknown : AllRoles db (rolesOf id w) := by
          have h := rolesOf_allRoles id w
          rw [AllRoles, hrole] at h
          exact h
        have hloop := appendRoles_spec (fun _ roles => [.setTargets k id roles]) db
          (fun _ _ w' => Retargeted k id db w w') (fun _ _ _ _ h => h)
          (fun known roles w₁ w₂ h hroles hset => by
            rw [applyAll_singleton] at hset
            have h' := h.step hroles hset
            exact ⟨h', (h'.other (by decide)).trans hrole⟩)
          items (rolesOf id w) [] w (Retargeted.refl ..) hknown (fun _ h => nomatch h)
        rcases hloop with ⟨e, s, hexec, hs⟩ | ⟨known', roles, w₁, hexec, hre, hroles⟩
        · refine Or.inl ⟨e, s, ?_, hs⟩
          simp [exec_bind, exec_query_pending, hall, hexec]
        · refine Or.inr (Or.inr ⟨w, w₁, roles, hhas, rfl, hre, hroles, ?_⟩)
          simp [exec_bind, exec_query_pending, hall, hexec]
  · rw [if_neg hhas]
    exact Or.inr (Or.inl ⟨by simpa using hhas, rfl⟩)

/-- **The runs of `update_training_courseware`.** -/
theorem updateTrainingCourseware_cases {k : Clock} {id : ℕ} {body : Body} {db : DB}
    {out : Response × DB}
    (hout : run (updateTrainingCourseware k id body) db = out) :
    Runs db out fun db' =>
      ∃ row data ops w, id < 2 ^ 63 ∧ find (db .trainingCourseware) id = some row ∧
        body = .json data ∧
        updateOps .trainingCourseware id (coursewareAssignments data row) = .ok ops ∧
        applyAll applyOp ops db = .ok w ∧ Retargeted k id db w db' ∧
        (data.has .trainingTargets = false → db' = w) := by
  have hfail : ∀ e s, exec (updateTrainingCourseware k id body) (Session.init db) = (.error e, s) →
      s.committed = db → ¬ out.1.Success ∧ out.2 = db := by
    intro e s hexec hs
    rw [run, serve_of_exec_error hexec] at hout
    subst hout
    exact ⟨uncaught_not_success e, hs⟩
  cases hget : getById .trainingCourseware id db with
  | error e =>
    exact Or.inl (hfail e (Session.init db)
      (by simp [updateTrainingCourseware, exec_bind, exec_query_init, hget]) rfl)
  | ok found =>
    cases found with
    | none =>
      have hexec : exec (updateTrainingCourseware k id body) (Session.init db) =
          (.ok (refuse 404 "培训课件不存在"), Session.init db) := by
        simp [updateTrainingCourseware, exec_bind, exec_query_init, hget]
      rw [run, serve_of_exec_ok hexec] at hout
      subst hout
      exact Or.inl ⟨refuse_not_success (by norm_num) _, rfl⟩
    | some row =>
      obtain ⟨hid, hfind⟩ := getById_eq_some.mp hget
      cases body with
      | malformed =>
        exact Or.inl (hfail .badRequest (Session.init db)
          (by simp [updateTrainingCourseware, exec_bind, exec_query_init, hget, Body.getJson]) rfl)
      | json data =>
        rcases exec_stageAll ((coursewareAssignments data row).map
          (Assignment.op .trainingCourseware id))
            (Session.init db) with ⟨e, p, hops, hstage⟩ | ⟨ops, hops, hstage⟩
        · exact Or.inl (hfail e { committed := db, work := db, pending := p }
            (by simp [updateTrainingCourseware, exec_bind, exec_query_init, hget, Body.getJson,
              hstage]) rfl)
        have hrun : exec (updateTrainingCourseware k id (.json data)) (Session.init db) =
            exec (replaceTargets k id data >>= fun _ => commitCourseware id 200)
              { committed := db, work := db, pending := ops } := by
          simp [updateTrainingCourseware, exec_bind, exec_query_init, hget, Body.getJson, hstage]
        have hother : ∀ w, applyAll applyOp ops db = .ok w → w .role = db .role :=
          fun w hw => (sameBut_updateOps hops hw).1 .role (by decide)
        have hload : ∀ w w', applyAll applyOp ops db = .ok w → Retargeted k id db w w' →
            ∃ row', reload .trainingCourseware id w' = .ok row' := by
          intro w w' hw hre
          obtain ⟨row', hrow'⟩ := find_isSome_of_ids ((sameBut_updateOps hops hw).ids _) hfind
          refine ⟨row', ?_⟩
          rw [reload_congr (hre.other (by decide)), reload, getById_eq_some.mpr ⟨hid, hrow'⟩]
          rfl
        rcases replaceTargets_spec k id data hother with
          ⟨e, s, hexec, hs⟩ | ⟨hhas, hexec⟩ | ⟨w, w₁, roles, hhas, hall, hre, hroles, hexec⟩
        · rw [exec_bind_error hexec] at hrun
          exact Or.inl (hfail e s hrun hs)
        · rw [exec_bind_ok hexec, exec_commitCourseware] at hrun
          cases hall : applyAll applyOp ops db with
          | error e => rw [hall] at hrun; exact Or.inl (hfail e _ hrun rfl)
          | ok w =>
            obtain ⟨row', hrow'⟩ := hload w w hall (Retargeted.refl ..)
            simp only [hall, hrow'] at hrun
            rw [run, serve_of_exec_ok hrun] at hout
            subst hout
            exact Or.inr ⟨(by norm_num : 200 < 400), row, data, ops, w, hid, hfind, rfl, hops, hall,
              Retargeted.refl .., fun _ => rfl⟩
        · rw [exec_bind_ok hexec, exec_commitCourseware, applyAll_singleton] at hrun
          cases hset : applyOp (.setTargets k id roles) w₁ with
          | error e => rw [hset] at hrun; exact Or.inl (hfail e _ hrun rfl)
          | ok w' =>
            have hre' := hre.step hroles hset
            obtain ⟨row', hrow'⟩ := hload w w' hall hre'
            simp only [hset, hrow'] at hrun
            rw [run, serve_of_exec_ok hrun] at hout
            subst hout
            exact Or.inr ⟨(by norm_num : 200 < 400), row, data, ops, w, hid, hfind, rfl, hops, hall,
              hre', fun hno => absurd (hhas.symm.trans hno) (by decide)⟩

/-! ## Learning records -/

/-- `datetime.strptime(j, '%H:%M').time()` (`routes.py`, lines 1046–1047). -/
def parseTime : Json → Except Exn Time
  | .str s => (strptimeTime s).elim (.error .valueError) .ok
  | _ => .error .typeError

/-- `datetime.strptime(j, '%Y-%m-%d').date()` (`routes.py`, lines 1080 and 1120). -/
def parseDay : Json → Except Exn Date
  | .str s => (strptimeDate s).elim (.error .valueError) .ok
  | _ => .error .typeError

/-- The duration of a time span (`routes.py`, lines 1050–1062). -/
def durationText (startTime endTime : Time) : String :=
  let minutes : ℤ :=
    (endTime.hour * 60 + endTime.minute : ℕ) - (startTime.hour * 60 + startTime.minute : ℕ)
  if 30 ≤ minutes ∧ minutes < 60 then "0.5h"
  else if 60 ≤ minutes ∧ minutes < 90 then "1h"
  else if 90 ≤ minutes ∧ minutes < 120 then "2h"
  else "0h"

/-- `calculate_learning_duration` (`routes.py`, lines 1044–1062). -/
def calculateLearningDuration (startTime endTime : Json) : Except Exn String := do
  let startTime ← parseTime startTime
  let endTime ← parseTime endTime
  return durationText startTime endTime

/-- `courseware.courseware_name if courseware else ''` (`routes.py`, lines 1073–1074 and 1113–1114).
    -/
def nameOfCourseware : Option Record → Attr
  | some courseware => .value (courseware.cell .coursewareName)
  | none => .json (.str "")

/-- The right-hand sides that both handlers of learning records evaluate one by one, after the
    duration and the name of the courseware (`routes.py`, lines 1076–1084 and 1117–1123). -/
def learningValues (data : Json) (db : DB) : Except Exn (List (Field × Except Exn Attr)) := do
  let duration ← calculateLearningDuration (← data.item .startTime) (← data.item .endTime)
  let courseware ← queryGet .trainingCourseware (← data.item .learningCourseware) db
  .ok
    [(.coursewareName, .ok (nameOfCourseware courseware)),
     (.learningCourseware, (data.item .learningCourseware).map .json),
     (.learningPerson, (data.item .learningPerson).map .json),
     (.learningDate, ((data.item .learningDate).bind parseDay).map fun d => .value (.date d)),
     (.startTime, ((data.item .startTime).bind parseTime).map fun t => .value (.time t)),
     (.endTime, ((data.item .endTime).bind parseTime).map fun t => .value (.time t)),
     (.learningDuration, .ok (.json (.str duration)))]

/-- Evaluate the arguments of a constructor in order. -/
def evaluateAll : List (Field × Except Exn Attr) → Except Exn (List (Field × Attr))
  | [] => .ok []
  | (f, x) :: values => x.bind fun a => (evaluateAll values).map ((f, a) :: ·)

/-- The assignments of `update_learning_record` (`routes.py`, lines 1117–1123). -/
def learningAssignments (data : Json) (db : DB) : Except Exn (List Assignment) :=
  (learningValues data db).map fun values => values.map fun v => (v.1, v.2.map some)

/-- `d.strftime('%Y-%m-%d')`. -/
def dayText : Value → Except Exn Json
  | .date d => .ok (.str d.isoformat)
  | _ => .error .attributeError

/-- `t.strftime('%H:%M')`. -/
def timeText : Value → Except Exn Json
  | .time t => .ok (.str t.strftime)
  | _ => .error .attributeError

/-- `None` where the value is, else `text` of it. -/
def unlessNone (text : Value → Except Exn Json) (v : Value) : Except Exn Json :=
  if v = .null then .ok .null else text v

/-- The object of a learning record (`routes.py`, lines 1013–1022 and 1030–1039); `day` and `clock`
    render dates and times. -/
def renderLearningRecord (day clock : Value → Except Exn Json) (record : Record) :
    Except Exn Json := do
  let date ← day (record.cell .learningDate)
  let startTime ← clock (record.cell .startTime)
  let endTime ← clock (record.cell .endTime)
  .ok <| .dict
    [(.id, shown record .id), (.coursewareName, shown record .coursewareName),
     (.learningCourseware, shown record .learningCourseware),
     (.learningPerson, shown record .learningPerson), (.learningDate, date),
     (.startTime, startTime), (.endTime, endTime),
     (.learningDuration, shown record .learningDuration)]

/-- `GET /api/learning-records/<int:record_id>` (`routes.py`, lines 1025–1039). -/
def getLearningRecord : ℕ → DB → Response :=
  getHandler .learningRecord "学习记录不存在" fun record _ =>
    renderLearningRecord (unlessNone dayText) (unlessNone timeText) record

/-- `POST /api/learning-records` (`routes.py`, lines 1065–1098). -/
def createLearningRecord (k : Clock) : Body → Handler :=
  createHandler k .learningRecord
    (fun data db => ((learningValues data db).bind evaluateAll).map .inr)
    (fun record _ => renderLearningRecord dayText timeText record)

/-- `PUT /api/learning-records/<int:record_id>` (`routes.py`, lines 1101–1136). -/
def updateLearningRecord : ℕ → Body → Handler :=
  updateHandler .learningRecord "学习记录不存在"
    (fun data _ db => (learningAssignments data db).map .inr)
    (fun record _ => renderLearningRecord dayText timeText record)

/-- `DELETE /api/learning-records/<int:record_id>` (`routes.py`, lines 1139–1147). -/
def deleteLearningRecord : ℕ → Handler :=
  deleteHandler .learningRecord "学习记录不存在" "学习记录删除成功" fun _ _ => .ok []

/-- What the handlers read for a learning record. -/
structure LearningInput where
  name : Attr
  courseware : Json
  person : Json
  day : Date
  startTime : Time
  endTime : Time

/-- The input a body stands for. -/
structure LearningInput.Reads (input : LearningInput) (data : Json) (db : DB) : Prop where
  name : (queryGet .trainingCourseware input.courseware db).map nameOfCourseware = .ok input.name
  courseware : data.item .learningCourseware = .ok input.courseware
  person : data.item .learningPerson = .ok input.person
  day : (data.item .learningDate).bind parseDay = .ok input.day
  startTime : (data.item .startTime).bind parseTime = .ok input.startTime
  endTime : (data.item .endTime).bind parseTime = .ok input.endTime

/-- The attributes of the learning record of an input. -/
def LearningInput.attrs (input : LearningInput) : List (Field × Attr) :=
  [(.coursewareName, input.name), (.learningCourseware, .json input.courseware),
   (.learningPerson, .json input.person), (.learningDate, .value (.date input.day)),
   (.startTime, .value (.time input.startTime)), (.endTime, .value (.time input.endTime)),
   (.learningDuration, .json (.str (durationText input.startTime input.endTime)))]

/-- The assignments of an input. -/
def LearningInput.assignments (input : LearningInput) : List Assignment :=
  input.attrs.map fun a => (a.1, .ok (some a.2))

theorem LearningInput.assignments_nodup (input : LearningInput) :
    (input.assignments.map Prod.fst).Nodup := by
  have hfields : input.assignments.map Prod.fst =
      [.coursewareName, .learningCourseware, .learningPerson,
    .learningDate, .startTime, .endTime, .learningDuration] := rfl
  rw [hfields]
  decide

/-- The right-hand sides, given the duration and the name of the courseware. -/
theorem learningValues_eq {data : Json} {db : DB} {values : List (Field × Except Exn Attr)}
    (h : learningValues data db = .ok values) :
    ∃ startTime endTime courseware name,
      (data.item .startTime).bind parseTime = .ok startTime ∧
      (data.item .endTime).bind parseTime = .ok endTime ∧
      data.item .learningCourseware = .ok courseware ∧
      (queryGet .trainingCourseware courseware db).map nameOfCourseware = .ok name ∧
      values =
        [(.coursewareName, .ok name), (.learningCourseware, .ok (.json courseware)),
         (.learningPerson, (data.item .learningPerson).map .json),
         (.learningDate, ((data.item .learningDate).bind parseDay).map fun d => .value (.date d)),
         (.startTime, .ok (.value (.time startTime))), (.endTime, .ok (.value (.time endTime))),
         (.learningDuration, .ok (.json (.str (durationText startTime endTime))))] := by
  unfold learningValues at h
  obtain ⟨s, hs, h⟩ := do_eq_ok.mp h
  obtain ⟨e, he, h⟩ := do_eq_ok.mp h
  obtain ⟨duration, hduration, h⟩ := do_eq_ok.mp h
  obtain ⟨courseware, hc, h⟩ := do_eq_ok.mp h
  obtain ⟨found, hfound, h⟩ := do_eq_ok.mp h
  unfold calculateLearningDuration at hduration
  obtain ⟨startTime, hstart, hduration⟩ := do_eq_ok.mp hduration
  obtain ⟨endTime, hend, hduration⟩ := do_eq_ok.mp hduration
  cases hduration
  have hstart' : (data.item .startTime).bind parseTime = .ok startTime := by rw [hs]; exact hstart
  have hend' : (data.item .endTime).bind parseTime = .ok endTime := by rw [he]; exact hend
  cases h
  refine ⟨startTime, endTime, courseware, nameOfCourseware found, hstart', hend', hc, ?_, ?_⟩
  · rw [hfound]; rfl
  · rw [hc, hstart', hend']; rfl

theorem learningAttrs_eq {data : Json} {db : DB} {attrs : List (Field × Attr)}
    (h : (learningValues data db).bind evaluateAll = .ok attrs) :
    ∃ input : LearningInput, input.Reads data db ∧ attrs = input.attrs := by
  obtain ⟨values, hvalues, h⟩ := bind_eq_ok.mp h
  obtain ⟨startTime, endTime, courseware, name, hstart, hend, hc, hname, rfl⟩ :=
    learningValues_eq hvalues
  simp only [evaluateAll, bind_eq_ok, map_eq_ok] at h
  obtain ⟨_, hn, _, ⟨_, hcw, _, ⟨_, ⟨person, hperson, rfl⟩, _, ⟨_, ⟨day, hday, rfl⟩, _, ⟨_, hs, _,
    ⟨_, he, _, ⟨_, hd, _, hnil, rfl⟩, rfl⟩, rfl⟩, rfl⟩, rfl⟩, rfl⟩, rfl⟩ := h
  cases hn; cases hcw; cases hs; cases he; cases hd; cases hnil
  exact ⟨⟨name, courseware, person, day, startTime, endTime⟩,
    ⟨hname, hc, hperson, bind_eq_ok.mpr hday, hstart, hend⟩, rfl⟩

/-- The assignments of an update that evaluates them all. -/
theorem learningAssignments_eq {data : Json} {db : DB} {assignments : List Assignment}
    (h : learningAssignments data db = .ok assignments)
    (heval : ∀ a ∈ assignments, ∃ x, a.2 = .ok x) :
    ∃ input : LearningInput, input.Reads data db ∧ assignments = input.assignments := by
  obtain ⟨values, hvalues, rfl⟩ := map_eq_ok.mp h
  obtain ⟨startTime, endTime, courseware, name, hstart, hend, hc, hname, rfl⟩ :=
    learningValues_eq hvalues
  obtain ⟨x, hx⟩ := heval _ (List.mem_of_getElem? (i := 2) rfl)
  obtain ⟨y, hy⟩ := heval _ (List.mem_of_getElem? (i := 3) rfl)
  obtain ⟨_, hperson, -⟩ := map_eq_ok.mp hx
  obtain ⟨person, hperson', rfl⟩ := map_eq_ok.mp hperson
  obtain ⟨_, hday, -⟩ := map_eq_ok.mp hy
  obtain ⟨day, hday', rfl⟩ := map_eq_ok.mp hday
  refine ⟨⟨name, courseware, person, day, startTime, endTime⟩,
    ⟨hname, hc, hperson', hday', hstart, hend⟩, ?_⟩
  rw [hperson', hday']
  rfl

/-- The assignments of a body that can be read. -/
theorem LearningInput.Reads.assignments {input : LearningInput} {data : Json} {db : DB}
    (h : input.Reads data db) : learningAssignments data db = .ok input.assignments := by
  obtain ⟨s, hs, hstart⟩ := bind_eq_ok.mp h.startTime
  obtain ⟨e, he, hend⟩ := bind_eq_ok.mp h.endTime
  obtain ⟨day, hd, hday⟩ := bind_eq_ok.mp h.day
  obtain ⟨found, hfound, hname⟩ := map_eq_ok.mp h.name
  simp [learningAssignments, learningValues, calculateLearningDuration, hs, he, hstart, hend,
    h.courseware, h.person, hfound, hd, hday, hname, bind, Except.bind, Except.map, pure,
    Except.pure, LearningInput.assignments, LearningInput.attrs]

end ProjectEvaluation.Backend
