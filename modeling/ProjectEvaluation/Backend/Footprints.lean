import ProjectEvaluation.Backend.Requests
import ProjectEvaluation.Lib.Lockstep

/-!
# The tables a request uses

Every handler keeps to some tables: what it answers and what it writes depend on the tables
it uses, and it writes some of these only.

Results:
* `applyOp_near`: an operation that keeps to the tables does the same to two databases that
  agree on them.
* `handler_keepsTo`: so does every write handler.
-/

namespace ProjectEvaluation.Backend

open Python Relational Transaction

/-! ## Databases that agree on some tables -/

/-- Two databases agree on the tables in use; outside the tables that are written they are as
    two given ones. -/
structure Near (uses writes : List Table) (d d' w w' : DB) : Prop where
  agree : ∀ t ∈ uses, w t = w' t
  left : ∀ t ∉ writes, w t = d t
  right : ∀ t ∉ writes, w' t = d' t

theorem Near.start {uses writes : List Table} {d d' : DB} (h : ∀ t ∈ uses, d t = d' t) :
    Near uses writes d d' d d' :=
  ⟨h, fun _ _ => rfl, fun _ _ => rfl⟩

/-- The same rows are put into a table that may be written. -/
theorem Near.update {uses writes : List Table} {d d' w w' : DB}
    (h : Near uses writes d d' w w') {t : Table}
    (ht : t ∈ writes) {rows rows' : List Record} (hrows : rows = rows') :
    Near uses writes d d' (Function.update w t rows) (Function.update w' t rows') := by
  subst hrows
  refine ⟨fun t' ht' => ?_, fun t' ht' => ?_, fun t' ht' => ?_⟩
  · by_cases hsame : t' = t
    · rw [hsame, Function.update_self, Function.update_self]
    · rw [Function.update_of_ne hsame, Function.update_of_ne hsame]
      exact h.agree t' ht'
  · rw [Function.update_of_ne (ne_of_mem_of_not_mem ht ht').symm]
    exact h.left t' ht'
  · rw [Function.update_of_ne (ne_of_mem_of_not_mem ht ht').symm]
    exact h.right t' ht'

/-! ## Queries on one table -/

theorem getById_congr {t : Table} {db db' : DB} (h : db t = db' t) (id : ℕ) :
    getById t id db = getById t id db' := by
  unfold getById
  rw [h]

theorem related_congr {t : Table} {db db' : DB} (h : db t = db' t) (v : Value) :
    related t v db = related t v db' := by
  unfold related
  rw [h]

theorem relatedName_congr {t : Table} {db db' : DB} (h : db t = db' t) (v : Value) (f : Field)
    (default : Json) :
    relatedName t v f default db = relatedName t v f default db' := by
  unfold relatedName
  rw [related_congr h]

theorem filterBy_congr {t : Table} {db db' : DB} (h : db t = db' t) (f : Field) (j : Json) :
    filterBy t f j db = filterBy t f j db' := by
  unfold filterBy
  rw [h]

theorem exists_congr_db {t : Table} {db db' : DB} (h : db t = db' t) (f : Field) (j : Json) :
    exists? t f j db = exists? t f j db' := by
  unfold exists?
  rw [filterBy_congr h]

theorem loadByKey_congr {t : Table} {db db' : DB} (h : db t = db' t) (key : Json) :
    loadByKey t key db = loadByKey t key db' := by
  unfold loadByKey
  simp only [related_congr h]

theorem taken_congr {t : Table} {db db' : DB} (h : db t = db' t) (f : Field) (data : Json) :
    taken t f data db = taken t f data db' := by
  unfold taken
  simp only [exists_congr_db h]

theorem takenByOther_congr {t : Table} {db db' : DB} (h : db t = db' t) (f : Field) (data : Json)
    (row : Record) :
    takenByOther t f data row db = takenByOther t f data row db' := by
  unfold takenByOther
  simp only [exists_congr_db h]

theorem targetsOf_congr {db db' : DB} (h : db .trainingTargets = db' .trainingTargets)
    (courseware : ℕ) :
    targetsOf db courseware = targetsOf db' courseware := by
  unfold targetsOf
  rw [h]

/-! ## Operations -/

/-- The tables with a foreign key to a table. -/
def Table.referring (t : Table) : List Table :=
  (Backend.foreignKeys.filter fun ref => ref.target = t).map Reference.table

/-- An operation keeps to the tables. -/
def Op.Within (uses writes : List Table) : Op → Prop
  | .insert _ t _ => t ∈ writes
  | .assign t _ _ _ => t ∈ writes
  | .delete t _ => t ∈ writes ∧ ∀ t' ∈ t.referring, t' ∈ writes
  | .deleteWhere t _ _ => t ∈ writes
  | .setTargets _ _ _ => .trainingTargets ∈ writes ∧ .role ∈ uses

theorem mem_referring {ref : Reference Table Field} (h : ref ∈ foreignKeys) :
    ref.table ∈ ref.target.referring :=
  List.mem_map_of_mem (List.mem_filter.mpr ⟨h, by simp⟩)

/-- A table without a foreign key to the table of a deleted row loses that row, if it is its own,
    and nothing else. -/
theorem erase_apart {db : DB} {t t' : Table} (id : ℕ) (href : t' ∉ t.referring) :
    erase schema db t id t' = (db t').filter fun r => ¬ (t' = t ∧ r.id = id) := by
  have hno : ∀ ref ∈ schema.references, ref.table = t' → ref.target ≠ t := by
    rintro ref hmem rfl rfl
    exact href (mem_referring hmem)
  have hremoved : ∀ r, Removed schema t id t' r ↔ t' = t ∧ r.id = id := by
    intro r
    refine ⟨fun h => ?_, Or.inl⟩
    rcases h with h | ⟨ref, hmem, htable, htarget, -⟩
    · exact h
    · exact absurd htarget (hno ref hmem htable)
  have hdetach : ∀ r, detach schema t id t' r = r := by
    intro r
    have hcell : (fun f => if Nullified schema t id t' r f then schema.null else r.cell f) =
        r.cell := by
      funext f
      refine if_neg ?_
      rintro ⟨ref, hmem, htable, -, htarget, -⟩
      exact hno ref hmem htable htarget
    unfold detach
    rw [hcell]
  have hmap : (fun r => detach schema t id t' r) = fun r => r := funext hdetach
  show ((db t').filter fun r => ¬ Removed schema t id t' r).map
    (fun r => detach schema t id t' r) = _
  rw [hmap, List.map_id']
  simp only [hremoved]

/-- A deletion leaves the other tables without a foreign key to its table. -/
theorem erase_elsewhere {db : DB} {t t' : Table} (id : ℕ) (ht : t' ≠ t) (href : t' ∉ t.referring) :
    erase schema db t id t' = db t' := by
  rw [erase_apart id href]
  exact List.filter_eq_self.mpr fun r _ => decide_eq_true fun h => ht h.1

theorem blocked_congr {t : Table} {db db' : DB} (h : ∀ t' ∈ t.referring, db t' = db' t') (id : ℕ) :
    Blocked schema db t id ↔ Blocked schema db' t id := by
  have hone : ∀ {s s' : DB}, (∀ t' ∈ t.referring, s t' = s' t') → Blocked schema s t id →
      Blocked schema s' t id := by
    rintro s s' hs ⟨ref, hmem, hnull, r, hr, hremoved, ref', hmem', htable', hcolumn',
      htarget', hrest⟩
    have htable : ref.table ∈ t.referring := by
      rw [← htable', ← htarget']
      exact mem_referring hmem'
    rw [hs _ htable] at hr
    exact ⟨ref, hmem, hnull, r, hr, hremoved, ref', hmem', htable', hcolumn', htarget', hrest⟩
  exact ⟨hone h, hone fun t' ht' => (h t' ht').symm⟩

theorem storeColumn_congr {t : Table} {db db' : DB} (h : db t = db' t) (id : ℕ) (c : Column)
    (x : Except Exn Value) :
    storeColumn db t id c x = storeColumn db' t id c x := by
  have hadmissible : ∀ v, Admissible db t id c v ↔ Admissible db' t id c v := by
    intro v
    unfold Admissible
    rw [h]
  simp only [storeColumn, hadmissible]

theorem newRow_congr {t : Table} {db db' : DB} (h : db t = db' t) (k : Clock)
    (attrs : List (Field × Attr)) :
    newRow k t attrs db = newRow k t attrs db' := by
  unfold newRow
  rw [h]

/-- The assignments of an update handler keep to its table. -/
theorem assigned_within {uses writes : List Table} {t : Table} (ht : t ∈ writes) {id : ℕ}
    {assignments : List Assignment} (o : Op)
    (ho : .ok (some o) ∈ assignments.map (Assignment.op t id)) :
    o.Within uses writes := by
  obtain ⟨a, -, ha⟩ := List.mem_map.mp ho
  unfold Assignment.op at ha
  obtain ⟨x, -, hx⟩ := map_eq_ok.mp ha
  obtain ⟨v, -, rfl⟩ := Option.map_eq_some_iff.mp hx
  exact ht

section Near

variable {uses writes : List Table} {d d' w w' : DB} (hsub : ∀ t ∈ writes, t ∈ uses)
include hsub

theorem insertRow_near (h : Near uses writes d d' w w') {t : Table} (ht : t ∈ writes) (k : Clock)
    (attrs : List (Field × Attr)) :
    SameEnd (Near uses writes d d') (insertRow k t attrs w) (insertRow k t attrs w') := by
  have hsame := h.agree t (hsub t ht)
  have hcolumns : (fun c => failure (storeColumn w t (nextId (w t)) c (c.initial k attrs))) =
      fun c => failure (storeColumn w' t (nextId (w' t)) c (c.initial k attrs)) := by
    funext c
    rw [← hsame, storeColumn_congr hsame]
  unfold insertRow
  rw [hcolumns, ← hsame]
  split_ifs with hid
  · exact SameEnd.error _
  · cases t.columns.findSome? fun c =>
      failure (storeColumn w' t (nextId (w t)) c (c.initial k attrs)) with
    | some e => exact SameEnd.error e
    | none => exact h.update ht (by rw [hsame, newRow_congr hsame])

theorem assign_near (h : Near uses writes d d' w w') {t : Table} (ht : t ∈ writes) (id : ℕ)
    (f : Field) (a : Attr) :
    SameEnd (Near uses writes d d') (assign t id f a w) (assign t id f a w') := by
  have hsame := h.agree t (hsub t ht)
  unfold assign
  cases t.column f with
  | none => exact h
  | some c =>
    simp only [storeColumn_congr hsame]
    cases storeColumn w' t id c (a.bind c.type) with
    | error e => exact SameEnd.error e
    | ok v => exact h.update ht (by rw [hsame])

theorem removeWhere_near (h : Near uses writes d d' w w') {t : Table} (ht : t ∈ writes)
    (p : Record → Bool) :
    Near uses writes d d' (removeWhere w t p) (removeWhere w' t p) :=
  h.update ht (by rw [h.agree t (hsub t ht)])

theorem deleteRow_near (h : Near uses writes d d' w w') {t : Table} (ht : t ∈ writes)
    (href : ∀ t' ∈ t.referring, t' ∈ writes) (id : ℕ) :
    SameEnd (Near uses writes d d') (deleteRow t id w) (deleteRow t id w') := by
  have hblocked := blocked_congr (fun t' ht' => h.agree t' (hsub t' (href t' ht'))) id
  unfold deleteRow
  by_cases hb : Blocked schema w t id
  · rw [if_pos hb, if_pos (hblocked.mp hb)]
    exact SameEnd.error _
  · rw [if_neg hb, if_neg fun hb' => hb (hblocked.mpr hb')]
    refine ⟨fun t' ht' => ?_, fun t' ht' => ?_, fun t' ht' => ?_⟩
    · show ((w t').filter _).map _ = ((w' t').filter _).map _
      rw [h.agree t' ht']
    · rw [erase_elsewhere id (ne_of_mem_of_not_mem ht ht').symm fun hmem => ht' (href t' hmem)]
      exact h.left t' ht'
    · rw [erase_elsewhere id (ne_of_mem_of_not_mem ht ht').symm fun hmem => ht' (href t' hmem)]
      exact h.right t' ht'

theorem setTargets_near (h : Near uses writes d d' w w') (ht : .trainingTargets ∈ writes)
    (hrole : .role ∈ uses)
    (k : Clock) (courseware : ℕ) (roles : List ℕ) :
    SameEnd (Near uses writes d d') (setTargets k courseware roles w)
      (setTargets k courseware roles w') := by
  have htargets := targetsOf_congr (h.agree _ (hsub _ ht)) courseware
  have hrelated : ∀ v, related .role v w = related .role v w' := related_congr (h.agree _ hrole)
  unfold setTargets
  simp only [htargets, hrelated]
  split_ifs with hnodup
  · have hinsert : ∀ role : ℕ, True → ∀ v v', Near uses writes d d' v v' →
        SameEnd (Near uses writes d d')
          (insertRow k .trainingTargets (targetAttrs courseware role) v)
          (insertRow k .trainingTargets (targetAttrs courseware role) v') :=
      fun role _ v v' hv => insertRow_near hsub hv ht k _
    exact sameEnd_applyAll hinsert (fun _ _ => trivial) (removeWhere_near hsub h ht _)
  · exact SameEnd.error _

/-- **An operation within the tables** does the same to databases that agree on them. -/
theorem applyOp_near {o : Op} (ho : o.Within uses writes) (w w' : DB)
    (h : Near uses writes d d' w w') :
    SameEnd (Near uses writes d d') (applyOp o w) (applyOp o w') := by
  cases o with
  | insert k t attrs => exact insertRow_near hsub h ho k attrs
  | assign t id f a => exact assign_near hsub h ho id f a
  | delete t id => exact deleteRow_near hsub h ho.1 ho.2 id
  | deleteWhere t f n =>
    show SameEnd _ (deleteWhere t f n w) (deleteWhere t f n w')
    unfold deleteWhere
    split_ifs
    · exact removeWhere_near hsub h ho _
    · exact SameEnd.error _
  | setTargets k courseware roles => exact setTargets_near hsub h ho.1 ho.2 k courseware roles

/-! ## The families of handlers -/

/-- A program that keeps to the tables. -/
def KeepsTo {α : Type} (uses writes : List Table) (m : Txn DB Op Exn α) : Prop :=
  ∀ d d', Lockstep (Near uses writes d d') (Op.Within uses writes) m

omit hsub in
theorem keepsTo_pure {α : Type} (a : α) : KeepsTo uses writes (pure a) := fun _ _ => Lockstep.pure a

omit hsub in
theorem keepsTo_ofResult {α : Type} (x : Except Exn α) : KeepsTo uses writes (ofResult x) :=
  fun _ _ => Lockstep.ofResult x

omit hsub in
theorem KeepsTo.bind_of {α β : Type} {m : Txn DB Op Exn α} {f : α → Txn DB Op Exn β} {P : α → Prop}
    (hm : KeepsTo uses writes m) (hP : ∀ s a, (exec m s).1 = .ok a → P a)
    (hf : ∀ a, P a → KeepsTo uses writes (f a)) :
    KeepsTo uses writes (m >>= f) :=
  fun d d' => (hm d d').bind_of hP fun a ha => hf a ha d d'

omit hsub in
theorem KeepsTo.bind {α β : Type} {m : Txn DB Op Exn α} {f : α → Txn DB Op Exn β}
    (hm : KeepsTo uses writes m)
    (hf : ∀ a, KeepsTo uses writes (f a)) : KeepsTo uses writes (m >>= f) :=
  fun d d' => (hm d d').bind fun a => hf a d d'

omit hsub in
theorem KeepsTo.catching {α : Type} {m : Txn DB Op Exn α} {handle : Exn → Txn DB Op Exn α}
    (hm : KeepsTo uses writes m) (hhandle : ∀ e, KeepsTo uses writes (handle e)) :
    KeepsTo uses writes (catching m handle) :=
      fun d d' => (hm d d').catching fun e => hhandle e d d'

omit hsub in
theorem keepsTo_stageAll {xs : List (Except Exn (Option Op))}
    (hxs : ∀ o, .ok (some o) ∈ xs → o.Within uses writes) :
    KeepsTo uses writes (stageAll xs) := fun _ _ => Lockstep.stageAll hxs

/-- A query that looks at the tables only. -/
theorem keepsTo_query {α : Type} {f : DB → Except Exn α}
    (hf : ∀ w w' : DB, (∀ t ∈ uses, w t = w' t) → f w = f w') :
    KeepsTo uses writes (query applyOp f) :=
  fun _ _ => Lockstep.query (fun _ ho => applyOp_near hsub ho) fun w w' h => hf w w' h.agree

theorem keepsTo_commit : KeepsTo uses writes (commit applyOp) :=
  fun _ _ => Lockstep.commit fun _ ho => applyOp_near hsub ho

theorem createHandler_keepsTo {k : Clock} {t : Table} (ht : t ∈ writes)
    {prepare : Json → DB → Except Exn (Response ⊕ List (Field × Attr))}
    {reply : Record → DB → Except Exn Json}
    (hprepare : ∀ data, ∀ w w' : DB, (∀ t ∈ uses, w t = w' t) → prepare data w = prepare data w')
    (hreply : ∀ row, ∀ w w' : DB, (∀ t ∈ uses, w t = w' t) → reply row w = reply row w')
    (body : Body) :
    KeepsTo uses writes (createHandler k t prepare reply body) := by
  have htable := hsub t ht
  refine (keepsTo_ofResult _).bind fun data =>
    (keepsTo_query hsub (hprepare data)).bind fun prepared => ?_
  cases prepared with
  | inl refusal => exact keepsTo_pure refusal
  | inr attrs =>
    refine (keepsTo_query hsub fun w w' h => by rw [h t htable]).bind fun id => ?_
    refine KeepsTo.bind (fun _ _ => Lockstep.stage ht) fun _ =>
      (keepsTo_commit hsub).bind fun _ => ?_
    refine (keepsTo_query hsub fun w w' h => reload_congr (h t htable)).bind fun row => ?_
    exact (keepsTo_query hsub (hreply row)).bind fun body => keepsTo_pure _

theorem updateHandler_keepsTo {t : Table} (ht : t ∈ writes) {missing : String}
    {prepare : Json → Record → DB → Except Exn (Response ⊕ List Assignment)}
    {reply : Record → DB → Except Exn Json}
    (hprepare : ∀ data row, ∀ w w' : DB,
      (∀ t ∈ uses, w t = w' t) → prepare data row w = prepare data row w')
    (hreply : ∀ row, ∀ w w' : DB, (∀ t ∈ uses, w t = w' t) → reply row w = reply row w') (id : ℕ)
    (body : Body) :
    KeepsTo uses writes (updateHandler t missing prepare reply id body) := by
  have htable := hsub t ht
  refine (keepsTo_query hsub fun w w' h => getById_congr (h t htable) id).bind fun found => ?_
  cases found with
  | none => exact keepsTo_pure _
  | some row =>
    refine (keepsTo_ofResult _).bind fun data =>
      (keepsTo_query hsub (hprepare data row)).bind fun prepared => ?_
    cases prepared with
    | inl refusal => exact keepsTo_pure refusal
    | inr assignments =>
      refine (keepsTo_stageAll (assigned_within ht)).bind fun _ =>
        (keepsTo_commit hsub).bind fun _ => ?_
      refine (keepsTo_query hsub fun w w' h => reload_congr (h t htable)).bind fun row => ?_
      exact (keepsTo_query hsub (hreply row)).bind fun body => keepsTo_pure _

theorem deleteHandler_keepsTo {t : Table} (ht : t ∈ writes) (href : ∀ t' ∈ t.referring, t' ∈ writes)
    {missing ok : String} {cascade : Record → DB → Except Exn (List (Table × ℕ))}
    (hcascade : ∀ row, ∀ w w' : DB, (∀ t ∈ uses, w t = w' t) → cascade row w = cascade row w')
    (hothers : ∀ row w others, cascade row w = .ok others → ∀ o ∈ others,
      o.1 ∈ writes ∧ ∀ t' ∈ o.1.referring, t' ∈ writes) (id : ℕ) :
    KeepsTo uses writes (deleteHandler t missing ok cascade id) := by
  refine (keepsTo_query hsub fun w w' h => getById_congr (h t (hsub t ht)) id).bind fun found => ?_
  cases found with
  | none => exact keepsTo_pure _
  | some row =>
    refine (keepsTo_query hsub (hcascade row)).bind_of (P := fun others => ∀ o ∈ others,
      o.1 ∈ writes ∧ ∀ t' ∈ o.1.referring, t' ∈ writes) (fun s others h => ?_) fun others hwithin =>
        ?_
    · obtain ⟨w, hw⟩ := query_result h
      exact hothers row w others hw
    refine KeepsTo.bind (keepsTo_stageAll fun o ho => ?_) fun _ => ?_
    · obtain ⟨p, hp, heq⟩ := List.mem_map.mp ho
      cases heq
      exact hwithin p hp
    · refine KeepsTo.bind (fun _ _ => Lockstep.stage ⟨ht, href⟩) fun _ => ?_
      exact (keepsTo_commit hsub).bind fun _ => keepsTo_pure _

/-! ## Role permissions, courseware, imports -/

theorem keepsTo_execute {o : Op} (ho : o.Within uses writes) :
    KeepsTo uses writes (execute applyOp o) :=
  fun _ _ => Lockstep.execute (fun _ ho => applyOp_near hsub ho) ho

theorem updateRolePermissions_keepsTo (ht : .rolePermission ∈ writes) (k : Clock) (roleId : ℕ)
    (body : Body) :
    KeepsTo uses writes (updateRolePermissions k roleId body) := by
  have hdelete : Op.Within uses writes (.deleteWhere .rolePermission .roleId roleId) := ht
  refine (keepsTo_ofResult _).bind fun data => (keepsTo_execute hsub hdelete).bind fun _ => ?_
  refine (keepsTo_ofResult _).bind fun perms => (keepsTo_stageAll fun o ho => ?_).bind fun _ => ?_
  · obtain ⟨perm, -, hperm⟩ := List.mem_map.mp ho
    unfold newPermission at hperm
    obtain ⟨menu, -, hperm⟩ := do_eq_ok.mp hperm
    obtain ⟨access, -, hperm⟩ := do_eq_ok.mp hperm
    cases hperm
    exact ht
  · exact (keepsTo_commit hsub).bind fun _ => keepsTo_pure _

/-- The role loop, where what is saved keeps to the tables. -/
theorem appendRoles_keepsTo (hrole : .role ∈ uses) {save : List ℕ → List ℕ → List Op}
    (hsave : ∀ known roles, ∀ o ∈ save known roles, o.Within uses writes) (js : List Json)
    (known roles : List ℕ) :
    KeepsTo uses writes (appendRoles save known roles js) := by
  induction js generalizing known roles with
  | nil => exact keepsTo_pure _
  | cons j js ih =>
    refine (keepsTo_ofResult _).bind fun key => ?_
    cases inSession (known ++ roles) key with
    | some r => exact ih known (roles ++ [r])
    | none =>
      refine (keepsTo_stageAll fun o ho => ?_).bind fun _ => ?_
      · obtain ⟨o', ho', heq⟩ := List.mem_map.mp ho
        cases heq
        exact hsave known roles o ho'
      refine (keepsTo_query hsub fun w w' h => loadByKey_congr (h .role hrole) key).bind
        fun found => ?_
      cases found with
      | none => exact ih roles roles
      | some role => exact ih roles (roles ++ [role.id])

theorem commitCourseware_keepsTo (ht : .trainingCourseware ∈ uses) (id status : ℕ) :
    KeepsTo uses writes (commitCourseware id status) :=
  (keepsTo_commit hsub).bind fun _ =>
    (keepsTo_query hsub fun _ _ h => reload_congr (h .trainingCourseware ht)).bind fun _ =>
      keepsTo_pure _

theorem createTrainingCourseware_keepsTo (ht : .trainingCourseware ∈ writes)
    (htargets : .trainingTargets ∈ writes)
    (hrole : .role ∈ uses) (k : Clock) (body : Body) :
    KeepsTo uses writes (createTrainingCourseware k body) := by
  have hnew : ∀ id attrs known roles, ∀ o ∈ saveNew k id attrs known roles,
      o.Within uses writes := by
    intro id attrs known roles o ho
    unfold saveNew at ho
    split_ifs at ho
    · cases ho
    · rcases List.mem_cons.mp ho with rfl | ho
      · exact ht
      · rw [List.mem_singleton.mp ho]
        exact ⟨htargets, hrole⟩
    · rw [List.mem_singleton.mp ho]
      exact ⟨htargets, hrole⟩
  have hlast : ∀ id attrs known roles, ∀ o ∈ saveLast k id attrs known roles,
      o.Within uses writes := by
    intro id attrs known roles o ho
    unfold saveLast at ho
    split_ifs at ho
    · rw [List.mem_singleton.mp ho]
      exact ht
    · exact hnew id attrs known roles o ho
  refine (keepsTo_ofResult _).bind fun data => (keepsTo_ofResult _).bind fun attrs => ?_
  refine (keepsTo_query hsub fun w w' h => by rw [h _ (hsub _ ht)]).bind fun id => ?_
  refine KeepsTo.bind ?_ fun targets => ?_
  · unfold newTargets
    split_ifs
    · exact (keepsTo_ofResult _).bind fun items =>
        appendRoles_keepsTo hsub hrole (hnew id attrs) items [] []
    · exact keepsTo_pure _
  · obtain ⟨known, roles⟩ := targets
    refine (keepsTo_stageAll fun o ho => ?_).bind fun _ =>
      commitCourseware_keepsTo hsub (hsub _ ht) id 201
    obtain ⟨o', ho', heq⟩ := List.mem_map.mp ho
    cases heq
    exact hlast id attrs known roles o ho'

theorem updateTrainingCourseware_keepsTo (ht : .trainingCourseware ∈ writes)
    (htargets : .trainingTargets ∈ writes)
    (hrole : .role ∈ uses) (k : Clock) (id : ℕ) (body : Body) :
    KeepsTo uses writes (updateTrainingCourseware k id body) := by
  refine (keepsTo_query hsub fun w w' h => getById_congr (h _ (hsub _ ht)) id).bind fun found => ?_
  cases found with
  | none => exact keepsTo_pure _
  | some courseware =>
    refine (keepsTo_ofResult _).bind fun data =>
      (keepsTo_stageAll (assigned_within ht)).bind fun _ => ?_
    refine KeepsTo.bind ?_ fun _ => commitCourseware_keepsTo hsub (hsub _ ht) id 200
    unfold replaceTargets
    split_ifs
    · refine (keepsTo_query hsub fun w w' h => ?_).bind fun known =>
        (keepsTo_ofResult _).bind fun items => ?_
      · unfold rolesOf
        rw [h _ hrole, targetsOf_congr (h _ (hsub _ htargets))]
      refine KeepsTo.bind (appendRoles_keepsTo hsub hrole (fun _ roles o ho => ?_) items known [])
        fun lists => ?_
      · rw [List.mem_singleton.mp ho]
        exact ⟨htargets, hrole⟩
      · exact fun _ _ => Lockstep.stage ⟨htargets, hrole⟩
    · exact keepsTo_pure ()

omit hsub in
theorem importRows_keepsTo {rowOp : CsvRow → Except Exn (Option Op)}
    (hrow : ∀ row o, rowOp row = .ok (some o) → o.Within uses writes) (rows : List CsvRow)
    (imported skipped : ℕ) :
    KeepsTo uses writes (importRows rowOp rows imported skipped) := by
  induction rows generalizing imported skipped with
  | nil => exact keepsTo_pure _
  | cons row rows ih =>
    unfold importRows
    cases hop : rowOp row with
    | error e => exact ih imported (skipped + 1)
    | ok x =>
      cases x with
      | none => exact ih imported (skipped + 1)
      | some o =>
        exact KeepsTo.bind (fun _ _ => Lockstep.stage (hrow row o hop)) fun _ =>
          ih (imported + 1) skipped

theorem importCsv_keepsTo {rowOp : CsvRow → Except Exn (Option Op)}
    (hrow : ∀ row o, rowOp row = .ok (some o) → o.Within uses writes) (file : Upload) :
    KeepsTo uses writes (importCsv rowOp file) := by
  refine KeepsTo.catching (KeepsTo.bind (keepsTo_ofResult _) fun read => ?_) fun e => keepsTo_pure _
  obtain ⟨rows, failed⟩ := read
  refine KeepsTo.catching (KeepsTo.bind (importRows_keepsTo hrow rows 0 0) fun counts => ?_)
    fun e =>
    ?_
  · exact (keepsTo_ofResult _).bind fun _ => (keepsTo_commit hsub).bind fun _ => keepsTo_pure _
  · exact KeepsTo.bind (fun _ _ => Lockstep.rollback) fun _ => keepsTo_pure _

theorem importJson_keepsTo (ht : .researchTemplate ∈ writes) (k : Clock) (file : Upload) :
    KeepsTo uses writes (importJson k file) := by
  have hitem : ∀ item o, templateItem k item = .ok o → o.Within uses writes := by
    intro item o ho
    obtain ⟨attrs, -, rfl⟩ := map_eq_ok.mp ho
    exact ht
  have hitems : ∀ items imported, KeepsTo uses writes (importItems k items imported) := by
    intro items
    induction items with
    | nil => exact fun imported => keepsTo_pure _
    | cons item items ih =>
      intro imported
      unfold importItems
      cases hop : templateItem k item with
      | error e => exact ih imported
      | ok o =>
        exact KeepsTo.bind (fun _ _ => Lockstep.stage (hitem item o hop)) fun _ => ih (imported + 1)
  unfold importJson
  split
  · exact keepsTo_pure _
  · exact fun _ _ => Lockstep.throw _
  · exact (hitems _ 0).bind fun imported => (keepsTo_commit hsub).bind fun _ => keepsTo_pure _
  · rename_i data _ _
    refine (keepsTo_ofResult _).bind_of (P := fun o => o.Within uses writes)
      (fun s o h => hitem data o h) fun o ho => ?_
    exact KeepsTo.bind (fun _ _ => Lockstep.stage ho) fun _ =>
      (keepsTo_commit hsub).bind fun _ => keepsTo_pure _

end Near

/-! ## The write requests -/

/-- The tables a create or update handler looks into besides its own. -/
def Resource.reads : Resource → List Table
  | .courseware => [.role]
  | .learningRecord => [.trainingCourseware]
  | .vendorResearch => [.user, .evaluationProject, .systemDictionary]
  | _ => []

/-- The tables a delete handler changes: rows go, and references to them. -/
def Resource.deletes (r : Resource) : List Table :=
  (r.table :: r.table.referring) ++ if r = .researchTask then [.vendorResearch] else []

/-- The tables a request changes. -/
def Request.writes : Request → List Table
  | .delete r _ => r.deletes
  | request => request.tables

/-- The tables a request only looks into. -/
def Request.reads : Request → List Table
  | .create r _ => r.reads
  | .update r _ _ => r.reads
  | _ => []

/-- All tables a request uses. -/
def Request.uses (request : Request) : List Table := request.writes ++ request.reads

theorem learningValues_congr {uses : List Table} (hread : .trainingCourseware ∈ uses)
    (data : Json) (w w' : DB)
    (h : ∀ t ∈ uses, w t = w' t) : learningValues data w = learningValues data w' := by
  unfold learningValues queryGet
  simp only [loadByKey_congr (h .trainingCourseware hread)]

theorem renderVendorResearch_congr {uses : List Table}
    (hread : ∀ t ∈ Resource.vendorResearch.reads, t ∈ uses)
    (research : Record) (w w' : DB) (h : ∀ t ∈ uses, w t = w' t) :
    renderVendorResearch research w = renderVendorResearch research w' := by
  unfold renderVendorResearch
  rw [relatedName_congr (h .user (hread _ (by decide))),
    relatedName_congr (h .evaluationProject (hread _ (by decide))),
    relatedName_congr (h .systemDictionary (hread _ (by decide)))]

section Requests

variable {uses writes : List Table} (hsub : ∀ t ∈ writes, t ∈ uses)
include hsub

theorem prepareUser_congr (ht : .user ∈ writes) (data : Json) (w w' : DB)
    (h : ∀ t ∈ uses, w t = w' t) :
    prepareUser data w = prepareUser data w' := by
  unfold prepareUser
  rw [taken_congr (h .user (hsub _ ht)), taken_congr (h .user (hsub _ ht))]

theorem createResource_keepsTo {k : Clock} {r : Resource} (hwrites : ∀ t ∈ r.tables, t ∈ writes)
    (hreads : ∀ t ∈ r.reads, t ∈ uses) (body : Body) :
    KeepsTo uses writes (createResource k r body) := by
  have hplain : ∀ {t : Table} {sources : List Source} {reply : Record → DB → Except Exn Json},
      t ∈ writes →
      (∀ row, ∀ w w' : DB, (∀ t ∈ uses, w t = w' t) → reply row w = reply row w') →
      KeepsTo uses writes
        (createHandler k t (fun data _ => (construct data sources).map .inr) reply body) :=
    fun ht hreply => createHandler_keepsTo hsub ht (fun _ _ _ _ => rfl) hreply body
  have ht := hwrites r.table r.mem_tables
  cases r with
  | courseware =>
    exact createTrainingCourseware_keepsTo hsub ht (hwrites _ (by decide))
      (hreads _ (by decide)) k body
  | user =>
    exact createHandler_keepsTo hsub ht (prepareUser_congr hsub ht) (fun _ _ _ _ => rfl) body
  | standard =>
    refine createHandler_keepsTo hsub ht (fun data w w' h => ?_) (fun _ _ _ _ => rfl) body
    rw [taken_congr (h .evaluationStandard (hsub _ ht))]
  | evaluationType =>
    refine createHandler_keepsTo hsub ht (fun data w w' h => ?_) (fun _ _ _ _ => rfl) body
    rw [taken_congr (h .evaluationType (hsub _ ht))]
  | learningRecord =>
    refine createHandler_keepsTo hsub ht (fun data w w' h => ?_) (fun _ _ _ _ => rfl) body
    rw [learningValues_congr (hreads _ (by decide)) data w w' h]
  | project => exact createHandler_keepsTo hsub ht (fun _ _ _ _ => rfl) (fun _ _ _ _ => rfl) body
  | vendorResearch =>
    exact createHandler_keepsTo hsub ht (fun _ _ _ _ => rfl)
      (renderVendorResearch_congr hreads) body
  | researchTask =>
    exact createHandler_keepsTo hsub ht (fun _ _ _ _ => rfl) (fun _ _ _ _ => rfl) body
  | menu => exact hplain ht fun _ _ _ _ => rfl
  | skin => exact hplain ht fun _ _ _ _ => rfl
  | clause => exact hplain ht fun _ _ _ _ => rfl
  | level => exact hplain ht fun _ _ _ _ => rfl
  | catalog => exact hplain ht fun _ _ _ _ => rfl
  | dictionary => exact hplain ht fun _ _ _ _ => rfl
  | template => exact hplain ht fun _ _ _ _ => rfl

theorem updateResource_keepsTo {k : Clock} {r : Resource} (hwrites : ∀ t ∈ r.tables, t ∈ writes)
    (hreads : ∀ t ∈ r.reads, t ∈ uses) (id : ℕ) (body : Body) :
    KeepsTo uses writes (updateResource k r id body) := by
  have hplain : ∀ {t : Table} {missing : String} {prepare : Json → Record →
      Except Exn (Response ⊕ List Assignment)}
      {reply : Record → DB → Except Exn Json}, t ∈ writes →
      (∀ row, ∀ w w' : DB, (∀ t ∈ uses, w t = w' t) → reply row w = reply row w') →
      KeepsTo uses writes
        (updateHandler t missing (fun data row _ => prepare data row) reply id body) :=
    fun ht hreply => updateHandler_keepsTo hsub ht (fun _ _ _ _ _ => rfl) hreply id body
  have ht := hwrites r.table r.mem_tables
  cases r with
  | courseware =>
    exact updateTrainingCourseware_keepsTo hsub ht (hwrites _ (by decide))
      (hreads _ (by decide)) k id body
  | user =>
    refine updateHandler_keepsTo hsub ht (fun data user w w' h => ?_) (fun _ _ _ _ => rfl) id body
    rw [takenByOther_congr (h .user (hsub _ ht)), takenByOther_congr (h .user (hsub _ ht))]
  | standard =>
    refine updateHandler_keepsTo hsub ht (fun data standard w w' h => ?_)
      (fun _ _ _ _ => rfl) id body
    rw [takenByOther_congr (h .evaluationStandard (hsub _ ht))]
  | evaluationType =>
    refine updateHandler_keepsTo hsub ht (fun data type_ w w' h => ?_) (fun _ _ _ _ => rfl) id body
    rw [takenByOther_congr (h .evaluationType (hsub _ ht))]
  | learningRecord =>
    refine updateHandler_keepsTo hsub ht (fun data _ w w' h => ?_) (fun _ _ _ _ => rfl) id body
    rw [learningAssignments, learningAssignments,
      learningValues_congr (hreads _ (by decide)) data w w' h]
  | vendorResearch => exact hplain ht (renderVendorResearch_congr hreads)
  | menu => exact hplain ht fun _ _ _ _ => rfl
  | skin => exact hplain ht fun _ _ _ _ => rfl
  | clause => exact hplain ht fun _ _ _ _ => rfl
  | level => exact hplain ht fun _ _ _ _ => rfl
  | project => exact hplain ht fun _ _ _ _ => rfl
  | catalog => exact hplain ht fun _ _ _ _ => rfl
  | dictionary => exact hplain ht fun _ _ _ _ => rfl
  | template => exact hplain ht fun _ _ _ _ => rfl
  | researchTask => exact hplain ht fun _ _ _ _ => rfl

theorem deleteResource_keepsTo {r : Resource} (hwrites : ∀ t ∈ r.deletes, t ∈ writes) (id : ℕ) :
    KeepsTo uses writes (deleteResource r id) := by
  have hown : ∀ t ∈ r.table :: r.table.referring, t ∈ writes :=
    fun t ht => hwrites t (List.mem_append_left _ ht)
  have hplain : ∀ {t : Table} {missing ok : String}, (∀ t' ∈ t :: t.referring, t' ∈ writes) →
      KeepsTo uses writes (deleteHandler t missing ok (fun _ _ => .ok []) id) := by
    intro t missing ok h
    refine deleteHandler_keepsTo hsub (h t List.mem_cons_self)
      (fun t' ht' => h t' (List.mem_cons_of_mem t ht'))
      (fun _ _ _ _ => rfl) (fun _ _ others hothers o ho => ?_) id
    cases hothers
    cases ho
  cases r with
  | researchTask =>
    have hresearch : .vendorResearch ∈ writes := hwrites _ (by decide)
    refine deleteHandler_keepsTo hsub (hown _ List.mem_cons_self)
      (fun t ht => hown t (List.mem_cons_of_mem _ ht))
      (fun task w w' h => ?_) (fun task w others hothers o ho => ?_) id
    · unfold researchesOf
      rw [filterBy_congr (h .vendorResearch (hsub _ hresearch))]
    · obtain ⟨researches, -, rfl⟩ := map_eq_ok.mp hothers
      obtain ⟨research, -, rfl⟩ := List.mem_map.mp ho
      have hnone : Table.referring .vendorResearch = [] := by decide
      exact ⟨hresearch, fun t' ht' => absurd (hnone ▸ ht') List.not_mem_nil⟩
  | menu => exact hplain hown
  | skin => exact hplain hown
  | user => exact hplain hown
  | standard => exact hplain hown
  | clause => exact hplain hown
  | courseware => exact hplain hown
  | evaluationType => exact hplain hown
  | level => exact hplain hown
  | project => exact hplain hown
  | learningRecord => exact hplain hown
  | catalog => exact hplain hown
  | vendorResearch => exact hplain hown
  | dictionary => exact hplain hown
  | template => exact hplain hown

end Requests

/-- **A write request keeps to its tables.** -/
theorem handler_keepsTo (k : Clock) (request : Request) : KeepsTo request.uses request.writes
    (request.handler k) := by
  have hsub : ∀ t ∈ request.writes, t ∈ request.uses := fun t ht => List.mem_append_left _ ht
  have hreads : ∀ t ∈ request.reads, t ∈ request.uses := fun t ht => List.mem_append_right _ ht
  cases request with
  | register body =>
    have ht : Table.user ∈ (Request.register body).writes := List.mem_singleton_self _
    exact createHandler_keepsTo hsub ht (prepareUser_congr hsub ht) (fun _ _ _ _ => rfl) body
  | rolePermissions roleId body =>
    exact updateRolePermissions_keepsTo hsub (List.mem_singleton_self _) k roleId body
  | create r body => exact createResource_keepsTo hsub (fun t ht => ht) hreads body
  | update r id body => exact updateResource_keepsTo hsub (fun t ht => ht) hreads id body
  | delete r id => exact deleteResource_keepsTo hsub (fun t ht => ht) id
  | importDictionaries file =>
    refine KeepsTo.catching ?_ fun e => keepsTo_pure _
    split
    · exact keepsTo_pure _
    · split_ifs
      · exact keepsTo_pure _
      · refine importCsv_keepsTo hsub (fun row o ho => ?_) _
        obtain ⟨attrs, rfl⟩ := dictionaryRow_insert ho
        exact List.mem_singleton_self _
      · exact keepsTo_pure _
  | importTemplates file =>
    refine KeepsTo.catching ?_ fun e => keepsTo_pure _
    split
    · exact keepsTo_pure _
    · split_ifs
      · exact keepsTo_pure _
      · exact importJson_keepsTo hsub (List.mem_singleton_self _) k _
      · refine importCsv_keepsTo hsub (fun row o ho => ?_) _
        obtain ⟨_, _, _, _, attrs, -, -, -, -, rfl, -⟩ := templateRow_insert ho
        exact List.mem_singleton_self _
      · exact keepsTo_pure _

end ProjectEvaluation.Backend
