import ProjectEvaluation.Properties.Clients

/-!
# A list kept up to date by the answers

The pages fetch their list again after every request. For some resources the answer to a POST or
a PUT is the object of the list: a client that puts the answers into its list has what a fetch
would give it.

Main results:
* `mirrored_create`, `mirrored_update`, `mirrored_delete`: what one request does to the list of
  its resource.
* `mirror_run`: over any run of requests of all clients, the list that follows the answers is
  the list of the server.
-/

namespace ProjectEvaluation.Backend

open Python Relational Transaction

/-- What a row is rendered as in the list of a resource, where the handlers answer with the
    objects of its list. -/
def Resource.mirrored : Resource → Option (Record → DB → Except Exn Json)
  | .user => some (answer userFields)
  | .standard => some (answer (.id :: standardFields))
  | .clause => some (answer (.id :: clauseFields))
  | .evaluationType => some (answer (.id :: typeFields))
  | .level => some (answer (.id :: levelFields))
  | .learningRecord =>
    some fun record _ => renderLearningRecord (unlessNone dayText) (unlessNone timeText) record
  | .catalog => some (answer (.id :: catalogFields))
  | .vendorResearch => some renderVendorResearch
  | .dictionary => some (answer (.id :: dictionaryFields))
  | _ => none

/-- The object of a row. -/
def rendered (render : Record → DB → Except Exn Json) (db : DB) (row : Record) : Json :=
  (render row db).toOption.getD .null

theorem rendered_ok {render : Record → DB → Except Exn Json} {db : DB} {row : Record} {item : Json}
    (h : render row db = .ok item) : rendered render db row = item := by
  rw [rendered, h]
  rfl

/-! ## The client -/

/-- A list of a resource after a request and its answer. -/
def follow (r : Resource) (request : Request) (response : Response) (items : List Json) :
    List Json :=
  if response.Success then
    match request with
    | .create r' _ => if r' = r then items ++ [response.body] else items
    | .update r' id _ =>
      if r' = r then items.map fun item => if hasId id item then response.body else item else items
    | .delete r' id => if r' = r then items.filter fun item => !hasId id item else items
    | _ => items
  else items

/-- A list of a resource after a run of requests and their answers. -/
def followAll (r : Resource) : List (Clock × Request) → DB → List Json → List Json
  | [], _, items => items
  | (k, request) :: log, db, items =>
    followAll r log (handle k request db).2 (follow r request (handle k request db).1 items)

/-- The database after a run of requests. -/
def afterAll : List (Clock × Request) → DB → DB
  | [], db => db
  | (k, request) :: log, db => afterAll log (handle k request db).2

/-- A request for a resource. -/
def Request.For (r : Resource) (request : Request) : Prop :=
  (∃ body, request = .create r body) ∨ (∃ id body, request = .update r id body) ∨
    ∃ id, request = .delete r id

/-! ## Answers with an object -/

/-- **A create handler** answers with what it renders the row it adds as. -/
theorem run_create_object {k : Clock} {t : Table}
    {prepare : Json → DB → Except Exn (Response ⊕ List (Field × Attr))}
    {reply : Record → DB → Except Exn Json} {body : Body} {db : DB}
    (hrefuse : ∀ data response, prepare data db = .ok (.inl response) → ¬ response.Success)
    (hgood : (run (createHandler k t prepare reply body) db).1.Success) :
    ∃ row, (run (createHandler k t prepare reply body) db).2 t = db t ++ [row] ∧
      reply row (run (createHandler k t prepare reply body) db).2 =
        .ok (run (createHandler k t prepare reply body) db).1.body := by
  rw [run_createHandler] at hgood ⊢
  cases hprepare : body.getJson.bind fun data => prepare data db with
  | error e =>
    rw [hprepare] at hgood
    exact absurd hgood (uncaught_not_success e)
  | ok prepared =>
    rw [hprepare] at hgood
    cases prepared with
    | inl response =>
      obtain ⟨data, -, hdata⟩ := bind_eq_ok.mp hprepare
      exact absurd hgood (hrefuse data response hdata)
    | inr attrs =>
      simp only at hgood ⊢
      cases hins : insertRow k t attrs db with
      | error e =>
        rw [hins] at hgood
        exact absurd hgood (uncaught_not_success e)
      | ok db' =>
        simp only [hins] at hgood ⊢
        cases hreply : reply (newRow k t attrs db) db' with
        | error e =>
          rw [hreply] at hgood
          exact absurd hgood (uncaught_not_success e)
        | ok item => exact ⟨newRow k t attrs db, insertRow_rows hins, hreply⟩

/-- **An update handler** answers with what it renders the row it changed as. -/
theorem run_update_object {t : Table} {missing : String}
    {prepare : Json → Record → DB → Except Exn (Response ⊕ List Assignment)}
    {reply : Record → DB → Except Exn Json} {id : ℕ} {body : Body} {db : DB}
    (hrefuse : ∀ data row response, prepare data row db = .ok (.inl response) → ¬ response.Success)
    (hgood : (run (updateHandler t missing prepare reply id body) db).1.Success) :
    ∃ row values, find (db t) id = some row ∧
      (run (updateHandler t missing prepare reply id body) db).2 t =
        (db t).map (fun r => if r.id = id then assignCells r values else r) ∧
      reply (assignCells row values) (run (updateHandler t missing prepare reply id body) db).2 =
        .ok (run (updateHandler t missing prepare reply id body) db).1.body := by
  rw [run_updateHandler] at hgood ⊢
  cases hget : getById t id db with
  | error e =>
    rw [hget] at hgood
    exact absurd hgood (uncaught_not_success e)
  | ok found =>
    rw [hget] at hgood
    cases found with
    | none => exact absurd hgood (refuse_not_success (by norm_num) _)
    | some row =>
      obtain ⟨hid, hfind⟩ := getById_eq_some.mp hget
      simp only at hgood ⊢
      cases hprepare : body.getJson.bind fun data => prepare data row db with
      | error e =>
        rw [hprepare] at hgood
        exact absurd hgood (uncaught_not_success e)
      | ok prepared =>
        rw [hprepare] at hgood
        cases prepared with
        | inl response =>
          obtain ⟨data, -, hdata⟩ := bind_eq_ok.mp hprepare
          exact absurd hgood (hrefuse data row response hdata)
        | inr assignments =>
          simp only at hgood ⊢
          cases hops : (updateOps t id assignments).bind fun ops => applyAll applyOp ops db with
          | error e =>
            rw [hops] at hgood
            exact absurd hgood (uncaught_not_success e)
          | ok db' =>
            obtain ⟨ops, hstaged, hall⟩ := bind_eq_ok.mp hops
            obtain rfl := (updateOps_eq hstaged hall).1
            set values := updateValues t assignments
            have hfind' : find (setCells db t id values t) id = some (assignCells row values) := by
              rw [find_setCells, hfind]
              rfl
            have hreload : reload t id (setCells db t id values) =
                .ok (assignCells row values) := by
              rw [reload, getById_eq_some.mpr ⟨hid, hfind'⟩]
              rfl
            have hbind : ((reload t id (setCells db t id values)).bind fun row =>
                reply row (setCells db t id values)) =
                reply (assignCells row values) (setCells db t id values) := by
              rw [hreload]
              rfl
            simp only [hops, hbind] at hgood ⊢
            cases hreply : reply (assignCells row values) (setCells db t id values) with
            | error e =>
              rw [hreply] at hgood
              exact absurd hgood (uncaught_not_success e)
            | ok item => exact ⟨row, values, hfind, setCells_same db t id _, hreply⟩

/-! ## The objects of the lists -/

/-- An object that begins with the id of a row. -/
theorem hasId_dict (members : List (Field × Json)) (row : Record) (id : ℕ) :
    hasId id (.dict ((.id, shown row .id) :: members)) = (row.id == id) := by
  show ((row.id : ℤ) == (id : ℤ)) = (row.id == id)
  rw [Bool.eq_iff_iff, beq_iff_eq, beq_iff_eq, Nat.cast_inj]

theorem hasId_answer {fields : List Field} (hfields : fields.head? = some .id) {row : Record}
    {db : DB} {item : Json} (h : answer fields row db = .ok item) (id : ℕ) :
    hasId id item = (row.id == id) := by
  obtain rfl := Except.ok.inj h
  obtain ⟨rest, rfl⟩ : ∃ rest, fields = .id :: rest := by
    cases fields with
    | nil => cases hfields
    | cons f rest => exact ⟨rest, by rw [Option.some.inj hfields]⟩
  exact hasId_dict _ row id

theorem dayText_ok {v : Value} (h : fits .date v = true) : ∃ j, dayText v = .ok j := by
  cases v with
  | date d => exact ⟨_, rfl⟩
  | _ => cases h

theorem timeText_ok {v : Value} (h : fits .time v = true) : ∃ j, timeText v = .ok j := by
  cases v with
  | time t => exact ⟨_, rfl⟩
  | _ => cases h

/-- A value of its column has its text, or is NULL. -/
theorem unlessNone_ok {text : Value → Except Exn Json} {ty : ColType} {v : Value}
    (hv : Canonical ty v) (htext : fits ty v = true → ∃ j, text v = .ok j) :
    ∃ j, unlessNone text v = .ok j := by
  unfold unlessNone
  split_ifs with hnull
  · exact ⟨.null, rfl⟩
  · exact htext (hv.resolve_left hnull)

theorem unlessNone_of_ok {text : Value → Except Exn Json} {v : Value} {j : Json}
    (hnull : text .null = .error .attributeError) (h : text v = .ok j) :
    unlessNone text v = .ok j := by
  unfold unlessNone
  split_ifs with hv
  · rw [hv, hnull] at h
    cases h
  · exact h

/-- An answer with a learning record is its object in the list. -/
theorem learning_reply {record : Record} {item : Json}
    (h : renderLearningRecord dayText timeText record = .ok item) :
    renderLearningRecord (unlessNone dayText) (unlessNone timeText) record = .ok item := by
  unfold renderLearningRecord at h ⊢
  obtain ⟨date, hdate, h⟩ := bind_eq_ok.mp h
  obtain ⟨startTime, hstart, h⟩ := bind_eq_ok.mp h
  obtain ⟨endTime, hend, h⟩ := bind_eq_ok.mp h
  rw [unlessNone_of_ok rfl hdate, unlessNone_of_ok rfl hstart, unlessNone_of_ok rfl hend]
  exact h

section

variable {r : Resource} {render : Record → DB → Except Exn Json} (hr : r.mirrored = some render)

include hr

theorem mirrored_hasId {row : Record} {db : DB} {item : Json} (h : render row db = .ok item)
    (id : ℕ) : hasId id item = (row.id == id) := by
  cases r with
  | learningRecord =>
    cases hr
    unfold renderLearningRecord at h
    obtain ⟨date, -, h⟩ := bind_eq_ok.mp h
    obtain ⟨startTime, -, h⟩ := bind_eq_ok.mp h
    obtain ⟨endTime, -, h⟩ := bind_eq_ok.mp h
    obtain rfl := Except.ok.inj h
    exact hasId_dict _ row id
  | vendorResearch =>
    cases hr
    obtain rfl := Except.ok.inj h
    exact hasId_dict _ row id
  | user => cases hr; exact hasId_answer rfl h id
  | standard => cases hr; exact hasId_answer rfl h id
  | clause => cases hr; exact hasId_answer rfl h id
  | evaluationType => cases hr; exact hasId_answer rfl h id
  | level => cases hr; exact hasId_answer rfl h id
  | catalog => cases hr; exact hasId_answer rfl h id
  | dictionary => cases hr; exact hasId_answer rfl h id
  | _ => cases hr

/-- Every row of the database has its object. -/
theorem mirrored_row {db : DB} (hv : Valid db) {row : Record} (hrow : row ∈ db r.table) :
    ∃ item, render row db = .ok item := by
  cases r with
  | learningRecord =>
    cases hr
    have hdate := hv.canonical .learningRecord (required .learningDate .date) (by decide) row hrow
    have hstart := hv.canonical .learningRecord (required .startTime .time) (by decide) row hrow
    have hend := hv.canonical .learningRecord (required .endTime .time) (by decide) row hrow
    obtain ⟨date, hdate⟩ := unlessNone_ok hdate dayText_ok
    obtain ⟨startTime, hstart⟩ := unlessNone_ok hstart timeText_ok
    obtain ⟨endTime, hend⟩ := unlessNone_ok hend timeText_ok
    simp only [required] at hdate hstart hend
    show ∃ item, renderLearningRecord (unlessNone dayText) (unlessNone timeText) row = .ok item
    rw [renderLearningRecord, hdate, hstart, hend]
    exact ⟨_, rfl⟩
  | vendorResearch => cases hr; exact ⟨_, rfl⟩
  | _ => cases hr <;> exact ⟨_, rfl⟩

/-- The objects go by the tables the list takes names from. -/
theorem mirrored_congr {db db' : DB} (h : ∀ t ∈ r.named, db t = db' t) :
    rendered render db = rendered render db' := by
  funext row
  cases r with
  | vendorResearch =>
    cases hr
    rw [rendered, rendered, renderVendorResearch_congr (fun _ hmem => hmem) row db db' h]
  | _ => cases hr <;> rfl

theorem mirrored_list {db : DB} (hv : Valid db) :
    listResource r db =
      { status := 200, body := .list ((db r.table).map (rendered render db)) } := by
  have hall : ∀ row ∈ db r.table, render row db = .ok (rendered render db row) := by
    intro row hrow
    obtain ⟨item, hitem⟩ := mirrored_row hr hv hrow
    rw [hitem, rendered_ok hitem]
  cases r with
  | clause =>
    cases hr
    have hclauses : getEmrStandardClauses ⟨none, none, none, none⟩ db =
        clauseList ((db .emrStandardClause).filter fun _ => true) :=
      getEmrStandardClauses_eq fun _ _ => rfl
    rw [List.filter_eq_self.mpr fun _ _ => rfl] at hclauses
    exact hclauses
  | evaluationType => cases hr; rfl
  | user => cases hr; exact listRows_ok hall
  | standard => cases hr; exact listRows_ok hall
  | level => cases hr; exact listRows_ok hall
  | learningRecord =>
    cases hr
    show getLearningRecords db = _
    unfold getLearningRecords
    exact listRows_ok hall
  | catalog => cases hr; exact listRows_ok hall
  | vendorResearch => cases hr; exact listRows_ok hall
  | dictionary => cases hr; exact listRows_ok hall
  | _ => cases hr

/-! ## The requests of a resource -/

/-- **A POST** adds the object of its answer to the list. -/
theorem mirrored_create {k : Clock} {body : Body} {db : DB}
    (hgood : (handle k (.create r body) db).1.Success) :
    ∃ row, (handle k (.create r body) db).2 r.table = db r.table ++ [row] ∧
      render row (handle k (.create r body) db).2 = .ok (handle k (.create r body) db).1.body := by
  cases r with
  | user => cases hr; exact run_create_object (fun _ _ h => prepareUser_refuses h) hgood
  | standard =>
    cases hr
    exact run_create_object (fun _ _ h => refuseIf_inl h fun h => absurd h map_inr_inl) hgood
  | clause => cases hr; exact run_create_object (fun _ _ h => absurd h map_inr_inl) hgood
  | evaluationType =>
    cases hr
    exact run_create_object (fun _ _ h => refuseIf_inl h fun h => absurd h map_inr_inl) hgood
  | level => cases hr; exact run_create_object (fun _ _ h => absurd h map_inr_inl) hgood
  | learningRecord =>
    cases hr
    obtain ⟨row, hrows, hreply⟩ :=
      run_create_object (fun _ _ h => absurd h map_inr_inl) hgood
    exact ⟨row, hrows, learning_reply hreply⟩
  | catalog => cases hr; exact run_create_object (fun _ _ h => absurd h map_inr_inl) hgood
  | vendorResearch => cases hr; exact run_create_object (fun _ _ h => absurd h map_inr_inl) hgood
  | dictionary => cases hr; exact run_create_object (fun _ _ h => absurd h map_inr_inl) hgood
  | _ => cases hr

/-- **A PUT** replaces the object of its row by the one of its answer. -/
theorem mirrored_update {k : Clock} {id : ℕ} {body : Body} {db : DB}
    (hgood : (handle k (.update r id body) db).1.Success) :
    ∃ row values, find (db r.table) id = some row ∧
      (handle k (.update r id body) db).2 r.table =
        (db r.table).map (fun r => if r.id = id then assignCells r values else r) ∧
      render (assignCells row values) (handle k (.update r id body) db).2 =
        .ok (handle k (.update r id body) db).1.body := by
  cases r with
  | user =>
    cases hr
    exact run_update_object (fun _ _ _ h => refuseIf_inl h fun h => refuseIf_ok_inl h) hgood
  | standard => cases hr; exact run_update_object (fun _ _ _ h => refuseIf_ok_inl h) hgood
  | clause => cases hr; exact run_update_object (fun _ _ _ h => nomatch h) hgood
  | evaluationType => cases hr; exact run_update_object (fun _ _ _ h => refuseIf_ok_inl h) hgood
  | level => cases hr; exact run_update_object (fun _ _ _ h => nomatch h) hgood
  | learningRecord =>
    cases hr
    obtain ⟨row, values, hfind, hrows, hreply⟩ :=
      run_update_object (fun _ _ _ h => absurd h map_inr_inl) hgood
    exact ⟨row, values, hfind, hrows, learning_reply hreply⟩
  | catalog => cases hr; exact run_update_object (fun _ _ _ h => nomatch h) hgood
  | vendorResearch => cases hr; exact run_update_object (fun _ _ _ h => nomatch h) hgood
  | dictionary => cases hr; exact run_update_object (fun _ _ _ h => nomatch h) hgood
  | _ => cases hr

/-- **A DELETE** removes the row from the list. -/
theorem mirrored_delete {k : Clock} {id : ℕ} {db : DB}
    (hgood : (handle k (.delete r id) db).1.Success) :
    (handle k (.delete r id) db).2 r.table = (db r.table).filter fun row => ¬ row.id = id := by
  have hapart : r.table ∉ r.table.referring := by
    cases r <;> first | decide | cases hr
  rcases handle_delete k r id db with ⟨hbad, -⟩ | ⟨-, row, others, -, -, hcascade, hall⟩
  · exact absurd hgood hbad
  · have hnone : others = [] := by
      cases r <;> first | exact (Except.ok.inj hcascade).symm | cases hr
    rw [hnone, deleteOps, List.map_nil, List.nil_append, applyAll_singleton] at hall
    rw [(deleteRow_eq_ok.mp hall).2, erase_apart id hapart]
    simp

/-- **The requests of a resource** change none of the tables its list takes names from. -/
theorem mirrored_apart {request : Request} (hfor : request.For r) :
    ∀ t ∈ r.named, t ∉ request.writes := by
  have hwrites : ∀ t ∈ request.writes, t ∈ r.table :: r.table.referring := by
    intro t ht
    rcases hfor with ⟨body, rfl⟩ | ⟨id, body, rfl⟩ | ⟨id, rfl⟩
    · cases r <;> first | exact List.mem_cons.mpr (Or.inl (List.mem_singleton.mp ht)) | cases hr
    · cases r <;> first | exact List.mem_cons.mpr (Or.inl (List.mem_singleton.mp ht)) | cases hr
    · cases r <;> first | exact ht | cases hr
  have hapart : ∀ t ∈ r.named, t ∉ r.table :: r.table.referring := by
    cases r <;> first | decide | cases hr
  exact fun t ht hmem => hapart t ht (hwrites t hmem)

end

/-! ## Runs -/

/-- **One request**: the list that follows its answer is the list of the server. -/
theorem follow_handle {r : Resource} {render : Record → DB → Except Exn Json}
    (hr : r.mirrored = some render) {k : Clock} {request : Request}
    (hrequest : request.For r ∨ ∀ t ∈ r.table :: r.named, t ∉ request.writes) {db : DB}
    (hv : Valid db) :
    follow r request (handle k request db).1 ((db r.table).map (rendered render db)) =
      ((handle k request db).2 r.table).map (rendered render (handle k request db).2) := by
  have hframe : ∀ t, t ∉ request.writes → db t = (handle k request db).2 t := fun t ht =>
    ((handle_near k request fun _ _ => rfl).2.left t ht).symm
  have hid : ∀ row ∈ db r.table, ∀ id, hasId id (rendered render db row) = (row.id == id) := by
    intro row hrow id
    obtain ⟨item, hitem⟩ := mirrored_row hr hv hrow
    rw [rendered_ok hitem]
    exact mirrored_hasId hr hitem id
  unfold follow
  split_ifs with hgood
  · rcases hrequest with hfor | helsewhere
    · -- the names in the objects are those from before the request
      have hsame := mirrored_congr hr fun t ht => hframe t (mirrored_apart hr hfor t ht)
      rcases hfor with ⟨body, rfl⟩ | ⟨id, body, rfl⟩ | ⟨id, rfl⟩
      · obtain ⟨row, hrows, hbody⟩ := mirrored_create hr hgood
        simp only [if_true]
        rw [hrows, List.map_append, List.map_singleton, rendered_ok hbody, hsame]
      · obtain ⟨row, values, hfind, hrows, hbody⟩ := mirrored_update hr hgood
        simp only [if_true]
        rw [hrows, List.map_map, List.map_map]
        refine List.map_congr_left fun q hq => ?_
        simp only [Function.comp_apply, hid q hq, beq_iff_eq]
        split_ifs with hq'
        · -- no other row has this id
          have hother := find_of_mem (hv.keys r.table) hq
          rw [hq', hfind] at hother
          rw [← Option.some.inj hother, rendered_ok hbody]
        · rw [hsame]
      · simp only [if_true]
        rw [mirrored_delete hr hgood, List.filter_map, hsame]
        refine congrArg _ (List.filter_congr fun q hq => ?_)
        rw [← hsame, Function.comp_apply, hid q hq]
        simp [Bool.beq_eq_decide_eq]
    · have hsame := mirrored_congr hr fun t ht =>
        hframe t (helsewhere t (List.mem_cons_of_mem _ ht))
      have hown : ∀ t ∈ request.writes, t ≠ r.table := by
        rintro t ht rfl
        exact helsewhere r.table List.mem_cons_self ht
      rw [← hframe r.table (helsewhere r.table List.mem_cons_self), ← hsame]
      cases request with
      | create r' body =>
        refine if_neg ?_
        rintro rfl
        exact hown r'.table (by cases r' <;> first | exact List.mem_singleton_self _ | cases hr) rfl
      | update r' id body =>
        refine if_neg ?_
        rintro rfl
        exact hown r'.table (by cases r' <;> first | exact List.mem_singleton_self _ | cases hr) rfl
      | delete r' id =>
        refine if_neg ?_
        rintro rfl
        exact hown r'.table (List.mem_append_left _ List.mem_cons_self) rfl
      | _ => rfl
  · rw [unsuccessful_changes_nothing k request db hgood]

/-- **A list that follows the answers** is the list of the server, over any run of requests whose
    other requests change neither the table of the resource nor those its list takes names from. -/
theorem mirror_run {r : Resource} {render : Record → DB → Except Exn Json}
    (hr : r.mirrored = some render) {log : List (Clock × Request)}
    (hlog : ∀ p ∈ log, p.2.For r ∨ ∀ t ∈ r.table :: r.named, t ∉ p.2.writes) {db : DB}
    (hv : Valid db) {items : List Json}
    (hitems : listResource r db = { status := 200, body := .list items }) :
    listResource r (afterAll log db) =
      { status := 200, body := .list (followAll r log db items) } := by
  induction log generalizing db items with
  | nil => exact hitems
  | cons p log ih =>
    obtain ⟨k, request⟩ := p
    have hv' : Valid (handle k request db).2 := handle_valid hv
    refine ih (fun p hp => hlog p (List.mem_cons_of_mem _ hp)) hv' ?_
    have hmap : items = (db r.table).map (rendered render db) := by
      rw [mirrored_list hr hv] at hitems
      injection hitems with _ hbody
      injection hbody with hbody
      exact hbody.symm
    rw [mirrored_list hr hv', hmap, follow_handle hr (hlog _ List.mem_cons_self) hv]

/-- Two catalogs are added, with a menu in between; the first one is renamed and the second one
    deleted. -/
def catalogLog : List (Clock × Request) :=
  [(.epoch, newCatalog), (.epoch, newMenu), (.epoch, newCatalog),
   (.epoch, .update .catalog 1 (.json (.dict [(.standardName, .str "病历书写规范")]))),
   (.epoch, .delete .catalog 2)]

/-- The renamed catalog is left, and the menu. -/
theorem mirror_run_catalog :
    listResource .catalog (afterAll catalogLog fun _ => []) =
        { status := 200
          body := .list
            [.dict
              [(.id, .int 1), (.standardName, .str "病历书写规范"),
               (.standardShortName, .str "电子病历"), (.mnemonic, .str "DZBL"),
               (.content, .str "病历"), (.enabledStatus, .int 1), (.version, .str "1.0")]] } ∧
      (afterAll catalogLog fun _ => []) .menu ≠ [] := by
  refine ⟨(mirror_run (r := .catalog) rfl (fun p hp => ?_) valid_empty rfl).trans ?_, ?_⟩
  · simp only [catalogLog, List.mem_cons, List.not_mem_nil, or_false] at hp
    rcases hp with rfl | rfl | rfl | rfl | rfl
    · exact Or.inl (Or.inl ⟨_, rfl⟩)
    · exact Or.inr (by decide)
    · exact Or.inl (Or.inl ⟨_, rfl⟩)
    · exact Or.inl (Or.inr (Or.inl ⟨_, _, rfl⟩))
    · exact Or.inl (Or.inr (Or.inr ⟨_, rfl⟩))
  · rfl
  · decide +kernel

end ProjectEvaluation.Backend
