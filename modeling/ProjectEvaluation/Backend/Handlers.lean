import ProjectEvaluation.Backend.Orm

/-!
# The handlers of `routes.py`, by family

Most handlers of `routes.py` are written after one of three patterns: a create
handler reads the body and adds a row, an update handler loads a row by the id
of the path and assigns its attributes one by one, a delete handler loads a row
and deletes it. Each pattern is one program on the session, with what differs
between its handlers as parameters.

Results:
* `run_createHandler`, `run_updateHandler`, `run_deleteHandler`: what a handler
  answers and what it leaves in the database, without the session.
* `createHandler_cases`, `updateHandler_cases`, `deleteHandler_cases`: a handler
  either refuses and leaves the database as it was, or succeeds and carries out
  its operations.
-/

namespace ProjectEvaluation.Backend

open Python Relational Transaction

/-! ## Requests and responses -/

/-- A response: the status and the JSON body. -/
structure Response where
  status : ℕ
  body : Json

/-- A success response. -/
def Response.Success (r : Response) : Prop := r.status < 400

instance (r : Response) : Decidable r.Success := by unfold Response.Success; infer_instance

/-- The body of a request. A body that is not declared to be JSON counts as
    `None`. -/
inductive Body
  | malformed
  | json (j : Json)

/-- `request.get_json()`. -/
def Body.getJson : Body → Except Exn Json
  | .malformed => .error .badRequest
  | .json j => .ok j

/-- A handler: a program on the session that returns a response. -/
abbrev Handler := Txn DB Op Exn Response

/-- The response to an uncaught exception (its HTML page is left out). -/
def uncaught (e : Exn) : Response :=
  { status := if e = .badRequest then 400 else 500, body := .null }

/-- `jsonify({'error': message}), status`. -/
def refuse (status : ℕ) (message : String) : Response :=
  { status, body := .dict [(.error, .str message)] }

/-- `jsonify({'message': message})`. -/
def done (message : String) : Json := .dict [(.message, .str message)]

/-- Serve a request: what the handler did not commit is dropped. -/
def run (h : Handler) (db : DB) : Response × DB := serve uncaught h db

theorem uncaught_not_success (e : Exn) : ¬ (uncaught e).Success := by
  cases e <;> decide

theorem refuse_not_success {status : ℕ} (h : 400 ≤ status) (message : String) :
    ¬ (refuse status message).Success := Nat.not_lt.mpr h

/-! ## Reading the body -/

/-- The value a create handler gives to an attribute: `f=data['f']`,
    `f=data.get('f', default)`, or something computed before. -/
inductive Source
  | item (f : Field)
  | get (f : Field) (default : Json)
  | put (f : Field) (a : Attr)

/-- The attribute a source is for. -/
def Source.field : Source → Field
  | .item f => f
  | .get f _ => f
  | .put f _ => f

/-- The value of a source. -/
def Source.eval (data : Json) : Source → Except Exn Attr
  | .item f => (data.item f).map .json
  | .get f default => (data.getD f default).map .json
  | .put _ a => .ok a

/-- The attributes of a constructor call `Model(…)`, evaluated in order. -/
def construct (data : Json) : List Source → Except Exn (List (Field × Attr))
  | [] => .ok []
  | s :: sources => (s.eval data).bind fun a => (construct data sources).map ((s.field, a) :: ·)

theorem construct_cons (data : Json) (s : Source) (sources : List Source) :
    construct data (s :: sources) =
      (s.eval data).bind fun a => (construct data sources).map ((s.field, a) :: ·) := rfl

/-- An assignment of an update handler: the attribute, and its new value unless
    the handler leaves it alone. Evaluating the right-hand side may raise. -/
abbrev Assignment := Field × Except Exn (Option Attr)

/-- `row.f = data.get('f', row.f)`. -/
def keep (data : Json) (row : Record) (f : Field) : Assignment :=
  (f, (data.get f).map fun j => some (j.elim (.value (row.cell f)) .json))

/-- The staged operation of an assignment. -/
def Assignment.op (t : Table) (id : ℕ) (a : Assignment) : Except Exn (Option Op) :=
  a.2.map fun x => x.map fun v => .assign t id a.1 v

/-- `if Model.query.filter_by(f=data['f']).first()`. -/
def taken (t : Table) (f : Field) (data : Json) (db : DB) : Except Exn Bool := do
  exists? t f (← data.item f) db

/-- `data['f'] != row.f and Model.query.filter_by(f=data['f']).first()`. -/
def takenByOther (t : Table) (f : Field) (data : Json) (row : Record) (db : DB) :
    Except Exn Bool := do
  let j ← data.item f
  if equalsText j (row.cell f) then .ok false else exists? t f j db

/-- `if check: return jsonify({'error': message}), 400`, before the rest of a handler. -/
def refuseIf {α : Type} (check : Except Exn Bool) (message : String)
    (rest : Except Exn (Response ⊕ α)) :
    Except Exn (Response ⊕ α) :=
  check.bind fun found => if found then .ok (.inl (refuse 400 message)) else rest

theorem refuseIf_inl {α : Type} {check : Except Exn Bool} {message : String}
    {rest : Except Exn (Response ⊕ α)} {r : Response}
    (h : refuseIf check message rest = .ok (.inl r))
    (hrest : rest = .ok (.inl r) → ¬ r.Success) : ¬ r.Success := by
  obtain ⟨found, -, h⟩ := bind_eq_ok.mp h
  cases found with
  | true => cases h; exact refuse_not_success (by norm_num) _
  | false => exact hrest h

theorem refuseIf_ok_inl {α : Type} {check : Except Exn Bool} {message : String} {a : α}
    {r : Response}
    (h : refuseIf check message (.ok (.inr a)) = .ok (.inl r)) : ¬ r.Success :=
  refuseIf_inl h fun h => by cases h

theorem refuseIf_inr {α : Type} {check : Except Exn Bool} {message : String}
    {rest : Except Exn (Response ⊕ α)} {a : α} :
    refuseIf check message rest = .ok (.inr a) ↔ check = .ok false ∧ rest = .ok (.inr a) := by
  unfold refuseIf
  rw [bind_eq_ok]
  constructor
  · rintro ⟨found, hcheck, h⟩
    cases found with
    | true => cases h
    | false => exact ⟨hcheck, h⟩
  · rintro ⟨hcheck, h⟩
    exact ⟨false, hcheck, h⟩

theorem map_inr_inl {α : Type} {x : Except Exn α} {r : Response} :
    (x.map Sum.inr : Except Exn (Response ⊕ α)) ≠ .ok (.inl r) := by
  cases x <;> nofun

theorem map_inr_inr {α : Type} {x : Except Exn α} {a : α} :
    (x.map Sum.inr : Except Exn (Response ⊕ α)) = .ok (.inr a) ↔ x = .ok a := by
  cases x <;> simp [Except.map]

/-! ## Answers -/

/-- An attribute of a row as JSON. -/
def shown (row : Record) (f : Field) : Json := if f = .id then .int row.id else (row.cell f).toJson

/-- The object of some attributes of a row. -/
def object (fields : List Field) (row : Record) : Json :=
  .dict (fields.map fun f => (f, shown row f))

/-- An object of a list has the id `id`. -/
def hasId (id : ℕ) (object : Json) : Bool :=
  match object.get .id with
  | .ok (some (.int n)) => n == id
  | _ => false

/-- Answer with some attributes of the row. -/
def answer (fields : List Field) (row : Record) (_ : DB) : Except Exn Json :=
  .ok (object fields row)

/-- Answer with the id of the row and a message. -/
def answerId (message : String) (row : Record) (_ : DB) : Except Exn Json :=
  .ok (.dict [(.id, .int row.id), (.message, .str message)])

/-- Answer with a message. -/
def answerDone (message : String) (_ : Record) (_ : DB) : Except Exn Json := .ok (done message)

/-- The GET-by-id handlers: the object a row is rendered as, or 404. -/
def getHandler (t : Table) (missing : String) (render : Record → DB → Except Exn Json)
    (id : ℕ) (db : DB) :
    Response :=
  match (getById t id db).bind fun
    | none => .ok (refuse 404 missing)
    | some row => (render row db).map fun body => { status := 200, body } with
  | .ok response => response
  | .error e => uncaught e

/-! ## The families -/

/-- `query.get` of a row that was committed before: the refresh of an expired
    instance. -/
def reload (t : Table) (id : ℕ) (db : DB) : Except Exn Record :=
  (getById t id db).bind fun
    | some row => .ok row
    | none => .error .objectDeletedError

/-- The create handlers: read the body, check it, add a row, commit, and answer
    with the new row. -/
def createHandler (k : Clock) (t : Table)
    (prepare : Json → DB → Except Exn (Response ⊕ List (Field × Attr)))
    (reply : Record → DB → Except Exn Json) (body : Body) : Handler := do
  let data ← ofResult body.getJson
  match ← query applyOp (prepare data) with
  | .inl refusal => pure refusal
  | .inr attrs =>
    let id ← query applyOp fun db => .ok (nextId (db t))
    stage (.insert k t attrs)
    commit applyOp
    let row ← query applyOp (reload t id)
    let body ← query applyOp (reply row)
    pure { status := 201, body }

/-- The update handlers: load the row, read the body, check it, assign the
    attributes, commit, and answer with the row. -/
def updateHandler (t : Table) (missing : String)
    (prepare : Json → Record → DB → Except Exn (Response ⊕ List Assignment))
    (reply : Record → DB → Except Exn Json) (id : ℕ) (body : Body) : Handler := do
  match ← query applyOp (getById t id) with
  | none => pure (refuse 404 missing)
  | some row =>
    let data ← ofResult body.getJson
    match ← query applyOp (prepare data row) with
    | .inl refusal => pure refusal
    | .inr assignments =>
      stageAll (assignments.map (Assignment.op t id))
      commit applyOp
      let row ← query applyOp (reload t id)
      let body ← query applyOp (reply row)
      pure { status := 200, body }

/-- The delete handlers: load the row, delete the rows `cascade` finds and the
    row itself, commit. -/
def deleteHandler (t : Table) (missing ok : String)
    (cascade : Record → DB → Except Exn (List (Table × ℕ))) (id : ℕ) : Handler := do
  match ← query applyOp (getById t id) with
  | none => pure (refuse 404 missing)
  | some row =>
    let others ← query applyOp (cascade row)
    stageAll (others.map fun o => .ok (some (.delete o.1 o.2)))
    stage (.delete t id)
    commit applyOp
    pure { status := 200, body := done ok }

/-! ## Without the session -/

theorem reload_congr {t : Table} {id : ℕ} {db db' : DB} (h : db' t = db t) :
    reload t id db' = reload t id db := by
  unfold reload getById
  rw [h]

theorem reload_newRow {k : Clock} {t : Table} {attrs : List (Field × Attr)} {db db' : DB}
    (h : insertRow k t attrs db = .ok db') :
    reload t (nextId (db t)) db' = .ok (newRow k t attrs db) := by
  obtain ⟨hid, -, rfl⟩ := insertRow_eq_ok.mp h
  have hfind := find_append_new (db t) (newRow k t attrs db) rfl
  rw [reload, getById_eq_some.mpr ⟨hid, by rw [insert_same]; exact hfind⟩]
  rfl

theorem exec_query_init {α : Type} (f : DB → Except Exn α) {db : DB} :
    exec (query applyOp f) (Session.init db) = (f db, Session.init db) :=
  exec_query_clean applyOp f rfl

theorem exec_execute_init (o : Op) {db : DB} :
    exec (execute applyOp o) (Session.init db) =
      match applyOp o db with
      | .ok w => (.ok (), { committed := db, work := w, pending := [] })
      | .error e => (.error e, Session.init db) := by
  rw [exec_execute_clean applyOp o (Session.init_pending db), Session.init_work]
  cases applyOp o db <;> rfl

/-- **What a create handler does.** -/
theorem run_createHandler (k : Clock) (t : Table)
    (prepare : Json → DB → Except Exn (Response ⊕ List (Field × Attr)))
    (reply : Record → DB → Except Exn Json) (body : Body) (db : DB) :
    run (createHandler k t prepare reply body) db =
      match body.getJson.bind fun data => prepare data db with
      | .error e => (uncaught e, db)
      | .ok (.inl refusal) => (refusal, db)
      | .ok (.inr attrs) =>
        match insertRow k t attrs db with
        | .error e => (uncaught e, db)
        | .ok db' =>
          match reply (newRow k t attrs db) db' with
          | .error e => (uncaught e, db')
          | .ok j => ({ status := 201, body := j }, db') := by
  unfold run serve createHandler
  cases hbody : body.getJson with
  | error e => simp [exec_bind, Except.bind]
  | ok data =>
    cases hprep : prepare data db with
    | error e => simp [exec_bind, Except.bind, exec_query_init, hprep]
    | ok x =>
      cases x with
      | inl refusal => simp [exec_bind, Except.bind, exec_query_init, hprep]
      | inr attrs =>
        cases hins : insertRow k t attrs db with
        | error e =>
          simp [exec_bind, Except.bind, exec_query_init, hprep, exec_commit, applyOp, hins]
        | ok db' =>
          cases hreply : reply (newRow k t attrs db) db' with
          | error e =>
            simp [exec_bind, exec_map, Except.bind, exec_query_init, hprep, exec_commit,
              applyOp, hins, exec_query_clean, reload_newRow hins, hreply]
          | ok j =>
            simp [exec_bind, exec_map, Except.bind, exec_query_init, hprep, exec_commit,
              applyOp, hins, exec_query_clean, reload_newRow hins, hreply]

/-- The operations an update handler stages. -/
def updateOps (t : Table) (id : ℕ) (assignments : List Assignment) : Except Exn (List Op) :=
  stagedOps (assignments.map (Assignment.op t id))

/-- **What an update handler does.** -/
theorem run_updateHandler (t : Table) (missing : String)
    (prepare : Json → Record → DB → Except Exn (Response ⊕ List Assignment))
    (reply : Record → DB → Except Exn Json) (id : ℕ) (body : Body) (db : DB) :
    run (updateHandler t missing prepare reply id body) db =
      match getById t id db with
      | .error e => (uncaught e, db)
      | .ok none => (refuse 404 missing, db)
      | .ok (some row) =>
        match body.getJson.bind fun data => prepare data row db with
        | .error e => (uncaught e, db)
        | .ok (.inl refusal) => (refusal, db)
        | .ok (.inr assignments) =>
          match (updateOps t id assignments).bind fun ops => applyAll applyOp ops db with
          | .error e => (uncaught e, db)
          | .ok db' =>
            match (reload t id db').bind fun row => reply row db' with
            | .error e => (uncaught e, db')
            | .ok j => ({ status := 200, body := j }, db') := by
  unfold run serve updateHandler
  cases hget : getById t id db with
  | error e => simp [exec_bind, exec_query_init, hget]
  | ok found =>
    cases found with
    | none => simp [exec_bind, exec_query_init, hget]
    | some row =>
      cases hbody : body.getJson with
      | error e => simp [exec_bind, exec_query_init, hget, Except.bind]
      | ok data =>
        cases hprep : prepare data row db with
        | error e => simp [exec_bind, exec_query_init, hget, hprep, Except.bind]
        | ok x =>
          cases x with
          | inl refusal => simp [exec_bind, exec_query_init, hget, hprep, Except.bind]
          | inr assignments =>
            have hstage := exec_stageAll (assignments.map (Assignment.op t id)) (Session.init db)
            rcases hstage with ⟨e, p, hops, hexec⟩ | ⟨ops, hops, hexec⟩
            · simp [exec_bind, exec_query_init, hget, hprep, updateOps, hops, hexec, Except.bind]
            · cases hall : applyAll applyOp ops db with
              | error e =>
                simp [exec_bind, exec_query_init, hget, hprep, updateOps, hops, hexec, exec_commit,
                  hall, Except.bind]
              | ok db' =>
                cases hreload : reload t id db' with
                | error e =>
                  simp [exec_bind, exec_query_init, hget, hprep, updateOps, hops, hexec,
                    exec_commit, hall, exec_query_clean, hreload, Except.bind]
                | ok row' =>
                  cases hreply : reply row' db' <;>
                    simp [exec_bind, exec_map, exec_query_init, hget, hprep, updateOps, hops, hexec,
                      exec_commit, hall, exec_query_clean, hreload, hreply, Except.bind]

/-- The operations a delete handler stages. -/
def deleteOps (t : Table) (id : ℕ) (others : List (Table × ℕ)) : List Op :=
  others.map (fun o => .delete o.1 o.2) ++ [.delete t id]

theorem deleteOps_eq (t : Table) (id : ℕ) (others : List (Table × ℕ)) :
    deleteOps t id others = (others ++ [(t, id)]).map fun p => .delete p.1 p.2 := by
  rw [deleteOps, List.map_append]
  rfl

/-- **What a delete handler does.** -/
theorem run_deleteHandler (t : Table) (missing ok : String)
    (cascade : Record → DB → Except Exn (List (Table × ℕ))) (id : ℕ) (db : DB) :
    run (deleteHandler t missing ok cascade id) db =
      match getById t id db with
      | .error e => (uncaught e, db)
      | .ok none => (refuse 404 missing, db)
      | .ok (some row) =>
        match (cascade row db).bind fun others => applyAll applyOp (deleteOps t id others) db with
        | .error e => (uncaught e, db)
        | .ok db' => ({ status := 200, body := done ok }, db') := by
  unfold run serve deleteHandler
  cases hget : getById t id db with
  | error e => simp [exec_bind, exec_query_init, hget]
  | ok found =>
    cases found with
    | none => simp [exec_bind, exec_query_init, hget]
    | some row =>
      cases hcas : cascade row db with
      | error e => simp [exec_bind, exec_query_init, hget, hcas, Except.bind]
      | ok others =>
        have hexec := exec_stageAll_ok (ε := Exn) (others.map fun o => Op.delete o.1 o.2)
          (Session.init db)
        simp only [List.map_map, Function.comp_def] at hexec
        cases hall : applyAll applyOp (deleteOps t id others) db <;>
          rw [deleteOps] at hall <;>
          simp [exec_bind, exec_map, exec_query_init, hget, hcas, hexec, exec_commit,
            hall, deleteOps, Except.bind]

/-! ## What a request can do -/

/-- A handler either refuses and leaves the database as it was, or it succeeds and
    leaves a database with the property `done`. -/
def Runs (db : DB) (out : Response × DB) (done : DB → Prop) : Prop :=
  (¬ out.1.Success ∧ out.2 = db) ∨ (out.1.Success ∧ done out.2)

theorem Runs.imp {db : DB} {out : Response × DB} {done done' : DB → Prop} (h : Runs db out done)
    (himp : ∀ db', done db' → done' db') : Runs db out done' :=
  h.imp_right fun ⟨hgood, hdone⟩ => ⟨hgood, himp _ hdone⟩

/-- **The runs of a create handler.** It refuses, or it inserts a row. -/
theorem createHandler_cases {k : Clock} {t : Table}
    {prepare : Json → DB → Except Exn (Response ⊕ List (Field × Attr))}
    {reply : Record → DB → Except Exn Json} {body : Body} {db : DB}
    (hrefuse : ∀ data r, prepare data db = .ok (.inl r) → ¬ r.Success)
    (hreply : ∀ data attrs db', prepare data db = .ok (.inr attrs) →
      insertRow k t attrs db = .ok db' →
      ∃ j, reply (newRow k t attrs db) db' = .ok j)
    {out : Response × DB} (hout : run (createHandler k t prepare reply body) db = out) :
    Runs db out fun db' =>
      ∃ data attrs, body = .json data ∧ prepare data db = .ok (.inr attrs) ∧
        insertRow k t attrs db = .ok db' := by
  rw [run_createHandler] at hout
  cases body with
  | malformed => subst hout; exact Or.inl ⟨uncaught_not_success _, rfl⟩
  | json data =>
    simp only [Body.getJson, Except.bind] at hout
    split at hout
    · subst hout; exact Or.inl ⟨uncaught_not_success _, rfl⟩
    · rename_i r hprep; subst hout; exact Or.inl ⟨hrefuse data r hprep, rfl⟩
    · rename_i attrs hprep
      cases hins : insertRow k t attrs db with
      | error e => rw [hins] at hout; subst hout; exact Or.inl ⟨uncaught_not_success _, rfl⟩
      | ok db' =>
        obtain ⟨j, hj⟩ := hreply data attrs db' hprep hins
        rw [hins] at hout
        simp only [hj] at hout
        subst hout
        exact Or.inr ⟨(by norm_num : 201 < 400), data, attrs, rfl, hprep, hins⟩

/-- The value an assignment stores, if it stores one. -/
def Assignment.value (t : Table) (a : Assignment) : Option (Field × Value) :=
  match a.2 with
  | .ok (some v) => (t.column a.1).bind fun c => (v.bind c.type).toOption.map fun x => (a.1, x)
  | _ => none

/-- The values an update handler stores. -/
def updateValues (t : Table) (assignments : List Assignment) : List (Field × Value) :=
  assignments.filterMap (Assignment.value t)

theorem mem_updateValues {t : Table} {assignments : List Assignment} {f : Field} {w : Value} :
    (f, w) ∈ updateValues t assignments ↔
      ∃ v c, (f, .ok (some v)) ∈ assignments ∧ t.column f = some c ∧ v.bind c.type = .ok w := by
  simp only [updateValues, List.mem_filterMap]
  constructor
  · rintro ⟨⟨g, x⟩, hmem, hvalue⟩
    unfold Assignment.value at hvalue
    split at hvalue
    · rename_i v hx
      simp only at hx
      subst hx
      obtain ⟨c, hc, hw⟩ := Option.bind_eq_some_iff.mp hvalue
      cases hbind : v.bind c.type with
      | error e => rw [hbind] at hw; cases hw
      | ok w' =>
        rw [hbind] at hw
        cases hw
        exact ⟨v, c, hmem, hc, hbind⟩
    · cases hvalue
  · rintro ⟨v, c, hmem, hc, hbind⟩
    exact ⟨(f, .ok (some v)), hmem, by simp [Assignment.value, hc, hbind, Except.toOption]⟩

theorem updateValues_nodup {t : Table} {assignments : List Assignment}
    (h : (assignments.map Prod.fst).Nodup) : ((updateValues t assignments).map Prod.fst).Nodup := by
  have hfst : ∀ a p, Assignment.value t a = some p → p.1 = a.1 := by
    intro a p hp
    unfold Assignment.value at hp
    split at hp
    · obtain ⟨c, -, hw⟩ := Option.bind_eq_some_iff.mp hp
      obtain ⟨w, -, rfl⟩ := Option.map_eq_some_iff.mp hw
      rfl
    · cases hp
  induction assignments with
  | nil => exact List.nodup_nil
  | cons a assignments ih =>
    rw [List.map_cons, List.nodup_cons] at h
    rw [updateValues, List.filterMap_cons]
    cases ha : Assignment.value t a with
    | none => exact ih h.2
    | some p =>
      refine List.nodup_cons.mpr ⟨fun hmem => h.1 ?_, ih h.2⟩
      obtain ⟨q, hq, hqp⟩ := List.mem_map.mp hmem
      obtain ⟨b, hb, hbq⟩ := List.mem_filterMap.mp hq
      rw [← hfst a p ha, ← hqp, hfst b q hbq]
      exact List.mem_map_of_mem hb

/-- The value of a cell that a handler assigns. -/
theorem assigned_cell {t : Table} {assignments : List Assignment}
    (hnodup : (assignments.map Prod.fst).Nodup)
    (row : Record) {f : Field} {v : Attr} (hmem : (f, .ok (some v)) ∈ assignments) {c : Column}
    (hc : t.column f = some c) {w : Value} (hbind : v.bind c.type = .ok w) :
    (assignCells row (updateValues t assignments)).cell f = w :=
  assignCells_of_mem row (updateValues_nodup hnodup) (mem_updateValues.mpr ⟨v, c, hmem, hc, hbind⟩)

/-- The value of a cell that a handler leaves alone. -/
theorem unassigned_cell {t : Table} {assignments : List Assignment} (row : Record) {f : Field}
    (h : ∀ v, (f, .ok (some v)) ∉ assignments) :
    (assignCells row (updateValues t assignments)).cell f = row.cell f :=
  assignCells_of_not_mem row fun w hw => by
    obtain ⟨v, c, hmem, -⟩ := mem_updateValues.mp hw
    exact h v hmem

/-- **What the assignments of an update handler do.** Each of them evaluates, can be
    bound and is not NULL in a column that is NOT NULL, and together they assign
    the cells of one row. -/
theorem updateOps_eq {t : Table} {id : ℕ} {assignments : List Assignment} {ops : List Op}
    {db db' : DB}
    (hops : updateOps t id assignments = .ok ops) (h : applyAll applyOp ops db = .ok db') :
    db' = setCells db t id (updateValues t assignments) ∧
      ∀ a ∈ assignments, ∃ x, a.2 = .ok x ∧ ∀ v, x = some v → ∀ c, t.column a.1 = some c →
        ∃ w, v.bind c.type = .ok w ∧ (w = .null → c.nullable = true) := by
  induction assignments generalizing ops db with
  | nil => cases hops; cases h; exact ⟨rfl, fun _ ha => nomatch ha⟩
  | cons a assignments ih =>
    obtain ⟨f, x⟩ := a
    simp only [updateOps, List.map_cons, Assignment.op] at hops
    cases x with
    | error e => cases hops
    | ok x =>
      cases x with
      | none =>
        obtain ⟨hdb, hall⟩ := ih hops h
        refine ⟨hdb, fun a ha => ?_⟩
        rcases List.mem_cons.mp ha with rfl | ha
        · exact ⟨none, rfl, fun v hv => nomatch hv⟩
        · exact hall a ha
      | some v =>
        simp only [Except.map, Option.map, stagedOps] at hops
        obtain ⟨ops', hops', rfl⟩ := map_eq_ok.mp hops
        rw [applyAll_cons, bind_eq_ok] at h
        obtain ⟨db₁, hassign, h⟩ := h
        obtain ⟨hdb, hall⟩ := ih hops' h
        have hcons : db' = setCells db t id (updateValues t ((f, .ok (some v)) :: assignments)) ∧
            ∀ c, t.column f = some c → ∃ w,
              v.bind c.type = .ok w ∧ (w = .null → c.nullable = true) := by
          rcases assign_cases hassign with ⟨hc, rfl⟩ | ⟨c, w, hc, hbind, hadm, rfl⟩
          · refine ⟨?_, fun c hc' => by rw [hc] at hc'; cases hc'⟩
            simpa [updateValues, Assignment.value, hc] using hdb
          · refine ⟨?_, fun c' hc' => ?_⟩
            · simpa [updateValues, Assignment.value, hc, hbind, Except.toOption, setCells] using hdb
            · rw [hc] at hc'; cases hc'; exact ⟨w, hbind, hadm.1⟩
        refine ⟨hcons.1, fun a ha => ?_⟩
        rcases List.mem_cons.mp ha with rfl | ha
        · exact ⟨some v, rfl, fun v' hv' => by cases hv'; exact hcons.2⟩
        · exact hall a ha

/-- The operations of an update handler change one row at most. -/
theorem sameBut_updateOps {t : Table} {id : ℕ} {assignments : List Assignment} {ops : List Op}
    {db db' : DB}
    (hops : updateOps t id assignments = .ok ops) (h : applyAll applyOp ops db = .ok db') :
    SameBut t id db db' := by
  rw [(updateOps_eq hops h).1]
  exact sameBut_setCells db t id _

/-- **The runs of an update handler.** It refuses, or it carries out its
    assignments to the row it found. -/
theorem updateHandler_cases {t : Table} {missing : String}
    {prepare : Json → Record → DB → Except Exn (Response ⊕ List Assignment)}
    {reply : Record → DB → Except Exn Json} {id : ℕ} {body : Body} {db : DB}
    (hrefuse : ∀ data row r, prepare data row db = .ok (.inl r) → ¬ r.Success)
    (hreply : ∀ data row assignments ops db' row', prepare data row db = .ok (.inr assignments) →
      updateOps t id assignments = .ok ops → applyAll applyOp ops db = .ok db' →
      find (db' t) id = some row' → ∃ j, reply row' db' = .ok j)
    {out : Response × DB} (hout : run (updateHandler t missing prepare reply id body) db = out) :
    Runs db out fun db' =>
      ∃ row data assignments ops, id < 2 ^ 63 ∧ find (db t) id = some row ∧
        body = .json data ∧ prepare data row db = .ok (.inr assignments) ∧
        updateOps t id assignments = .ok ops ∧ applyAll applyOp ops db = .ok db' := by
  rw [run_updateHandler] at hout
  split at hout
  · subst hout; exact Or.inl ⟨uncaught_not_success _, rfl⟩
  · subst hout; exact Or.inl ⟨refuse_not_success (by norm_num) _, rfl⟩
  rename_i row hget
  obtain ⟨hid, hfind⟩ := getById_eq_some.mp hget
  cases body with
  | malformed => subst hout; exact Or.inl ⟨uncaught_not_success _, rfl⟩
  | json data =>
    simp only [Body.getJson, Except.bind] at hout
    split at hout
    · subst hout; exact Or.inl ⟨uncaught_not_success _, rfl⟩
    · rename_i r hprep; subst hout; exact Or.inl ⟨hrefuse data row r hprep, rfl⟩
    rename_i assignments hprep
    cases hops : updateOps t id assignments with
    | error e => rw [hops] at hout; subst hout; exact Or.inl ⟨uncaught_not_success _, rfl⟩
    | ok ops =>
      simp only [hops] at hout
      cases hall : applyAll applyOp ops db with
      | error e => rw [hall] at hout; subst hout; exact Or.inl ⟨uncaught_not_success _, rfl⟩
      | ok db' =>
        obtain ⟨row', hrow'⟩ := find_isSome_of_ids ((sameBut_updateOps hops hall).ids t) hfind
        obtain ⟨j, hj⟩ := hreply data row assignments ops db' row' hprep hops hall hrow'
        have hreload : reload t id db' = .ok row' := by
          rw [reload, getById_eq_some.mpr ⟨hid, hrow'⟩]; rfl
        simp only [hall, hreload, hj] at hout
        subst hout
        exact Or.inr ⟨(by norm_num : 200 < 400), row, data, assignments, ops, hid, hfind, rfl,
          hprep, hops, hall⟩

/-- An update handler whose assignments can be carried out succeeds. -/
theorem updateHandler_succeeds {t : Table} {missing : String}
    {prepare : Json → Record → DB → Except Exn (Response ⊕ List Assignment)}
    {reply : Record → DB → Except Exn Json} {id : ℕ} {data : Json} {db db' : DB} {row : Record}
    {assignments : List Assignment} {ops : List Op} (hid : id < 2 ^ 63)
    (hfind : find (db t) id = some row)
    (hprep : prepare data row db = .ok (.inr assignments))
    (hops : updateOps t id assignments = .ok ops)
    (hall : applyAll applyOp ops db = .ok db')
    (hreply : ∀ row', find (db' t) id = some row' → ∃ j, reply row' db' = .ok j) :
    (run (updateHandler t missing prepare reply id (.json data)) db).1.Success ∧
      (run (updateHandler t missing prepare reply id (.json data)) db).2 = db' := by
  obtain ⟨row', hrow'⟩ := find_isSome_of_ids ((sameBut_updateOps hops hall).ids t) hfind
  obtain ⟨j, hj⟩ := hreply row' hrow'
  have hget : getById t id db = .ok (some row) := getById_eq_some.mpr ⟨hid, hfind⟩
  have hreload : reload t id db' = .ok row' := by
    rw [reload, getById_eq_some.mpr ⟨hid, hrow'⟩]; rfl
  rw [run_updateHandler, hget]
  simp only [Body.getJson, Except.bind, hprep, hops, hall, hreload, hj, and_true]
  exact (by norm_num : 200 < 400)

/-- **The runs of a delete handler.** It refuses, or it carries out its
    deletions. -/
theorem deleteHandler_cases {t : Table} {missing ok : String}
    {cascade : Record → DB → Except Exn (List (Table × ℕ))} {id : ℕ} {db : DB}
    {out : Response × DB} (hout : run (deleteHandler t missing ok cascade id) db = out) :
    Runs db out fun db' =>
      ∃ row others, id < 2 ^ 63 ∧ find (db t) id = some row ∧
        cascade row db = .ok others ∧ applyAll applyOp (deleteOps t id others) db = .ok db' := by
  rw [run_deleteHandler] at hout
  split at hout
  · subst hout; exact Or.inl ⟨uncaught_not_success _, rfl⟩
  · subst hout; exact Or.inl ⟨refuse_not_success (by norm_num) _, rfl⟩
  rename_i row hget
  obtain ⟨hid, hfind⟩ := getById_eq_some.mp hget
  cases hcas : cascade row db with
  | error e => rw [hcas] at hout; subst hout; exact Or.inl ⟨uncaught_not_success _, rfl⟩
  | ok others =>
    simp only [hcas, Except.bind] at hout
    cases hall : applyAll applyOp (deleteOps t id others) db with
    | error e => rw [hall] at hout; subst hout; exact Or.inl ⟨uncaught_not_success _, rfl⟩
    | ok db' =>
      rw [hall] at hout
      subst hout
      exact Or.inr ⟨(by norm_num : 200 < 400), row, others, hid, hfind, hcas, hall⟩

end ProjectEvaluation.Backend
