import ProjectEvaluation.Backend.Models
import ProjectEvaluation.Lib.Transaction

/-!
# What the session does to the database

The operations a session stages and a flush carries out: `session.add` of a new
row, the assignment of an attribute, `session.delete`, a bulk delete and the
replacement of the role list of a courseware. Each may fail: a value that
cannot be bound, a NOT NULL or a UNIQUE constraint. SQLite does not check
foreign keys (the program never turns that on).

Results:
* `insertRow_eq_ok`, `assign_eq_ok`, `deleteRow_eq_ok`: when an operation
  succeeds, and what it does.
-/

namespace ProjectEvaluation.Backend

open Python Relational Transaction

/-! ## Attributes -/

/-- The clocks a request reads: `datetime.now()`, and CURRENT_TIMESTAMP, which
    is in UTC. -/
structure Clock where
  localDate : Date
  utcDate : Date
  utcTime : Time

/-- The clocks at the epoch. -/
def Clock.epoch : Clock where
  localDate := ⟨1970, 1, 1, by decide⟩
  utcDate := ⟨1970, 1, 1, by decide⟩
  utcTime := ⟨0, 0, 0, by decide⟩

/-- What a handler assigns to a mapped attribute: a value of the request body,
    or the value of an attribute and what Python computes from it. -/
inductive Attr
  | json (j : Json)
  | value (v : Value)

/-- `attr is None`. -/
def Attr.isNone : Attr → Bool
  | .json .null => true
  | .value .null => true
  | _ => false

/-- The value a column of a given type stores for an attribute. -/
def Attr.bind (ty : ColType) : Attr → Except Exn Value
  | .json j => bindJson ty j
  | .value v => if Canonical ty v then .ok v else .error .statementError

theorem Attr.bind_canonical {ty : ColType} {a : Attr} {v : Value} (h : a.bind ty = .ok v) :
    Canonical ty v := by
  cases a with
  | json j => exact bindJson_canonical h
  | value w =>
    simp only [Attr.bind] at h
    split_ifs at h with hw
    cases h
    exact hw

theorem Attr.bind_value {ty : ColType} {v : Value} (h : Canonical ty v) :
    (Attr.value v).bind ty = .ok v := if_pos h

/-- `None` is stored as NULL. -/
theorem Attr.bind_none {ty : ColType} {a : Attr} (h : a.isNone = true) : a.bind ty = .ok .null := by
  cases a with
  | json j =>
    cases j with
    | null => cases ty <;> rfl
    | _ => cases h
  | value v =>
    cases v with
    | null => exact Attr.bind_value (canonical_null ty)
    | _ => cases h

/-- `db.func.current_date()`. -/
def Clock.currentDate (k : Clock) : Attr := .value (.date k.utcDate)

/-- The value of a `default=`. -/
def Default.eval (k : Clock) : Default → Value
  | .value v => v
  | .currentDate => .date k.utcDate
  | .currentTimestamp => .dateTime k.utcDate k.utcTime

/-- The value a column gets when no value is given. -/
def Column.absent (k : Clock) (c : Column) : Value := (c.default.map (Default.eval k)).getD .null

/-- The value of a column of a new row. An attribute that is `None` counts as
    not given. -/
def Column.initial (k : Clock) (attrs : List (Field × Attr)) (c : Column) : Except Exn Value :=
  match attrs.lookup c.field with
  | some a => if a.isNone then .ok (c.absent k) else a.bind c.type
  | none => .ok (c.absent k)

/-- A column stores what it is given, unless that is `None` and the column has a
    default. -/
theorem Column.initial_eq_bind (k : Clock) {attrs : List (Field × Attr)} {c : Column} {a : Attr}
    (hlookup : attrs.lookup c.field = some a) (h : c.default = none ∨ a.isNone = false) :
    c.initial k attrs = a.bind c.type := by
  rw [Column.initial, hlookup]
  show (if a.isNone then .ok (c.absent k) else a.bind c.type) = a.bind c.type
  split_ifs with hnone
  · have hdefault : c.default = none := h.resolve_right fun hsome => by
      rw [hnone] at hsome
      cases hsome
    rw [Attr.bind_none hnone, Column.absent, hdefault]
    rfl
  · rfl

/-- A default is a canonical value of its column. -/
def Column.defaultFits (c : Column) : Bool :=
  match c.default with
  | none => true
  | some (.value v) => decide (Canonical c.type v)
  | some .currentDate => c.type == .date
  | some .currentTimestamp => c.type == .dateTime

/-- Every default passes the check of its own column. -/
theorem columns_defaultFits (t : Table) : ∀ c ∈ t.columns, c.defaultFits = true := by
  cases t <;> decide

theorem Column.absent_canonical (k : Clock) {t : Table} {c : Column} (h : c ∈ t.columns) :
    Canonical c.type (c.absent k) := by
  have hfits := columns_defaultFits t c h
  unfold Column.defaultFits at hfits
  unfold Column.absent
  split at hfits
  case h_1 hd => rw [hd]; exact canonical_null _
  case h_2 v hd => rw [hd]; exact of_decide_eq_true hfits
  case h_3 hd => rw [hd, beq_iff_eq.mp hfits]; exact Or.inr rfl
  case h_4 hd => rw [hd, beq_iff_eq.mp hfits]; exact Or.inr rfl

theorem Column.initial_canonical {k : Clock} {attrs : List (Field × Attr)} {t : Table} {c : Column}
    {v : Value} (hc : c ∈ t.columns) (h : c.initial k attrs = .ok v) : Canonical c.type v := by
  unfold Column.initial at h
  split at h
  · split_ifs at h
    · cases h; exact Column.absent_canonical k hc
    · exact Attr.bind_canonical h
  · cases h; exact Column.absent_canonical k hc

/-! ## Constraints -/

/-- A value that the constraints NOT NULL and UNIQUE of a column allow in the
    row `id` of a table. -/
def Admissible (db : DB) (t : Table) (id : ℕ) (c : Column) (v : Value) : Prop :=
  (v = .null → c.nullable = true) ∧
    (c.unique = true → v ≠ .null → ∀ r ∈ db t, r.id ≠ id → r.cell c.field ≠ v)

instance (db : DB) (t : Table) (id : ℕ) (c : Column) (v : Value) :
    Decidable (Admissible db t id c v) := by
  unfold Admissible; infer_instance

/-- Store a value in a column, if it can be bound and is admissible. -/
def storeColumn (db : DB) (t : Table) (id : ℕ) (c : Column) (x : Except Exn Value) :
    Except Exn Value :=
  x.bind fun v => if Admissible db t id c v then .ok v else .error .integrityError

theorem storeColumn_eq_ok {db : DB} {t : Table} {id : ℕ} {c : Column} {x : Except Exn Value}
    {v : Value} :
    storeColumn db t id c x = .ok v ↔ x = .ok v ∧ Admissible db t id c v := by
  simp only [storeColumn, bind_eq_ok, ite_eq_iff]
  constructor
  · rintro ⟨w, hx, ⟨hw, h⟩ | ⟨-, h⟩⟩
    · cases h; exact ⟨hx, hw⟩
    · cases h
  · rintro ⟨hx, hv⟩
    exact ⟨v, hx, Or.inl ⟨hv, rfl⟩⟩

/-! ## Operations -/

/-- The row `session.add` makes of a list of attributes. -/
def newRow (k : Clock) (t : Table) (attrs : List (Field × Attr)) (db : DB) : Record where
  id := nextId (db t)
  cell f :=
    match t.column f with
    | some c => (c.initial k attrs).toOption.getD .null
    | none => .null

@[simp] theorem newRow_id (k : Clock) (t : Table) (attrs : List (Field × Attr)) (db : DB) :
    (newRow k t attrs db).id = nextId (db t) := rfl

theorem newRow_cell {k : Clock} {t : Table} {attrs : List (Field × Attr)} {db : DB}
    {c : Column} {v : Value}
    (hc : c ∈ t.columns) (h : c.initial k attrs = .ok v) :
    (newRow k t attrs db).cell c.field = v := by
  simp only [newRow, Table.column_of_mem hc, h]
  rfl

/-- INSERT. The new key is one more than the largest key; the random keys SQLite
    tries when that is not an integer of 64 bits are not modelled. -/
def insertRow (k : Clock) (t : Table) (attrs : List (Field × Attr)) (db : DB) : Except Exn DB :=
  if 2 ^ 63 ≤ nextId (db t) then .error .operationalError
  else
    match t.columns.findSome? fun c =>
      failure (storeColumn db t (nextId (db t)) c (c.initial k attrs)) with
    | some e => .error e
    | none => .ok (insert db t (newRow k t attrs db))

/-- **INSERT.** It succeeds iff every column can store its value. -/
theorem insertRow_eq_ok {k : Clock} {t : Table} {attrs : List (Field × Attr)} {db db' : DB} :
    insertRow k t attrs db = .ok db' ↔
      nextId (db t) < 2 ^ 63 ∧
        (∀ c ∈ t.columns, ∃ v, c.initial k attrs = .ok v ∧ Admissible db t (nextId (db t)) c v) ∧
        db' = insert db t (newRow k t attrs db) := by
  have hall : (t.columns.findSome? fun c =>
        failure (storeColumn db t (nextId (db t)) c (c.initial k attrs))) = none ↔
      ∀ c ∈ t.columns, ∃ v, c.initial k attrs = .ok v ∧ Admissible db t (nextId (db t)) c v := by
    simp only [List.findSome?_eq_none_iff, failure_eq_none, storeColumn_eq_ok]
  unfold insertRow
  by_cases hid : 2 ^ 63 ≤ nextId (db t)
  · rw [if_pos hid]
    exact ⟨(nomatch ·), fun h => absurd hid (Nat.not_le.mpr h.1)⟩
  · rw [if_neg hid]
    cases hfail : t.columns.findSome? fun c =>
        failure (storeColumn db t (nextId (db t)) c (c.initial k attrs)) with
    | some e =>
      rw [hfail] at hall
      exact ⟨(nomatch ·), fun h => nomatch hall.mpr h.2.1⟩
    | none =>
      rw [hfail] at hall
      simp only [Except.ok.injEq]
      exact ⟨fun h => ⟨Nat.not_le.mp hid, hall.mp rfl, h.symm⟩, fun h => h.2.2.symm⟩

/-- UPDATE of one attribute. Attributes that are no columns are not stored. -/
def assign (t : Table) (id : ℕ) (f : Field) (a : Attr) (db : DB) : Except Exn DB :=
  match t.column f with
  | none => .ok db
  | some c => (storeColumn db t id c (a.bind c.type)).map fun v => setCell db t id f v

/-- **UPDATE.** It succeeds iff the column can store the value. -/
theorem assign_eq_ok {t : Table} {id : ℕ} {c : Column} (hc : c ∈ t.columns) {a : Attr}
    {db db' : DB} :
    assign t id c.field a db = .ok db' ↔
      ∃ v, a.bind c.type = .ok v ∧ Admissible db t id c v ∧ db' = setCell db t id c.field v := by
  simp only [assign, Table.column_of_mem hc, map_eq_ok, storeColumn_eq_ok, and_assoc]
  simp only [eq_comm (a := db')]

theorem assign_cases {t : Table} {id : ℕ} {f : Field} {a : Attr} {db db' : DB}
    (h : assign t id f a db = .ok db') :
    (t.column f = none ∧ db' = db) ∨
      ∃ c v, t.column f = some c ∧ a.bind c.type = .ok v ∧ Admissible db t id c v ∧
        db' = setCell db t id f v := by
  cases hc : t.column f with
  | none => simp only [assign, hc, Except.ok.injEq] at h; exact Or.inl ⟨rfl, h.symm⟩
  | some c =>
    obtain rfl := Table.column_field hc
    obtain ⟨v, hbind, hadm, hdb⟩ := (assign_eq_ok (Table.mem_of_column hc)).mp h
    exact Or.inr ⟨c, v, rfl, hbind, hadm, hdb⟩

/-- `session.delete`: the foreign keys of the children become NULL first, the
    association rows go, and the commit fails where NULL is not allowed. -/
def deleteRow (t : Table) (id : ℕ) (db : DB) : Except Exn DB :=
  if Blocked schema db t id then .error .integrityError else .ok (erase schema db t id)

theorem deleteRow_eq_ok {t : Table} {id : ℕ} {db db' : DB} :
    deleteRow t id db = .ok db' ↔ ¬ Blocked schema db t id ∧ db' = erase schema db t id := by
  unfold deleteRow
  by_cases h : Blocked schema db t id
  · simp [h]
  · simp [h, eq_comm]

/-- `query.filter_by(f=n).delete()`. -/
def deleteWhere (t : Table) (f : Field) (n : ℤ) (db : DB) : Except Exn DB :=
  if inInt64 n then .ok (removeWhere db t fun r => r.cell f == .int n) else .error .overflowError

theorem deleteWhere_eq_ok {t : Table} {f : Field} {n : ℤ} {db db' : DB} :
    deleteWhere t f n db = .ok db' ↔
      inInt64 n = true ∧ db' = removeWhere db t fun r => r.cell f == .int n := by
  unfold deleteWhere
  by_cases h : inInt64 n = true
  · simp [h, eq_comm]
  · simp [h]

/-- The row of a table that a foreign key holding `v` refers to. -/
def related (t : Table) (v : Value) (db : DB) : Option Record :=
  (db t).find? fun r => Value.int r.id = v

/-- The roles a courseware is for, by its association rows (`models.py`, lines 86–89). -/
def targetsOf (db : DB) (courseware : ℕ) : List Value :=
  ((db .trainingTargets).filter fun r => r.cell .coursewareId == .int courseware).map
    (·.cell .roleId)

/-- The attributes of an association row. -/
def targetAttrs (courseware role : ℕ) : List (Field × Attr) :=
  [(.coursewareId, .value (.int courseware)), (.roleId, .value (.int role))]

/-- A flush after the role list of a courseware was changed: the association
    rows of the roles that left the list are deleted, then one is inserted for
    each entry that is new. A role that was added twice breaks the primary key. -/
def setTargets (k : Clock) (courseware : ℕ) (roles : List ℕ) (db : DB) : Except Exn DB :=
  let added := roles.filter fun (r : ℕ) => Value.int r ∉ targetsOf db courseware
  if added.Nodup then
    applyAll (fun role => insertRow k .trainingTargets (targetAttrs courseware role)) added
      (removeWhere db .trainingTargets fun r =>
        r.cell .coursewareId == .int courseware && (related .role (r.cell .roleId) db).isSome &&
          !(roles.any fun n => r.cell .roleId == .int n))
  else .error .integrityError

theorem insertRow_rows {k : Clock} {t : Table} {attrs : List (Field × Attr)} {db db' : DB}
    (h : insertRow k t attrs db = .ok db') : db' t = db t ++ [newRow k t attrs db] := by
  obtain ⟨-, -, rfl⟩ := insertRow_eq_ok.mp h
  exact insert_same db t _

theorem nextId_insertRow {k : Clock} {t : Table} {attrs : List (Field × Attr)} {db db' : DB}
    (h : insertRow k t attrs db = .ok db') : nextId (db' t) = nextId (db t) + 1 := by
  obtain ⟨-, -, rfl⟩ := insertRow_eq_ok.mp h
  exact nextId_insert db _ rfl

theorem insertRow_other {k : Clock} {t t' : Table} {attrs : List (Field × Attr)} {db db' : DB}
    (h : insertRow k t attrs db = .ok db') (ht : t' ≠ t) : db' t' = db t' := by
  obtain ⟨-, -, rfl⟩ := insertRow_eq_ok.mp h
  exact insert_other db _ ht

/-- A change of a role list changes the association table only. -/
theorem setTargets_other {k : Clock} {courseware : ℕ} {roles : List ℕ} {db db' : DB}
    (h : setTargets k courseware roles db = .ok db') {t : Table} (ht : t ≠ .trainingTargets) :
    db' t = db t := by
  simp only [setTargets] at h
  split_ifs at h
  exact applyAll_preserves (P := fun w : DB => w t = db t) _
    (fun _ _ _ hw hins => (insertRow_other hins ht).trans hw) (removeWhere_other db _ ht) h

/-- An association row belongs to its courseware. -/
theorem newTarget_courseware {k : Clock} {courseware role : ℕ} {db db' : DB}
    (h : insertRow k .trainingTargets (targetAttrs courseware role) db = .ok db') :
    (newRow k .trainingTargets (targetAttrs courseware role) db).cell .coursewareId =
      .int courseware := by
  have hc : (required .coursewareId .integer).to .trainingCourseware ∈
      Table.trainingTargets.columns :=
    List.mem_cons_self
  obtain ⟨v, hinit, -⟩ := (insertRow_eq_ok.mp h).2.1 _ hc
  have hv : v = .int courseware := by
    change (Attr.value (.int courseware)).bind .integer = .ok v at hinit
    simp only [Attr.bind] at hinit
    split_ifs at hinit
    cases hinit
    rfl
  rw [← hv]
  exact newRow_cell hc hinit

/-- A change of a role list leaves the association rows of every other courseware. -/
theorem setTargets_rows {k : Clock} {courseware : ℕ} {roles : List ℕ} {db db' : DB}
    (h : setTargets k courseware roles db = .ok db') {q : Record}
    (hq : q.cell .coursewareId ≠ .int courseware) :
    q ∈ db' .trainingTargets ↔ q ∈ db .trainingTargets := by
  simp only [setTargets] at h
  split_ifs at h
  refine applyAll_preserves (P := fun w : DB => q ∈ w .trainingTargets ↔
    q ∈ db .trainingTargets) _ ?_ ?_ h
  · intro role w w' hw hins
    obtain ⟨-, -, rfl⟩ := insertRow_eq_ok.mp hins
    rw [mem_insert, hw]
    refine or_iff_left ?_
    rintro ⟨-, rfl⟩
    exact hq (newTarget_courseware hins)
  · rw [mem_removeWhere]
    refine and_iff_left fun _ => ?_
    rw [beq_eq_false_iff_ne.mpr hq, Bool.false_and, Bool.false_and]

/-- The operations of a flush. -/
inductive Op
  | insert (k : Clock) (t : Table) (attrs : List (Field × Attr))
  | assign (t : Table) (id : ℕ) (f : Field) (a : Attr)
  | delete (t : Table) (id : ℕ)
  | deleteWhere (t : Table) (f : Field) (n : ℤ)
  | setTargets (k : Clock) (courseware : ℕ) (roles : List ℕ)

/-- Carry out one operation. -/
def applyOp : Op → DB → Except Exn DB
  | .insert k t attrs => insertRow k t attrs
  | .assign t id f a => Backend.assign t id f a
  | .delete t id => deleteRow t id
  | .deleteWhere t f n => Backend.deleteWhere t f n
  | .setTargets k courseware roles => Backend.setTargets k courseware roles

/-- The table whose cells an operation writes; a deletion only sets references to
    NULL. -/
def Op.writes : Op → Option Table
  | .insert _ t _ => some t
  | .assign t _ _ _ => some t
  | .delete _ _ => none
  | .deleteWhere _ _ _ => none
  | .setTargets _ _ _ => some .trainingTargets

/-- **Frame.** What an operation leaves of the rows of a table it does not write: some
    of them, up to references that became NULL. -/
theorem applyOp_frame {o : Op} {t : Table} {db db' : DB} (ho : o.writes ≠ some t)
    (h : applyOp o db = .ok db') : ∀ q ∈ db' t, ∃ r ∈ db t, Detached schema t r q := by
  have hsame : db' t = db t → ∀ q ∈ db' t, ∃ r ∈ db t, Detached schema t r q := by
    intro heq q hq
    exact ⟨q, heq ▸ hq, Detached.refl schema t q⟩
  cases o with
  | insert k t' attrs => exact hsame (insertRow_other h fun he => ho (congrArg some he.symm))
  | assign t' id f a =>
    rcases assign_cases h with ⟨-, rfl⟩ | ⟨c, v, -, -, -, rfl⟩
    · exact hsame rfl
    · exact hsame (setCell_other db id f v fun he => ho (congrArg some he.symm))
  | delete t' id =>
    obtain ⟨-, rfl⟩ := deleteRow_eq_ok.mp h
    intro q hq
    obtain ⟨r, hr, -, rfl⟩ := (mem_erase schema).mp hq
    exact ⟨r, hr, detached_detach schema t' id t r⟩
  | deleteWhere t' f n =>
    obtain ⟨-, rfl⟩ := deleteWhere_eq_ok.mp h
    intro q hq
    exact ⟨q, (mem_removeWhere.mp hq).1, Detached.refl schema t q⟩
  | setTargets k courseware roles =>
    exact hsame (setTargets_other h fun he => ho (congrArg some he.symm))

theorem applyAll_frame {t : Table} {ops : List Op} {db db' : DB}
    (hops : ∀ o ∈ ops, o.writes ≠ some t)
    (h : applyAll applyOp ops db = .ok db') : ∀ q ∈ db' t, ∃ r ∈ db t, Detached schema t r q := by
  refine applyAll_preserves_mem (P := fun w : DB => ∀ q ∈ w t, ∃ r ∈ db t,
    Detached schema t r q) _ ?_
    (fun q hq => ⟨q, hq, Detached.refl schema t q⟩) h
  intro o ho w w' hw happly q hq
  obtain ⟨p, hp, hdetached⟩ := applyOp_frame (hops o ho) happly q hq
  obtain ⟨r, hr, hdetached'⟩ := hw p hp
  exact ⟨r, hr, hdetached'.trans schema hdetached⟩

/-! ## Queries -/

/-- `Model.query.get(id)` for an `<int:id>` of the path. -/
def getById (t : Table) (id : ℕ) (db : DB) : Except Exn (Option Record) :=
  if 2 ^ 63 ≤ id then .error .overflowError else .ok (find (db t) id)

theorem getById_eq_some {t : Table} {id : ℕ} {db : DB} {r : Record} :
    getById t id db = .ok (some r) ↔ id < 2 ^ 63 ∧ find (db t) id = some r := by
  unfold getById
  by_cases h : 2 ^ 63 ≤ id
  · rw [if_pos h]
    exact ⟨(nomatch ·), fun he => absurd h (Nat.not_le.mpr he.1)⟩
  · rw [if_neg h, Except.ok.injEq]
    exact ⟨fun he => ⟨Nat.not_le.mp h, he⟩, fun he => he.2⟩

/-- Lists and objects are no keys of the identity map. -/
def hashable : Json → Except Exn Json
  | .list _ => .error .typeError
  | .dict _ => .error .typeError
  | j => .ok j

/-- The key in the argument of `query.get`: it may be alone, in a list, or named
    in an object. -/
def identity : Json → Except Exn Json
  | .list [j] => hashable j
  | .list _ => .error .invalidRequestError
  | .dict [(.id, j)] => hashable j
  | .dict _ => .error .invalidRequestError
  | j => .ok j

/-- `SELECT … WHERE id = key`. -/
def loadByKey (t : Table) (key : Json) (db : DB) : Except Exn (Option Record) :=
  (bindJson .integer key).map fun v => related t v db

/-- `Model.query.get(j)` for a value of the body. -/
def queryGet (t : Table) (j : Json) (db : DB) : Except Exn (Option Record) :=
  (identity j).bind fun key => loadByKey t key db

/-- `Model.query.filter_by(f=j).all()`. -/
def filterBy (t : Table) (f : Field) (j : Json) (db : DB) : Except Exn (List Record) :=
  match t.column f, j with
  | none, _ => .error .invalidRequestError
  | some _, .null => .ok ((db t).filter fun r => r.cell f = .null)
  | some c, j => (bindJson c.type j).map fun v => (db t).filter fun r => v ≠ .null ∧ r.cell f = v

theorem filterBy_of_bind {t : Table} {f : Field} {c : Column} {j : Json} {v : Value} {db : DB}
    (hc : t.column f = some c) (hj : j ≠ .null) (hv : bindJson c.type j = .ok v) :
    filterBy t f j db = .ok ((db t).filter fun r => v ≠ .null ∧ r.cell f = v) := by
  unfold filterBy
  rw [hc]
  split
  · rename_i hnone; cases hnone
  · exact absurd rfl hj
  · rename_i hsome _
    cases hsome
    rw [hv]
    rfl

/-- `if Model.query.filter_by(f=j).first()`. -/
def exists? (t : Table) (f : Field) (j : Json) (db : DB) : Except Exn Bool :=
  (filterBy t f j db).map fun rows => !rows.isEmpty

end ProjectEvaluation.Backend
