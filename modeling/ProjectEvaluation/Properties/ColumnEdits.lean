import ProjectEvaluation.Properties.Logins

/-!
# Edits of different columns

The tables of the pages are edited cell by cell: several users change different columns of one
row, and each change is a PUT that names its columns only. A handler that assigns
`data.get('f', row.f)` writes all columns, the others with what it has read.

For the resources whose PUT treats every column on its own (`columnwise`), a row is a server of
its columns.

Main results:
* `put_columns`: what a PUT does to the columns of its row.
* `columns_any_order`: users who edit different columns may be served in any order.
* `columns_alone`: what a user edits is what it would be without the others.
-/

namespace ProjectEvaluation.Backend

open Python Relational Transaction Footprint

/-- The resources whose PUT treats every column on its own. -/
def columnwise : List Resource :=
  [.menu, .skin, .clause, .level, .catalog, .vendorResearch, .dictionary, .template]

/-- What a body gives to an attribute: nothing where it does not name it, or where it gives a date
    that cannot be read. -/
def Resource.edit (r : Resource) (data : Json) (f : Field) : Except Exn (Option Attr) :=
  (data.get f).map fun j =>
    if r = .vendorResearch ∧ f = .researchDate then (j.bind parseDate).map fun d => .value (.date d)
      else j.map .json

/-- The edits of a body. -/
def Resource.edits (r : Resource) (data : Json) : List Assignment :=
  r.assigned.map fun f => (f, r.edit data f)

/-- The values a body gives to columns. -/
def Resource.edited (r : Resource) (data : Json) : List (Field × Value) :=
  updateValues r.table (r.edits data)

/-- Can a column store an attribute? -/
def Column.accepts (c : Column) (a : Attr) : Bool :=
  match a.bind c.type with
  | .ok w => w ≠ .null || c.nullable
  | .error _ => false

/-- Can all columns store what a body gives them? -/
def Resource.accepts (r : Resource) (data : Json) : Bool :=
  r.assigned.all fun f =>
    match r.edit data f with
    | .ok none => true
    | .ok (some a) => (r.table.column f).all fun c => c.accepts a
    | .error _ => false

/-! ## One row as a server -/

theorem edit_named {r : Resource} {data : Json} {f : Field} {a : Attr}
    (h : r.edit data f = .ok (some a)) :
    data.has f = true := by
  obtain ⟨j, hget, hsome⟩ := map_eq_ok.mp h
  rw [Json.has_of_get hget]
  cases j with
  | some j => rfl
  | none => split_ifs at hsome <;> cases hsome

theorem mem_edits {r : Resource} {data : Json} {f : Field} {x : Except Exn (Option Attr)} :
    (f, x) ∈ r.edits data ↔ f ∈ r.assigned ∧ r.edit data f = x := by
  constructor
  · intro h
    obtain ⟨g, hg, heq⟩ := List.mem_map.mp h
    obtain ⟨rfl, rfl⟩ := Prod.mk.inj heq
    exact ⟨hg, rfl⟩
  · rintro ⟨hf, rfl⟩
    exact List.mem_map.mpr ⟨f, hf, rfl⟩

/-- The columns of a row: a body uses and writes those it names. -/
def columns (r : Resource) : Server Field (fun _ => Value) Json Bool where
  answer data _ := r.accepts data
  next data cells := if r.accepts data then (assignCells ⟨0, cells⟩ (r.edited data)).cell else cells
  uses data := {f | f ∈ r.assigned ∧ data.has f = true}
  writes data := {f | f ∈ r.assigned ∧ data.has f = true}
  writes_uses _ := subset_rfl
  answer_congr _ _ _ _ := rfl
  next_congr data cells cells' h f hf := by
    split_ifs
    · exact congrArg (((r.edited data).reverse.lookup f).getD ·) (h f hf)
    · exact h f hf
  frame data cells f hf := by
    split_ifs
    · refine unassigned_cell ⟨0, cells⟩ fun v hmem => hf ?_
      obtain ⟨hassigned, hedit⟩ := mem_edits.mp hmem
      exact ⟨hassigned, edit_named hedit⟩
    · rfl

/-! ## The handlers -/

/-- What a handler assigns to an attribute: what the body gives, or what the row has. -/
def Resource.filled (r : Resource) (data : Json) (row : Record) (f : Field) :
    Except Exn (Option Attr) :=
  if r = .vendorResearch ∧ f = .researchDate then r.edit data f
  else (r.edit data f).map fun a => some (a.getD (.value (row.cell f)))

theorem filled_keep {r : Resource} {f : Field} (h : ¬(r = .vendorResearch ∧ f = .researchDate))
    (data : Json)
    (row : Record) : (f, r.filled data row f) = keep data row f := by
  rw [Resource.filled, if_neg h, Resource.edit, keep]
  simp only [if_neg h]
  cases data.get f with
  | error e => rfl
  | ok j => cases j <;> rfl

/-- **The assignments** of a columnwise handler. -/
theorem columnwise_assignments {r : Resource} (hr : r ∈ columnwise) (data : Json)
    (row : Record) (db : DB) :
    r.assignments data row db = .ok (r.assigned.map fun f => (f, r.filled data row f)) := by
  have hkeep : ∀ {r : Resource} (fields : List Field),
      (∀ f ∈ fields, ¬(r = .vendorResearch ∧ f = .researchDate)) →
      fields.map (fun f => (f, r.filled data row f)) = fields.map (keep data row) :=
    fun fields h => List.map_congr_left fun f hf => filled_keep (h f hf) data row
  simp only [columnwise, List.mem_cons, List.not_mem_nil, or_false] at hr
  rcases hr with rfl | rfl | rfl | rfl | rfl | rfl | rfl | rfl
  · exact congrArg Except.ok (hkeep menuFields (by decide)).symm
  · exact congrArg Except.ok (hkeep skinFields (by decide)).symm
  · exact congrArg Except.ok (hkeep clauseFields (by decide)).symm
  · exact congrArg Except.ok (hkeep levelFields (by decide)).symm
  · exact congrArg Except.ok (hkeep catalogFields (by decide)).symm
  · have hdate : (Field.researchDate, Resource.vendorResearch.filled data row .researchDate) =
        assignDate data .researchDate := rfl
    exact congrArg (fun rest => Except.ok (assignDate data .researchDate :: rest))
      (hkeep [.researcherId, .projectId, .taskName, .systemId, .manufacturer, .remarks]
        (by decide)).symm
  · exact congrArg Except.ok (hkeep dictionaryFields (by decide)).symm
  · exact congrArg Except.ok (hkeep templateFields (by decide)).symm

/-- The assigned attributes are columns, and none of them is unique. -/
theorem columnwise_column {r : Resource} (hr : r ∈ columnwise) {f : Field} (hf : f ∈ r.assigned) :
    ∃ c, r.table.column f = some c ∧ c ∈ r.table.columns ∧ c.field = f ∧ c.unique = false := by
  have hall : ∀ r ∈ columnwise, ∀ f ∈ r.assigned,
      (r.table.column f).any (fun c => !c.unique) = true := by
    decide
  obtain ⟨c, hc, hunique⟩ := (Option.any_eq_true _ _).mp (hall r hr f hf)
  exact ⟨c, hc, Table.mem_of_column hc, Table.column_field hc, by simpa using hunique⟩

theorem accepts_iff {r : Resource} (hr : r ∈ columnwise) {data : Json} :
    r.accepts data = true ↔ ∀ f ∈ r.assigned, r.edit data f = .ok none ∨
      ∃ a c, r.edit data f = .ok (some a) ∧ r.table.column f = some c ∧ CanStore c a := by
  rw [Resource.accepts, List.all_eq_true]
  refine forall₂_congr fun f hf => ?_
  obtain ⟨c, hc, -, -, hunique⟩ := columnwise_column hr hf
  cases hedit : r.edit data f with
  | error e => simp
  | ok x =>
    cases x with
    | none => simp
    | some a =>
      have haccepts : c.accepts a = true ↔ CanStore c a := by
        unfold Column.accepts CanStore
        cases hbind : a.bind c.type with
        | error e => simp
        | ok w => simp [hunique, Decidable.imp_iff_not_or]
      simp [hc, haccepts]

/-- What a handler assigns can be stored if what the body gives can. -/
theorem filled_canStore {r : Resource} (hr : r ∈ columnwise) {data : Json}
    (haccepts : r.accepts data = true) {db : DB}
    (hv : Valid db) {row : Record} (hrow : row ∈ db r.table) {f : Field} (hf : f ∈ r.assigned) :
    r.filled data row f = .ok none ∨
      ∃ a c, r.filled data row f = .ok (some a) ∧ r.table.column f = some c ∧ CanStore c a := by
  have hedit := (accepts_iff hr).mp haccepts f hf
  by_cases hdate : r = .vendorResearch ∧ f = .researchDate
  · rw [Resource.filled, if_pos hdate]
    exact hedit
  · rw [Resource.filled, if_neg hdate]
    right
    rcases hedit with hnone | ⟨a, c, hsome, hc, hstore⟩
    · obtain ⟨c, hc, hmem, rfl, hunique⟩ := columnwise_column hr hf
      refine ⟨.value (row.cell c.field), c, by rw [hnone]; rfl, hc, row.cell c.field, ?_,
        ?_, hunique⟩
      · exact Attr.bind_value (hv.canonical r.table c hmem row hrow)
      · intro hnull
        by_contra hnotNull
        exact hv.notNull r.table c hmem (by simpa using hnotNull) row hrow hnull
    · exact ⟨a, c, by rw [hsome]; rfl, hc, hstore⟩

/-- **When a PUT succeeds**: where its row is there, if the columns can store what the body gives.
    -/
theorem put_succeeds_iff {r : Resource} (hr : r ∈ columnwise) (k : Clock) {id : ℕ}
    (data : Json) {db : DB}
    (hv : Valid db) {row : Record} (hfind : find (db r.table) id = some row) :
    (handle k (.update r id (.json data)) db).1.Success ↔ r.accepts data = true := by
  have hassign := columnwise_assignments hr data row db
  constructor
  · intro hgood
    rcases handle_update k r id (.json data) db with
      ⟨hbad, -⟩ | ⟨-, row', _, assignments, ops, w, -, hfind', hbody, hassign', hops, hall, -⟩
    · exact absurd hgood hbad
    · cases hbody
      obtain rfl : row = row' := Option.some.inj (hfind.symm.trans hfind')
      obtain rfl := Except.ok.inj (hassign.symm.trans hassign')
      refine (accepts_iff hr).mpr fun f hf => ?_
      obtain ⟨c, hc, -, -, hunique⟩ := columnwise_column hr hf
      obtain ⟨x, hx, hbind⟩ :=
        (updateOps_eq hops hall).2 (f, r.filled data row f) (List.mem_map_of_mem hf)
      have hx : r.filled data row f = .ok x := hx
      cases hedit : r.edit data f with
      | error e =>
        rw [Resource.filled, hedit] at hx
        split_ifs at hx
        cases hx
      | ok y =>
        cases y with
        | none => exact Or.inl rfl
        | some a =>
          have hxa : x = some a := by
            rw [Resource.filled, hedit] at hx
            split_ifs at hx
            · exact (Except.ok.inj hx).symm
            · exact (Except.ok.inj hx).symm
          obtain ⟨w, hw, hnull⟩ := hbind a hxa c hc
          exact Or.inr ⟨a, c, rfl, hc, w, hw, hnull, hunique⟩
  · intro haccepts
    have hid : id < 2 ^ 63 := by
      rw [← find_id hfind]
      exact hv.small r.table row (mem_of_find hfind)
    have hstore : ∀ a ∈ r.assigned.map (fun f => (f, r.filled data row f)),
        a.2 = .ok none ∨ ∃ v c, a.2 = .ok (some v) ∧ r.table.column a.1 = some c ∧
        CanStore c v := by
      intro a ha
      obtain ⟨f, hf, rfl⟩ := List.mem_map.mp ha
      exact filled_canStore hr haccepts hv (mem_of_find hfind) hf
    have hprepare :=
      congrArg (fun x => x.map (Sum.inr : List Assignment → Response ⊕ List Assignment)) hassign
    simp only [columnwise, List.mem_cons, List.not_mem_nil, or_false] at hr
    rcases hr with rfl | rfl | rfl | rfl | rfl | rfl | rfl | rfl
    all_goals exact update_succeeds hid hfind hprepare hstore fun _ _ => ⟨_, rfl⟩

/-- The database with other cells in one row. -/
def withCells (db : DB) (t : Table) (id : ℕ) (cells : Field → Value) : DB :=
  Function.update db t ((db t).map fun r => if r.id = id then { r with cell := cells } else r)

theorem withCells_self {db : DB} (hv : Valid db) {t : Table} {id : ℕ} {row : Record}
    (hfind : find (db t) id = some row) :
    withCells db t id row.cell = db := by
  have hrows : ((db t).map fun r => if r.id = id then { r with cell := row.cell } else r) =
      db t := by
    refine (List.map_congr_left fun q hq => ?_).trans (List.map_id (db t))
    split_ifs with hid
    · have hsame := find_of_mem (hv.keys t) hq
      rw [hid, hfind] at hsame
      rw [Option.some.inj hsame]
      rfl
    · rfl
  rw [withCells, hrows, Function.update_eq_self]

/-- The cells a handler leaves are those of the body, and the row's own. -/
theorem filled_cells {r : Resource} (hr : r ∈ columnwise) {data : Json}
    (haccepts : r.accepts data = true) {db : DB}
    (hv : Valid db) {row : Record} (hrow : row ∈ db r.table) :
    (assignCells row
      (updateValues r.table (r.assigned.map fun f => (f, r.filled data row f)))).cell =
      (assignCells ⟨0, row.cell⟩ (r.edited data)).cell := by
  have hnodup : ((r.assigned.map fun f => (f, r.filled data row f)).map Prod.fst).Nodup :=
    assignments_nodup (columnwise_assignments hr data row db)
  have hnodup' : ((r.edits data).map Prod.fst).Nodup := by
    have hsame : (r.edits data).map Prod.fst =
        (r.assigned.map fun f => (f, r.filled data row f)).map Prod.fst := by
      rw [Resource.edits, List.map_map, List.map_map]
      rfl
    rw [hsame]
    exact hnodup
  have hmem : ∀ {f : Field} {x : Except Exn (Option Attr)},
      (f, x) ∈ r.assigned.map (fun f => (f, r.filled data row f)) ↔
      f ∈ r.assigned ∧ r.filled data row f = x := by
    intro f x
    constructor
    · intro h
      obtain ⟨g, hg, heq⟩ := List.mem_map.mp h
      obtain ⟨rfl, rfl⟩ := Prod.mk.inj heq
      exact ⟨hg, rfl⟩
    · rintro ⟨hf, rfl⟩
      exact List.mem_map.mpr ⟨f, hf, rfl⟩
  funext f
  by_cases hf : f ∈ r.assigned
  · rcases (accepts_iff hr).mp haccepts f hf with hnone | ⟨a, c, hsome, hc, w, hbind, -⟩
    · have hrhs : (assignCells ⟨0, row.cell⟩ (r.edited data)).cell f = row.cell f := by
        refine unassigned_cell ⟨0, row.cell⟩ fun v hv => ?_
        rw [(mem_edits.mp hv).2] at hnone
        cases hnone
      rw [hrhs]
      by_cases hdate : r = .vendorResearch ∧ f = .researchDate
      · refine unassigned_cell row fun v hv => ?_
        have hfilled := (hmem.mp hv).2
        rw [Resource.filled, if_pos hdate, hnone] at hfilled
        cases hfilled
      · obtain ⟨c, hc, hcmem, rfl, -⟩ := columnwise_column hr hf
        refine assigned_cell hnodup row (v := .value (row.cell c.field)) (hmem.mpr ⟨hf, ?_⟩) hc ?_
        · rw [Resource.filled, if_neg hdate, hnone]
          rfl
        · exact Attr.bind_value (hv.canonical r.table c hcmem row hrow)
    · have hfilled : r.filled data row f = .ok (some a) := by
        rw [Resource.filled, hsome]
        split_ifs <;> rfl
      rw [assigned_cell hnodup row (hmem.mpr ⟨hf, hfilled⟩) hc hbind]
      exact (assigned_cell hnodup' ⟨0, row.cell⟩ (mem_edits.mpr ⟨hf, hsome⟩) hc hbind).symm
  · rw [unassigned_cell row fun v hv => hf (hmem.mp hv).1]
    exact (unassigned_cell ⟨0, row.cell⟩ fun v hv => hf (mem_edits.mp hv).1).symm

/-- **What a PUT does**: the row is served as a server of its columns, and nothing else changes. -/
theorem put_columns {r : Resource} (hr : r ∈ columnwise) (k : Clock) {id : ℕ} (data : Json)
    {db : DB} (hv : Valid db)
    {row : Record} (hfind : find (db r.table) id = some row) :
    decide (handle k (.update r id (.json data)) db).1.Success = (columns r).answer data row.cell ∧
      (handle k (.update r id (.json data)) db).2 =
        withCells db r.table id ((columns r).next data row.cell) := by
  have hiff := put_succeeds_iff hr k data hv hfind
  refine ⟨by rw [Bool.eq_iff_iff, decide_eq_true_eq]; exact hiff, ?_⟩
  by_cases haccepts : r.accepts data = true
  · have hnext : (columns r).next data row.cell =
        (assignCells ⟨0, row.cell⟩ (r.edited data)).cell :=
      if_pos haccepts
    rcases handle_update k r id (.json data) db with
      ⟨hbad, -⟩ | ⟨-, row', _, assignments, ops, w, -, hfind', hbody, hassign, hops, hall, -, hsame⟩
    · exact absurd (hiff.mpr haccepts) hbad
    · cases hbody
      obtain rfl : row = row' := Option.some.inj (hfind.symm.trans hfind')
      obtain rfl := Except.ok.inj ((columnwise_assignments hr data row db).symm.trans hassign)
      have hcourseware : r ≠ .courseware := by
        rintro rfl
        exact absurd hr (by decide)
      rw [hsame fun h => hcourseware h.1, (updateOps_eq hops hall).1, hnext,
        ← filled_cells hr haccepts hv (mem_of_find hfind)]
      funext t
      by_cases ht : t = r.table
      · subst ht
        rw [setCells_same, withCells, Function.update_self]
        refine List.map_congr_left fun q hq => ?_
        split_ifs with hid
        · have hq' := find_of_mem (hv.keys r.table) hq
          rw [hid, hfind] at hq'
          rw [Option.some.inj hq']
          rfl
        · rfl
      · rw [setCells_other db id _ ht, withCells, Function.update_of_ne ht]
  · have hnext : (columns r).next data row.cell = row.cell := if_neg haccepts
    rw [unsuccessful_changes_nothing k _ db fun hgood => haccepts (hiff.mp hgood), hnext,
      withCells_self hv hfind]

/-! ## Runs -/

section Runs

variable {C : Type}

/-- The PUTs to one row, in the order they are served. -/
def puts (r : Resource) (id : ℕ) (log : List (C × Clock × Json)) : List (Clock × Request) :=
  log.map fun p => (p.2.1, .update r id (.json p.2.2))

/-- Which of the PUTs to a row succeed, each with its client. -/
def saves (r : Resource) (id : ℕ) : List (C × Clock × Json) → DB → List (C × Bool)
  | [], _ => []
  | p :: log, db =>
    let (response, db') := handle p.2.1 (.update r id (.json p.2.2)) db
    (p.1, decide response.Success) :: saves r id log db'

/-- The bodies of a log. -/
def bodies (log : List (C × Clock × Json)) : List (C × Json) := log.map fun p => (p.1, p.2.2)

theorem find_withCells {db : DB} {t : Table} {id : ℕ} {row : Record}
    (hfind : find (db t) id = some row)
    (cells : Field → Value) : find (withCells db t id cells t) id = some
    { row with cell := cells } := by
  have hkey : ((fun r : Record => r.id == id) ∘ fun r => if r.id = id
      then { r with cell := cells } else r) =
      fun r => r.id == id := by
    funext q
    by_cases hq : q.id = id <;> simp [hq]
  unfold find at hfind ⊢
  rw [withCells, Function.update_self, List.find?_map, hkey, hfind]
  simp [find_id hfind]

theorem withCells_withCells (db : DB) (t : Table) (id : ℕ) (cells cells' : Field → Value) :
    withCells (withCells db t id cells) t id cells' = withCells db t id cells' := by
  unfold withCells
  rw [Function.update_self, Function.update_idem, List.map_map]
  congr 1
  refine List.map_congr_left fun q _ => ?_
  by_cases hq : q.id = id <;> simp [hq]

/-- **A run of PUTs** to a row is a run of the server of its columns. -/
theorem puts_columns {r : Resource} (hr : r ∈ columnwise) {id : ℕ}
    (log : List (C × Clock × Json)) {db : DB}
    (hv : Valid db) {row : Record} (hfind : find (db r.table) id = some row) :
    saves r id log db = (columns r).answers (bodies log) row.cell ∧
      afterAll (puts r id log) db =
        withCells db r.table id ((columns r).after (bodies log) row.cell) := by
  induction log generalizing db row with
  | nil => exact ⟨rfl, (withCells_self hv hfind).symm⟩
  | cons p log ih =>
    obtain ⟨c, k, data⟩ := p
    obtain ⟨hanswer, hnext⟩ := put_columns hr k data hv hfind
    have hfind' : find ((handle k (.update r id (.json data)) db).2 r.table) id =
        some { row with cell := (columns r).next data row.cell } := by
      rw [hnext]
      exact find_withCells hfind _
    obtain ⟨hsaves, hafter⟩ := ih (handle_valid hv) hfind'
    constructor
    · show (c, decide (handle k (.update r id (.json data)) db).1.Success) ::
        saves r id log (handle k (.update r id (.json data)) db).2 = _
      rw [hanswer, hsaves]
      rfl
    · show afterAll (puts r id log) (handle k (.update r id (.json data)) db).2 = _
      rw [hafter, hnext, withCells_withCells]
      rfl

/-- PUTs to a row that is not there are answered with 404. -/
theorem puts_missing {r : Resource} {id : ℕ} (log : List (C × Clock × Json)) {db : DB}
    (hfind : find (db r.table) id = none) :
    saves r id log db = log.map (fun p => (p.1, false)) ∧ afterAll (puts r id log) db = db := by
  have hbad : ∀ k data, ¬ (handle k (.update r id (.json data)) db).1.Success := by
    intro k data hgood
    rcases handle_update k r id (.json data) db with ⟨hbad, -⟩ | ⟨-, row, _, _, _, _, -, hrow, -⟩
    · exact hbad hgood
    · exact absurd (hfind.symm.trans hrow) nofun
  induction log with
  | nil => exact ⟨rfl, rfl⟩
  | cons p log ih =>
    obtain ⟨c, k, data⟩ := p
    have hsame := unsuccessful_changes_nothing k _ db (hbad k data)
    constructor
    · show (c, decide (handle k (.update r id (.json data)) db).1.Success) ::
        saves r id log (handle k (.update r id (.json data)) db).2 = _
      rw [hsame, ih.1, decide_eq_false (hbad k data)]
      rfl
    · show afterAll (puts r id log) (handle k (.update r id (.json data)) db).2 = _
      rw [hsame]
      exact ih.2

variable [DecidableEq C]

theorem own_map {B B' : Type} (f : B → B') (c : C) (log : List (C × B)) :
    own c (log.map fun p => (p.1, f p.2)) = (own c log).map fun p => (p.1, f p.2) := by
  rw [own, List.filter_map]
  rfl

omit [DecidableEq C] in
theorem mem_bodies {log : List (C × Clock × Json)} {q : C × Json} (h : q ∈ bodies log) :
    ∃ p ∈ log, (p.1, p.2.2) = q := List.mem_map.mp h

/-- **Users who edit different columns** of a row may be served in any order: in two orders that
    keep each user's own, the same requests succeed and the database ends the same. -/
theorem columns_any_order {r : Resource} (hr : r ∈ columnwise) (id : ℕ)
    {log log' : List (C × Clock × Json)}
    (hsep : ∀ p ∈ log, ∀ p' ∈ log, p.1 ≠ p'.1 → ∀ f ∈ r.assigned,
      p.2.2.has f = true → p'.2.2.has f = false)
    (hown : ∀ c, own c log = own c log') {db : DB} (hv : Valid db) :
    afterAll (puts r id log) db = afterAll (puts r id log') db ∧
      ∀ c, own c (saves r id log db) = own c (saves r id log' db) := by
  cases hfind : find (db r.table) id with
  | none =>
    obtain ⟨hsaves, hafter⟩ := puts_missing log hfind
    obtain ⟨hsaves', hafter'⟩ := puts_missing log' hfind
    refine ⟨hafter.trans hafter'.symm, fun c => ?_⟩
    rw [hsaves, hsaves', own_map fun _ => false, own_map fun _ => false, hown]
  | some row =>
    obtain ⟨hsaves, hafter⟩ := puts_columns hr log hv hfind
    obtain ⟨hsaves', hafter'⟩ := puts_columns hr log' hv hfind
    have hseparate : (columns r).Separate (bodies log) := by
      have happart : ∀ p ∈ log, ∀ p' ∈ log, p.1 ≠ p'.1 →
          Disjoint ((columns r).writes p.2.2) ((columns r).uses p'.2.2) := by
        intro p hp p' hp' hne
        refine Set.disjoint_left.mpr fun f hf hf' => ?_
        have hnot := hsep p hp p' hp' hne f hf.1 hf.2
        rw [hf'.2] at hnot
        cases hnot
      intro q hq q' hq' hne
      obtain ⟨p, hp, rfl⟩ := mem_bodies hq
      obtain ⟨p', hp', rfl⟩ := mem_bodies hq'
      exact ⟨happart p hp p' hp' hne, happart p' hp' p hp (Ne.symm hne)⟩
    have hbodies : ∀ c, own c (bodies log) = own c (bodies log') := by
      intro c
      unfold bodies
      rw [own_map Prod.snd, own_map Prod.snd, hown]
    obtain ⟨hstore, hanswers⟩ := (columns r).any_order hseparate hbodies row.cell
    rw [hafter, hafter', hstore, hsaves, hsaves']
    exact ⟨rfl, hanswers⟩

/-- Two users rename a menu and move it. -/
theorem columns_any_order_menu :
    afterAll (puts .menu 1 [(0, .epoch, .dict [(.name, .str "评审项目")]),
      (1, .epoch, .dict [(.order, .int 4)])])
        (handle .epoch (.create .menu (.json (.dict [(.name, .str "评审"), (.path, .str "/review")])))
          fun _ => []).2 =
      afterAll (puts .menu 1 [(1, .epoch, .dict [(.order, .int 4)]),
        (0, .epoch, .dict [(.name, .str "评审项目")])])
        (handle .epoch (.create .menu (.json (.dict [(.name, .str "评审"), (.path, .str "/review")])))
          fun _ => []).2 :=
  (columns_any_order (by decide) 1 (by decide) (fun c => by
    by_cases h0 : 0 = c
    · subst h0; rfl
    · by_cases h1 : 1 = c
      · subst h1; rfl
      · simp [own, h0, h1]) (handle_valid valid_empty)).1

/-- **What a user edits** is what it would be without the others, where these name none of the
    columns: the same requests of the user succeed, and the columns end with the same values. -/
theorem columns_alone {r : Resource} (hr : r ∈ columnwise) (id : ℕ)
    {log : List (C × Clock × Json)} (c : C)
    (hother : ∀ p ∈ log, p.1 ≠ c → ∀ p' ∈ log, p'.1 = c → ∀ f ∈ r.assigned,
      p.2.2.has f = true → p'.2.2.has f = false)
    {db : DB} (hv : Valid db) :
    own c (saves r id log db) = saves r id (own c log) db ∧
      ∀ p ∈ log, p.1 = c → ∀ f ∈ r.assigned, p.2.2.has f = true →
        (find (afterAll (puts r id log) db r.table) id).map (fun row => row.cell f) =
          (find (afterAll (puts r id (own c log)) db r.table) id).map fun row => row.cell f := by
  cases hfind : find (db r.table) id with
  | none =>
    obtain ⟨hsaves, hafter⟩ := puts_missing log hfind
    obtain ⟨hsaves', hafter'⟩ := puts_missing (own c log) hfind
    refine ⟨?_, fun p _ _ f _ _ => by rw [hafter, hafter']⟩
    rw [hsaves, hsaves', own_map fun _ => false]
  | some row =>
    obtain ⟨hsaves, hafter⟩ := puts_columns hr log hv hfind
    obtain ⟨hsaves', hafter'⟩ := puts_columns hr (own c log) hv hfind
    have hbodies : bodies (own c log) = own c (bodies log) := (own_map Prod.snd c log).symm
    have hapart : ∀ q ∈ bodies log, q.1 ≠ c → ∀ q' ∈ bodies log, q'.1 = c →
        Disjoint ((columns r).writes q.2) ((columns r).uses q'.2) := by
      intro q hq hqc q' hq' hqc'
      obtain ⟨p, hp, rfl⟩ := mem_bodies hq
      obtain ⟨p', hp', rfl⟩ := mem_bodies hq'
      refine Set.disjoint_left.mpr fun f hf hf' => ?_
      have hnot := hother p hp hqc p' hp' hqc' f hf.1 hf.2
      rw [hf'.2] at hnot
      cases hnot
    obtain ⟨hanswers, hcolumns⟩ := (columns r).alone hapart row.cell
    refine ⟨by rw [hsaves, hsaves', hbodies, hanswers], fun p hp hc f hf hhas => ?_⟩
    rw [hafter, hafter', hbodies, find_withCells hfind, find_withCells hfind]
    exact congrArg some (hcolumns (p.1, p.2.2) (List.mem_map_of_mem hp) hc f ⟨hf, hhas⟩)

/-- A user renames a menu, and others move it. -/
theorem columns_alone_menu :
    own 0 (saves .menu 1 [(1, .epoch, .dict [(.order, .int 4)]),
      (0, .epoch, .dict [(.name, .str "评审项目")]),
          (2, .epoch, .dict [(.path, .null)])]
        (handle .epoch (.create .menu (.json (.dict [(.name, .str "评审"), (.path, .str "/review")])))
          fun _ => []).2) =
      saves .menu 1 [(0, .epoch, .dict [(.name, .str "评审项目")])]
        (handle .epoch (.create .menu (.json (.dict [(.name, .str "评审"), (.path, .str "/review")])))
          fun _ => []).2 :=
  (columns_alone (by decide) 1 0 (by decide) (handle_valid valid_empty)).1

end Runs

end ProjectEvaluation.Backend
