import Mathlib.Data.List.Nodup
import Mathlib.Tactic

/-!
# Relational stores with references

A store maps every table to its list of rows; a row has a numeric key and its
cells. A schema lists the references (foreign keys) between tables and says
what the deletion of a referenced row does: it sets the referring cell to NULL,
or, for an association table, removes the referring row.

Results:
* `integrity_setCells`: after an assignment every reference is valid iff the
  newly stored ones are.
* `integrity_erase`: a deletion that is not blocked by a column that is NOT
  NULL keeps every reference valid.
* `mem_erase`, `erase_key_gone`: what a deletion leaves.
* `uniqueKeys_insert`, `uniqueKeys_setCell`, `uniqueKeys_erase`: keys stay
  unique.
-/

namespace ProjectEvaluation.Relational

/-- A row: its primary key and its cells. -/
structure Row (F V : Type) where
  id : ℕ
  cell : F → V

/-- A store maps each table to its rows, in the order of insertion. -/
abbrev Store (T F V : Type) := T → List (Row F V)

variable {T F V : Type}

/-! ## Keys -/

/-- The key the next inserted row gets: one more than the largest key in use. -/
def nextId (rows : List (Row F V)) : ℕ := (rows.map Row.id).foldr max 0 + 1

/-- A key in use is less than the next one. -/
theorem lt_nextKey {ids : List ℕ} {n : ℕ} (h : n ∈ ids) : n < ids.foldr max 0 + 1 := by
  induction ids with
  | nil => cases h
  | cons m ids ih =>
    rw [List.foldr_cons]
    rcases List.mem_cons.mp h with rfl | h
    · exact Nat.lt_succ_of_le (le_max_left _ _)
    · exact lt_of_lt_of_le (ih h) (Nat.succ_le_succ (le_max_right _ _))

theorem lt_nextId {rows : List (Row F V)} {r : Row F V} (h : r ∈ rows) : r.id < nextId rows :=
  lt_nextKey (List.mem_map_of_mem h)

theorem nextId_append_new (rows : List (Row F V)) {r : Row F V} (h : r.id = nextId rows) :
    nextId (rows ++ [r]) = nextId rows + 1 := by
  have hmax : ∀ (ids : List ℕ) (m : ℕ), (ids ++ [m]).foldr max 0 = max (ids.foldr max 0) m := by
    intro ids m
    induction ids with
    | nil => simp
    | cons n ids ih => rw [List.cons_append, List.foldr_cons, ih, List.foldr_cons, max_assoc]
  unfold nextId at h ⊢
  rw [List.map_append, List.map_singleton, hmax, h]
  omega

/-- The row with a given key. -/
def find (rows : List (Row F V)) (id : ℕ) : Option (Row F V) := rows.find? fun r => r.id == id

theorem mem_of_find {rows : List (Row F V)} {id : ℕ} {r : Row F V} (h : find rows id = some r) :
    r ∈ rows := List.mem_of_find?_eq_some h

theorem find_id {rows : List (Row F V)} {id : ℕ} {r : Row F V} (h : find rows id = some r) :
    r.id = id := by
  simpa using List.find?_some h

theorem find_eq_none {rows : List (Row F V)} {id : ℕ} :
    find rows id = none ↔ ∀ r ∈ rows, r.id ≠ id := by
  simp [find, List.find?_eq_none]

theorem find_append_new (rows : List (Row F V)) (r : Row F V) (h : r.id = nextId rows) :
    find (rows ++ [r]) (nextId rows) = some r := by
  have hnone : find rows (nextId rows) = none :=
    find_eq_none.mpr fun q hq => Nat.ne_of_lt (lt_nextId hq)
  unfold find at hnone ⊢
  rw [List.find?_append, hnone]
  simp [h]

theorem find_append_old {rows : List (Row F V)} {id : ℕ} {q : Row F V} (h : find rows id = some q)
    (r : Row F V) :
    find (rows ++ [r]) id = some q := by
  unfold find at h ⊢
  rw [List.find?_append, h]
  rfl

/-- In a list with pairwise distinct keys a row is found under its key. -/
theorem find_of_mem {rows : List (Row F V)} (hnodup : (rows.map Row.id).Nodup) {r : Row F V}
    (h : r ∈ rows) : find rows r.id = some r := by
  induction rows with
  | nil => cases h
  | cons q rows ih =>
    rw [List.map_cons, List.nodup_cons] at hnodup
    unfold find at ih ⊢
    rw [List.find?_cons]
    rcases List.mem_cons.mp h with rfl | h
    · simp
    · have hne : (q.id == r.id) = false := by
        simpa using fun he : q.id = r.id => hnodup.1 (he ▸ List.mem_map_of_mem h)
      rw [hne]
      exact ih hnodup.2 h

/-- The keys of every table are pairwise distinct. -/
def UniqueKeys (s : Store T F V) : Prop := ∀ t, ((s t).map Row.id).Nodup

/-! ## Stores that differ in one row -/

/-- Two stores agree but for the cells of the row `id` of one table. -/
def SameBut (t : T) (id : ℕ) (s s' : Store T F V) : Prop :=
  (∀ t', t' ≠ t → s' t' = s t') ∧
    ∃ g : Row F V → Row F V, (∀ r, (g r).id = r.id) ∧ (∀ r, r.id ≠ id → g r = r) ∧
      s' t = (s t).map g

theorem SameBut.refl (t : T) (id : ℕ) (s : Store T F V) : SameBut t id s s :=
  ⟨fun _ _ => rfl, fun r => r, fun _ => rfl, fun _ _ => rfl, (List.map_id' _).symm⟩

theorem SameBut.trans {t : T} {id : ℕ} {s₁ s₂ s₃ : Store T F V} (h : SameBut t id s₁ s₂)
    (h' : SameBut t id s₂ s₃) : SameBut t id s₁ s₃ := by
  obtain ⟨ho, g, hid, hne, hg⟩ := h
  obtain ⟨ho', g', hid', hne', hg'⟩ := h'
  refine ⟨fun t' ht => (ho' t' ht).trans (ho t' ht), g' ∘ g,
    fun r => (hid' _).trans (hid r), ?_, ?_⟩
  · intro r hr
    rw [Function.comp_apply, hne r hr, hne' r hr]
  · rw [hg', hg, List.map_map]

theorem SameBut.ids {t : T} {id : ℕ} {s s' : Store T F V} (h : SameBut t id s s') (t' : T) :
    (s' t').map Row.id = (s t').map Row.id := by
  obtain ⟨ho, g, hid, -, hg⟩ := h
  by_cases ht : t' = t
  · subst ht
    rw [hg, List.map_map]
    exact List.map_congr_left fun r _ => hid r
  · rw [ho t' ht]

/-- Every other row is where it was, and no row is new. -/
theorem SameBut.mem_iff {t : T} {id : ℕ} {s s' : Store T F V} (h : SameBut t id s s')
    {t' : T} {r : Row F V} (hr : t' ≠ t ∨ r.id ≠ id) : r ∈ s' t' ↔ r ∈ s t' := by
  obtain ⟨ho, g, hid, hne, hg⟩ := h
  by_cases ht : t' = t
  · subst ht
    have hr : r.id ≠ id := hr.resolve_left fun h => h rfl
    rw [hg, List.mem_map]
    constructor
    · rintro ⟨q, hq, rfl⟩
      rw [hid] at hr
      rwa [hne q hr]
    · exact fun hmem => ⟨r, hmem, hne r hr⟩
  · rw [ho t' ht]

/-- Under another key the same row is found. -/
theorem SameBut.find_other {t : T} {id : ℕ} {s s' : Store T F V} (h : SameBut t id s s') {id' : ℕ}
    (hne : id' ≠ id) :
    find (s' t) id' = find (s t) id' := by
  obtain ⟨-, g, hid, hsame, hg⟩ := h
  rw [hg]
  unfold find
  rw [List.find?_map]
  have hkey : ((fun r : Row F V => r.id == id') ∘ g) = fun r => r.id == id' := by
    funext r
    show ((g r).id == id') = (r.id == id')
    rw [hid]
  rw [hkey]
  cases hfind : (s t).find? fun r => r.id == id' with
  | none => rfl
  | some r =>
    have hr : r.id = id' := by simpa using List.find?_some hfind
    exact congrArg some (hsame r (hr ▸ hne))

/-! ## Operations -/

section Operations

variable [DecidableEq T]

/-- Append a row to a table. -/
def insert (s : Store T F V) (t : T) (r : Row F V) : Store T F V := Function.update s t (s t ++ [r])

/-- Assign one cell of the rows with a given key. -/
def setCell [DecidableEq F] (s : Store T F V) (t : T) (id : ℕ) (f : F) (v : V) : Store T F V :=
  Function.update s t
    ((s t).map fun r => if r.id = id then { r with cell := Function.update r.cell f v } else r)

/-- Remove the rows of a table that satisfy a condition. -/
def removeWhere (s : Store T F V) (t : T) (p : Row F V → Bool) : Store T F V :=
  Function.update s t ((s t).filter fun r => !p r)

@[simp] theorem insert_same (s : Store T F V) (t : T) (r : Row F V) :
    insert s t r t = s t ++ [r] := by
  simp [insert]

theorem insert_other (s : Store T F V) {t t' : T} (r : Row F V) (h : t' ≠ t) :
    insert s t r t' = s t' := by
  simp [insert, h]

theorem mem_insert {s : Store T F V} {t t' : T} {r q : Row F V} :
    q ∈ insert s t r t' ↔ q ∈ s t' ∨ (t' = t ∧ q = r) := by
  by_cases h : t' = t
  · subst h; simp
  · simp [insert_other s r h, h]

theorem setCell_other [DecidableEq F] (s : Store T F V) {t t' : T} (id : ℕ) (f : F) (v : V)
    (h : t' ≠ t) :
    setCell s t id f v t' = s t' := by
  simp [setCell, h]

theorem mem_setCell [DecidableEq F] {s : Store T F V} {t : T} {id : ℕ} {f : F} {v : V}
    {q : Row F V} :
    q ∈ setCell s t id f v t ↔
      ∃ r ∈ s t, q = if r.id = id then { r with cell := Function.update r.cell f v } else r := by
  simp only [setCell, Function.update_self, List.mem_map]
  exact exists_congr fun r => and_congr_right fun _ => eq_comm

/-- Assignments change no key. -/
theorem setCell_ids [DecidableEq F] (s : Store T F V) (t t' : T) (id : ℕ) (f : F) (v : V) :
    (setCell s t id f v t').map Row.id = (s t').map Row.id := by
  by_cases h : t' = t
  · subst h
    simp only [setCell, Function.update_self, List.map_map]
    apply List.map_congr_left
    intro r _
    by_cases hr : r.id = id <;> simp [hr]
  · rw [setCell_other s id f v h]

theorem mem_of_lookup [DecidableEq F] {values : List (F × V)} {f : F} {v : V}
    (h : values.lookup f = some v) : (f, v) ∈ values := by
  obtain ⟨l₁, l₂, rfl, -⟩ := List.lookup_eq_some_iff.mp h
  simp

theorem lookup_of_mem [DecidableEq F] {values : List (F × V)}
    (hnodup : (values.map Prod.fst).Nodup) {f : F}
    {v : V} (h : (f, v) ∈ values) : values.lookup f = some v := by
  induction values with
  | nil => cases h
  | cons p values ih =>
    rw [List.map_cons, List.nodup_cons] at hnodup
    rw [List.lookup_cons]
    rcases List.mem_cons.mp h with rfl | h
    · simp
    · have hne : (f == p.1) = false :=
        beq_eq_false_iff_ne.mpr fun he => hnodup.1 (he ▸ List.mem_map_of_mem h)
      rw [hne]
      exact ih hnodup.2 h

/-- Assign several cells of the rows with a given key, in order. -/
def setCells [DecidableEq F] (s : Store T F V) (t : T) (id : ℕ) : List (F × V) → Store T F V
  | [] => s
  | (f, v) :: values => setCells (setCell s t id f v) t id values

/-- A row after its cells were assigned. -/
def assignCells [DecidableEq F] (r : Row F V) (values : List (F × V)) : Row F V :=
  { r with cell := fun f => ((values.reverse).lookup f).getD (r.cell f) }

theorem assignCells_nil [DecidableEq F] (r : Row F V) : assignCells r [] = r := rfl

theorem assignCells_cons [DecidableEq F] (r : Row F V) (f : F) (v : V) (values : List (F × V)) :
    assignCells { r with cell := Function.update r.cell f v } values =
      assignCells r ((f, v) :: values) := by
  unfold assignCells
  congr 1
  funext g
  rw [List.reverse_cons, List.lookup_append]
  cases (values.reverse).lookup g with
  | some w => rfl
  | none =>
    by_cases hg : g = f
    · subst hg; simp
    · have hbeq : (g == f) = false := beq_eq_false_iff_ne.mpr hg
      simp [List.lookup_cons, hg, hbeq]

theorem assignCells_of_mem [DecidableEq F] (r : Row F V) {values : List (F × V)}
    (hnodup : (values.map Prod.fst).Nodup) {f : F} {v : V} (h : (f, v) ∈ values) :
    (assignCells r values).cell f = v := by
  have hrev : ((values.reverse).map Prod.fst).Nodup := by
    rw [List.map_reverse, List.nodup_reverse]; exact hnodup
  simp [assignCells, lookup_of_mem hrev (List.mem_reverse.mpr h)]

theorem assignCells_of_not_mem [DecidableEq F] (r : Row F V) {values : List (F × V)} {f : F}
    (h : ∀ v, (f, v) ∉ values) : (assignCells r values).cell f = r.cell f := by
  simp only [assignCells]
  cases hl : (values.reverse).lookup f with
  | none => rfl
  | some v => exact absurd (List.mem_reverse.mp (mem_of_lookup hl)) (h v)

theorem setCells_other [DecidableEq F] (s : Store T F V) {t t' : T} (id : ℕ) (values : List (F × V))
    (h : t' ≠ t) : setCells s t id values t' = s t' := by
  induction values generalizing s with
  | nil => rfl
  | cons p values ih => rw [setCells, ih, setCell_other s id p.1 p.2 h]

/-- **Several assignments** change the cells of the rows with the key, and nothing
    else. -/
theorem setCells_same [DecidableEq F] (s : Store T F V) (t : T) (id : ℕ) (values : List (F × V)) :
    setCells s t id values t = (s t).map fun r => if r.id = id then assignCells r values
      else r := by
  induction values generalizing s with
  | nil => simp [setCells, assignCells_nil]
  | cons p values ih =>
    rw [setCells, ih, setCell, Function.update_self, List.map_map]
    apply List.map_congr_left
    intro r _
    by_cases hr : r.id = id
    · simp only [Function.comp_apply, if_pos hr]
      exact assignCells_cons r p.1 p.2 values
    · simp [hr]

theorem mem_setCells [DecidableEq F] {s : Store T F V} {t : T} {id : ℕ} {values : List (F × V)}
    {q : Row F V} : q ∈ setCells s t id values t ↔
      ∃ r ∈ s t, q = if r.id = id then assignCells r values else r := by
  rw [setCells_same, List.mem_map]
  exact exists_congr fun r => and_congr_right fun _ => eq_comm

theorem find_setCells [DecidableEq F] (s : Store T F V) (t : T) (id : ℕ) (values : List (F × V)) :
    find (setCells s t id values t) id = (find (s t) id).map fun r => assignCells r values := by
  rw [setCells_same]
  unfold find
  induction s t with
  | nil => rfl
  | cons r rows ih =>
    rw [List.map_cons, List.find?_cons, List.find?_cons, ih]
    by_cases hr : r.id = id
    · have hid : (assignCells r values).id = id := hr
      simp [hr, hid]
    · have hbeq : (r.id == id) = false := beq_eq_false_iff_ne.mpr hr
      rw [if_neg hr, hbeq]

theorem sameBut_setCells [DecidableEq F] (s : Store T F V) (t : T) (id : ℕ)
    (values : List (F × V)) :
    SameBut t id s (setCells s t id values) := by
  refine ⟨fun t' ht => setCells_other s id values ht, _, ?_, ?_, setCells_same s t id values⟩
  · intro r; split_ifs <;> rfl
  · intro r hr; exact if_neg hr

/-- Assigning what is there already changes nothing. -/
theorem setCells_eq_self [DecidableEq F] {s : Store T F V} {t : T} {id : ℕ} {values : List (F × V)}
    (h : ∀ r ∈ s t, r.id = id → ∀ p ∈ values, r.cell p.1 = p.2) : setCells s t id values = s := by
  funext t'
  by_cases ht : t' = t
  · subst ht
    rw [setCells_same]
    conv_rhs => rw [← List.map_id' (s t')]
    apply List.map_congr_left
    intro r hr
    by_cases hid : r.id = id
    · rw [if_pos hid]
      unfold assignCells
      have hcell : (fun f => ((values.reverse).lookup f).getD (r.cell f)) = r.cell := by
        funext f
        cases hl : (values.reverse).lookup f with
        | none => rfl
        | some v =>
          have hmem : (f, v) ∈ values := List.mem_reverse.mp (mem_of_lookup hl)
          exact (h r hr hid (f, v) hmem).symm
      rw [hcell]
    · exact if_neg hid
  · exact setCells_other s id values ht

theorem find_isSome_of_ids {rows rows' : List (Row F V)}
    (h : rows'.map Row.id = rows.map Row.id) {id : ℕ}
    {r : Row F V} (hr : find rows id = some r) : ∃ r', find rows' id = some r' := by
  cases hfind : find rows' id with
  | some r' => exact ⟨r', rfl⟩
  | none =>
    have hmem : r.id ∈ rows'.map Row.id := h ▸ List.mem_map_of_mem (mem_of_find hr)
    obtain ⟨q, hq, hid⟩ := List.mem_map.mp hmem
    exact absurd (hid.trans (find_id hr)) (find_eq_none.mp hfind q hq)

theorem nextId_insert (s : Store T F V) {t : T} (r : Row F V) (hr : r.id = nextId (s t)) :
    nextId (insert s t r t) = nextId (s t) + 1 := by
  rw [insert_same]
  exact nextId_append_new _ hr

theorem uniqueKeys_insert {s : Store T F V} (h : UniqueKeys s) (t : T) {r : Row F V}
    (hr : r.id = nextId (s t)) : UniqueKeys (insert s t r) := by
  intro t'
  by_cases ht : t' = t
  · subst ht
    rw [insert_same, List.map_append, List.map_singleton, List.nodup_append]
    refine ⟨h t', List.nodup_singleton _, ?_⟩
    intro a ha b hb hab
    obtain ⟨q, hq, rfl⟩ := List.mem_map.mp ha
    rw [List.mem_singleton] at hb
    have := lt_nextId hq
    omega
  · rw [insert_other s r ht]; exact h t'

theorem uniqueKeys_setCell [DecidableEq F] {s : Store T F V} (h : UniqueKeys s) (t : T) (id : ℕ)
    (f : F) (v : V) : UniqueKeys (setCell s t id f v) := by
  intro t'; rw [setCell_ids]; exact h t'

theorem removeWhere_other (s : Store T F V) {t t' : T} (p : Row F V → Bool) (h : t' ≠ t) :
    removeWhere s t p t' = s t' := by
  simp [removeWhere, h]

theorem mem_removeWhere {s : Store T F V} {t t' : T} {p : Row F V → Bool} {q : Row F V} :
    q ∈ removeWhere s t p t' ↔ q ∈ s t' ∧ (t' = t → p q = false) := by
  by_cases h : t' = t
  · subst h; simp [removeWhere]
  · simp [removeWhere_other s p h, h]

/-- When the row of one key goes, the rows of the others are found as before. -/
theorem find_removeWhere_ne (s : Store T F V) (t : T) {id id' : ℕ} (hne : id' ≠ id) :
    find (removeWhere s t (fun r => r.id == id) t) id' = find (s t) id' := by
  unfold find
  rw [removeWhere, Function.update_self, List.find?_filter]
  congr 1
  funext r
  rw [Bool.eq_iff_iff, decide_eq_true_eq]
  refine and_iff_right_of_imp fun hr => ?_
  have hother : (r.id == id) = false := beq_eq_false_iff_ne.mpr (beq_iff_eq.mp hr ▸ hne)
  rw [hother]
  rfl

theorem uniqueKeys_removeWhere {s : Store T F V} (h : UniqueKeys s) (t : T) (p : Row F V → Bool) :
    UniqueKeys (removeWhere s t p) := by
  intro t'
  by_cases ht : t' = t
  · subst ht
    simp only [removeWhere, Function.update_self]
    exact (h t').sublist (List.filter_sublist.map _)
  · rw [removeWhere_other s p ht]; exact h t'

end Operations

/-! ## Schemas and referential integrity -/

/-- What happens to a referring row when the row it refers to is deleted. -/
inductive OnDelete
  | setNull
  | removeRow
  deriving DecidableEq

/-- A reference: the cells `column` of `table` hold keys of `target`. -/
structure Reference (T F : Type) where
  table : T
  column : F
  target : T
  onDelete : OnDelete

/-- The references between the tables. A column has one target, and no
    reference points at an association table. -/
structure Schema (T F V : Type) where
  references : List (Reference T F)
  nullable : T → F → Bool
  null : V
  key : ℕ → V
  key_injective : Function.Injective key
  one_target : ∀ a ∈ references, ∀ b ∈ references, a.table = b.table → a.column = b.column →
    a.target = b.target
  association_leaf : ∀ a ∈ references, a.onDelete = .removeRow → ∀ b ∈ references,
    b.target ≠ a.table

section Integrity

variable (S : Schema T F V)

/-- A value that a reference may hold: NULL where the column is nullable, or
    the key of a row of the target table. -/
def RefOk (s : Store T F V) (ref : Reference T F) (v : V) : Prop :=
  (v = S.null ∧ S.nullable ref.table ref.column = true) ∨ ∃ r ∈ s ref.target, v = S.key r.id

instance [DecidableEq V] (s : Store T F V) (ref : Reference T F) (v : V) :
    Decidable (RefOk S s ref v) := by
  unfold RefOk; infer_instance

/-- Every reference of the store is valid. -/
def Integrity (s : Store T F V) : Prop :=
  ∀ ref ∈ S.references, ∀ r ∈ s ref.table, RefOk S s ref (r.cell ref.column)

instance [DecidableEq V] (s : Store T F V) : Decidable (Integrity S s) := by
  unfold Integrity; infer_instance

/-- A reference stays valid where no key of its target table is lost. -/
theorem RefOk.mono {s s' : Store T F V} {ref : Reference T F} {v : V} (h : RefOk S s ref v)
    (hkeys : ∀ r ∈ s ref.target, ∃ r' ∈ s' ref.target, r'.id = r.id) : RefOk S s' ref v := by
  rcases h with h | ⟨r, hr, hv⟩
  · exact Or.inl h
  · obtain ⟨r', hr', hid⟩ := hkeys r hr
    exact Or.inr ⟨r', hr', by rw [hid]; exact hv⟩

/-- Whether a value is a valid reference depends on the keys of the target table
    only. -/
theorem refOk_of_ids {s s' : Store T F V} {ref : Reference T F} {v : V}
    (h : (s' ref.target).map Row.id = (s ref.target).map Row.id) :
    RefOk S s' ref v ↔ RefOk S s ref v := by
  have hmem : ∀ {s₁ s₂ : Store T F V}, (s₁ ref.target).map Row.id = (s₂ ref.target).map Row.id →
      ∀ r ∈ s₁ ref.target, ∃ r' ∈ s₂ ref.target, r'.id = r.id := by
    intro s₁ s₂ hids r hr
    have := List.mem_map_of_mem (f := Row.id) hr
    rw [hids] at this
    exact List.mem_map.mp this
  exact ⟨fun hok => hok.mono S (hmem h), fun hok => hok.mono S (hmem h.symm)⟩

/-- The row `q` is the row `r` of table `t` after some of its references became
    NULL. -/
def Detached (t : T) (r q : Row F V) : Prop :=
  q.id = r.id ∧ ∀ f, q.cell f = r.cell f ∨
    (q.cell f = S.null ∧ ∃ ref ∈ S.references, ref.table = t ∧ ref.column = f)

theorem Detached.refl (t : T) (r : Row F V) : Detached S t r r := ⟨rfl, fun _ => Or.inl rfl⟩

theorem Detached.trans {t : T} {r q p : Row F V} (h : Detached S t r q) (h' : Detached S t q p) :
    Detached S t r p := by
  refine ⟨h'.1.trans h.1, fun f => ?_⟩
  rcases h'.2 f with heq | hnull
  · rcases h.2 f with heq' | hnull'
    · exact Or.inl (heq.trans heq')
    · exact Or.inr ⟨heq.trans hnull'.1, hnull'.2⟩
  · exact Or.inr hnull

variable [DecidableEq T]

/-- After an insertion the new key may be referred to as well. -/
theorem refOk_insert {s : Store T F V} {t : T} {q : Row F V} {ref : Reference T F} {v : V} :
    RefOk S (insert s t q) ref v ↔ RefOk S s ref v ∨ (ref.target = t ∧ v = S.key q.id) := by
  constructor
  · rintro (hnull | ⟨r, hr, hv⟩)
    · exact Or.inl (Or.inl hnull)
    · rcases mem_insert.mp hr with hr | ⟨ht, rfl⟩
      · exact Or.inl (Or.inr ⟨r, hr, hv⟩)
      · exact Or.inr ⟨ht, hv⟩
  · rintro (hok | ⟨ht, hv⟩)
    · exact hok.mono S fun r hr => ⟨r, mem_insert.mpr (Or.inl hr), rfl⟩
    · exact Or.inr ⟨q, mem_insert.mpr (Or.inr ⟨ht, rfl⟩), hv⟩

/-- **Assignment.** The references stay valid iff those of the assigned rows are. -/
theorem integrity_setCells [DecidableEq F] {s : Store T F V} (h : Integrity S s) {t : T} {id : ℕ}
    {values : List (F × V)} :
    Integrity S (setCells s t id values) ↔
      ∀ ref ∈ S.references, ref.table = t → ∀ r ∈ s t, r.id = id →
        RefOk S s ref ((assignCells r values).cell ref.column) := by
  have hok : ∀ {ref : Reference T F} {v : V}, RefOk S (setCells s t id values) ref v ↔
      RefOk S s ref v :=
    refOk_of_ids S ((sameBut_setCells s t id values).ids _)
  constructor
  · rintro hset ref href rfl r hr rfl
    rw [← hok]
    exact hset ref href _ (mem_setCells.mpr ⟨r, hr, (if_pos rfl).symm⟩)
  · intro hv ref href q hq
    rw [hok]
    by_cases ht : ref.table = t
    · subst ht
      obtain ⟨r, hr, rfl⟩ := mem_setCells.mp hq
      by_cases hid : r.id = id
      · rw [if_pos hid]; exact hv ref href rfl r hr hid
      · rw [if_neg hid]; exact h ref href r hr
    · rw [setCells_other s id values ht] at hq
      exact h ref href q hq

/-- Removing rows of a table that no reference points at keeps the references
    valid. -/
theorem integrity_removeWhere {s : Store T F V} (h : Integrity S s) {t : T} (p : Row F V → Bool)
    (ht : ∀ ref ∈ S.references, ref.target ≠ t) : Integrity S (removeWhere s t p) := by
  intro ref href r hr
  refine (h ref href r (mem_removeWhere.mp hr).1).mono S fun q hq => ⟨q, ?_, rfl⟩
  exact mem_removeWhere.mpr ⟨hq, fun he => absurd he (ht ref href)⟩

/-! ## Deletion -/

variable [DecidableEq F] [DecidableEq V]

/-- The row `r` of table `t'` goes away when the row `id` of table `t` is
    deleted: it is that row, or an association row that refers to it. -/
def Removed (t : T) (id : ℕ) (t' : T) (r : Row F V) : Prop :=
  (t' = t ∧ r.id = id) ∨
    ∃ ref ∈ S.references, ref.table = t' ∧ ref.target = t ∧ ref.onDelete = .removeRow ∧
      r.cell ref.column = S.key id

/-- The cell `f` of the row `r` of table `t'` is set to NULL when the row `id`
    of table `t` is deleted. -/
def Nullified (t : T) (id : ℕ) (t' : T) (r : Row F V) (f : F) : Prop :=
  ∃ ref ∈ S.references, ref.table = t' ∧ ref.column = f ∧ ref.target = t ∧
    ref.onDelete = .setNull ∧ r.cell f = S.key id

instance (t : T) (id : ℕ) (t' : T) (r : Row F V) : Decidable (Removed S t id t' r) := by
  unfold Removed; infer_instance

instance (t : T) (id : ℕ) (t' : T) (r : Row F V) (f : F) : Decidable (Nullified S t id t' r f) := by
  unfold Nullified; infer_instance

/-- A deletion is blocked when it would set a cell of a remaining row to NULL
    in a column that is NOT NULL. -/
def Blocked (s : Store T F V) (t : T) (id : ℕ) : Prop :=
  ∃ ref ∈ S.references, S.nullable ref.table ref.column = false ∧
    ∃ r ∈ s ref.table, ¬ Removed S t id ref.table r ∧ Nullified S t id ref.table r ref.column

instance (s : Store T F V) (t : T) (id : ℕ) : Decidable (Blocked S s t id) := by
  unfold Blocked; infer_instance

/-- A row after the deletion of the row `id` of table `t`. -/
def detach (t : T) (id : ℕ) (t' : T) (r : Row F V) : Row F V :=
  { r with cell := fun f => if Nullified S t id t' r f then S.null else r.cell f }

/-- Delete the row `id` of table `t`: it and its association rows go, and the
    references of other rows to it become NULL. -/
def erase (s : Store T F V) (t : T) (id : ℕ) : Store T F V :=
  fun t' => ((s t').filter fun r => ¬ Removed S t id t' r).map (detach S t id t')

@[simp] theorem detach_id (t : T) (id : ℕ) (t' : T) (r : Row F V) :
    (detach S t id t' r).id = r.id := rfl

/-- **What a deletion leaves**: the rows that are not removed, detached from the
    deleted row. -/
theorem mem_erase {s : Store T F V} {t : T} {id : ℕ} {t' : T} {q : Row F V} :
    q ∈ erase S s t id t' ↔ ∃ r ∈ s t', ¬ Removed S t id t' r ∧ detach S t id t' r = q := by
  simp only [erase, List.mem_map, List.mem_filter, decide_eq_true_eq, and_assoc]

theorem erase_key_gone {s : Store T F V} {t : T} {id : ℕ} : ∀ r ∈ erase S s t id t, r.id ≠ id := by
  intro q hq
  obtain ⟨r, -, hrem, rfl⟩ := (mem_erase S).mp hq
  exact fun he => hrem (Or.inl ⟨rfl, he⟩)

theorem uniqueKeys_erase {s : Store T F V} (h : UniqueKeys s) (t : T) (id : ℕ) :
    UniqueKeys (erase S s t id) := by
  intro t'
  have : (erase S s t id t').map Row.id =
      ((s t').filter fun r => ¬ Removed S t id t' r).map Row.id := by
    simp [erase, List.map_map, Function.comp_def]
  rw [this]
  exact (h t').sublist (List.filter_sublist.map _)

theorem detached_detach (t : T) (id : ℕ) (t' : T) (r : Row F V) :
    Detached S t' r (detach S t id t' r) := by
  refine ⟨rfl, fun f => ?_⟩
  by_cases h : Nullified S t id t' r f
  · have ⟨ref, href, ht, hf, _⟩ := h
    exact Or.inr ⟨if_pos h, ref, href, ht, hf⟩
  · exact Or.inl (if_neg h)

/-- **Deletion.** A deletion that is not blocked keeps every reference valid. -/
theorem integrity_erase {s : Store T F V} (h : Integrity S s) {t : T} {id : ℕ}
    (hblocked : ¬ Blocked S s t id) : Integrity S (erase S s t id) := by
  intro ref href q hq
  obtain ⟨r, hr, hrem, rfl⟩ := (mem_erase S).mp hq
  have hcell : (detach S t id ref.table r).cell ref.column =
      if Nullified S t id ref.table r ref.column then S.null else r.cell ref.column := rfl
  rw [hcell]
  by_cases hnull : Nullified S t id ref.table r ref.column
  · rw [if_pos hnull]
    refine Or.inl ⟨rfl, ?_⟩
    by_contra hnn
    exact hblocked ⟨ref, href, by simpa using hnn, r, hr, hrem, hnull⟩
  · rw [if_neg hnull]
    rcases h ref href r hr with hok | ⟨p, hp, hv⟩
    · exact Or.inl hok
    · -- the row referred to survives, or the cell would have been nullified
      refine Or.inr ⟨detach S t id ref.target p, (mem_erase S).mpr ⟨p, hp, ?_, rfl⟩, hv⟩
      rintro (⟨ht, hid⟩ | ⟨a, ha, hat, -, haDel, -⟩)
      · subst hid
        cases hdel : ref.onDelete with
        | setNull => exact hnull ⟨ref, href, rfl, rfl, ht, hdel, hv⟩
        | removeRow => exact hrem (Or.inr ⟨ref, href, rfl, ht, hdel, hv⟩)
      · exact S.association_leaf a ha haDel ref href hat.symm

/-- A table without references loses the deleted row, if it is one of its own, and nothing
    else. -/
theorem erase_unreferring (s : Store T F V) (t : T) (id : ℕ) {t' : T}
    (ht' : ∀ ref ∈ S.references, ref.table ≠ t') :
    erase S s t id t' = (s t').filter fun r => ¬ (t' = t ∧ r.id = id) := by
  have hremoved : ∀ r, Removed S t id t' r ↔ t' = t ∧ r.id = id := by
    intro r
    refine ⟨fun h => ?_, Or.inl⟩
    rcases h with h | ⟨ref, href, htable, -⟩
    · exact h
    · exact absurd htable (ht' ref href)
  have hdetach : ∀ r, detach S t id t' r = r := by
    intro r
    have hcell : (fun f => if Nullified S t id t' r f then S.null else r.cell f) = r.cell := by
      funext f
      exact if_neg fun ⟨ref, href, htable, _⟩ => ht' ref href htable
    unfold detach
    rw [hcell]
  have hmap : (fun r => detach S t id t' r) = fun r => r := funext hdetach
  show ((s t').filter fun r => ¬ Removed S t id t' r).map (fun r => detach S t id t' r) = _
  rw [hmap, List.map_id']
  simp only [hremoved]

/-- Where no reference points at a table, a deletion removes its row and does
    nothing else. -/
theorem erase_unreferenced (s : Store T F V) {t : T} (id : ℕ)
    (ht : ∀ ref ∈ S.references, ref.target ≠ t) :
    erase S s t id = removeWhere s t fun r => r.id == id := by
  have hremoved : ∀ t' r, Removed S t id t' r ↔ t' = t ∧ r.id = id := by
    intro t' r
    refine ⟨fun h => ?_, Or.inl⟩
    rcases h with h | ⟨ref, href, -, htarget, -⟩
    · exact h
    · exact absurd htarget (ht ref href)
  have hdetach : ∀ t' r, detach S t id t' r = r := by
    intro t' r
    have hcell : (fun f => if Nullified S t id t' r f then S.null else r.cell f) = r.cell := by
      funext f
      exact if_neg fun ⟨ref, href, _, _, htarget, _⟩ => ht ref href htarget
    unfold detach
    rw [hcell]
  funext t'
  have hmap : (fun r => detach S t id t' r) = fun r => r := funext (hdetach t')
  show ((s t').filter fun r => ¬ Removed S t id t' r).map (fun r => detach S t id t' r) = _
  rw [hmap, List.map_id']
  simp only [hremoved]
  by_cases htt : t' = t
  · subst htt
    rw [removeWhere, Function.update_self]
    refine List.filter_congr fun r _ => ?_
    by_cases hid : r.id = id <;> simp [hid]
  · rw [removeWhere_other s _ htt]
    simp [htt]

end Integrity

end ProjectEvaluation.Relational
