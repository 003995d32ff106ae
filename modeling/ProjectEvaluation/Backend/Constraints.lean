import ProjectEvaluation.Backend.Orm

/-!
# The constraints of the columns

Types, NOT NULL and UNIQUE hold in every state the operations of the session
reach.

Results:
* `Valid`: the constraints, as an invariant of databases.
* `applyOp_valid`: every operation keeps it.
-/

namespace ProjectEvaluation.Backend

open Python Relational Transaction

/-- The constraints of `models.py` that SQLite and SQLAlchemy check. -/
structure Valid (db : DB) : Prop where
  keys : UniqueKeys db
  small : ∀ t, ∀ r ∈ db t, r.id < 2 ^ 63
  canonical : ∀ t, ∀ c ∈ t.columns, ∀ r ∈ db t, Canonical c.type (r.cell c.field)
  notNull : ∀ t, ∀ c ∈ t.columns, c.nullable = false → ∀ r ∈ db t, r.cell c.field ≠ .null
  unique : ∀ t, ∀ c ∈ t.columns, c.unique = true → ∀ r ∈ db t, ∀ q ∈ db t,
    r.cell c.field ≠ .null → r.cell c.field = q.cell c.field → r.id = q.id

theorem valid_empty : Valid (fun _ => []) where
  keys _ := List.nodup_nil
  small _ _ h := nomatch h
  canonical _ _ _ _ h := nomatch h
  notNull _ _ _ _ _ h := nomatch h
  unique _ _ _ _ _ h := nomatch h

theorem insertRow_valid {k : Clock} {t : Table} {attrs : List (Field × Attr)} {db db' : DB}
    (hv : Valid db) (h : insertRow k t attrs db = .ok db') : Valid db' := by
  obtain ⟨hid, hcols, rfl⟩ := insertRow_eq_ok.mp h
  have hnew : ∀ c ∈ t.columns, ∃ v,
      c.initial k attrs = .ok v ∧ Admissible db t (nextId (db t)) c v ∧
      (newRow k t attrs db).cell c.field = v := by
    intro c hc
    obtain ⟨v, hi, hadm⟩ := hcols c hc
    exact ⟨v, hi, hadm, newRow_cell hc hi⟩
  constructor
  · exact uniqueKeys_insert hv.keys t rfl
  · intro t' r hr
    rcases mem_insert.mp hr with hr | ⟨-, rfl⟩
    · exact hv.small t' r hr
    · exact hid
  · intro t' c hc r hr
    rcases mem_insert.mp hr with hr | ⟨rfl, rfl⟩
    · exact hv.canonical t' c hc r hr
    · obtain ⟨v, hi, -, hcell⟩ := hnew c hc
      rw [hcell]
      exact Column.initial_canonical hc hi
  · intro t' c hc hn r hr
    rcases mem_insert.mp hr with hr | ⟨rfl, rfl⟩
    · exact hv.notNull t' c hc hn r hr
    · obtain ⟨v, -, hadm, hcell⟩ := hnew c hc
      rw [hcell]
      intro hnull
      rw [hadm.1 hnull] at hn
      cases hn
  · intro t' c hc hu r hr q hq hnull heq
    rcases mem_insert.mp hr with hr' | ⟨rfl, rfl⟩ <;> rcases mem_insert.mp hq with hq' | ⟨ht, rfl⟩
    · exact hv.unique t' c hc hu r hr' q hq' hnull heq
    · subst ht
      obtain ⟨v, -, hadm, hcell⟩ := hnew c hc
      rw [hcell] at heq
      exact absurd heq (hadm.2 hu (heq ▸ hnull) r hr' (Nat.ne_of_lt (lt_nextId hr')))
    · obtain ⟨v, -, hadm, hcell⟩ := hnew c hc
      rw [hcell] at heq hnull
      exact absurd heq.symm (hadm.2 hu hnull q hq' (Nat.ne_of_lt (lt_nextId hq')))
    · rfl

theorem assign_valid {t : Table} {id : ℕ} {f : Field} {a : Attr} {db db' : DB} (hv : Valid db)
    (h : assign t id f a db = .ok db') : Valid db' := by
  rcases assign_cases h with ⟨-, rfl⟩ | ⟨c, v, hc, hbind, hadm, rfl⟩
  · exact hv
  have hmem := Table.mem_of_column hc
  obtain rfl := Table.column_field hc
  -- a cell of a row afterwards is an old cell, or the new value in the column assigned to
  have hcell : ∀ t', ∀ d ∈ t'.columns, ∀ r ∈ setCell db t id c.field v t', ∃ r₀ ∈ db t',
      r₀.id = r.id ∧
      (r.cell d.field = r₀.cell d.field ∨ (t' = t ∧ d = c ∧ r.id = id ∧ r.cell d.field = v)) ∧
      (t' = t → d = c → r.id = id → r.cell d.field = v) := by
    intro t' d hd r hr
    by_cases ht : t' = t
    · subst ht
      obtain ⟨r₀, hr₀, rfl⟩ := mem_setCell.mp hr
      refine ⟨r₀, hr₀, by split_ifs <;> rfl, ?_, ?_⟩
      · by_cases hid : r₀.id = id
        · rw [if_pos hid]
          by_cases hdc : d.field = c.field
          · obtain rfl := List.inj_on_of_nodup_map t'.columns_nodup hd hmem hdc
            exact Or.inr ⟨rfl, rfl, hid, by simp⟩
          · exact Or.inl (by simp [hdc])
        · rw [if_neg hid]; exact Or.inl rfl
      · rintro - rfl hid
        split_ifs at hid ⊢ with hid₀
        · simp
        · exact absurd hid hid₀
    · rw [setCell_other db id c.field v ht] at hr
      exact ⟨r, hr, rfl, Or.inl rfl, fun he => absurd he ht⟩
  constructor
  · exact uniqueKeys_setCell hv.keys t id c.field v
  · intro t' r hr
    have hids := List.mem_map_of_mem (f := Row.id) hr
    rw [setCell_ids] at hids
    obtain ⟨r₀, hr₀, hid⟩ := List.mem_map.mp hids
    exact hid ▸ hv.small t' r₀ hr₀
  · intro t' d hd r hr
    obtain ⟨r₀, hr₀, -, he | ⟨-, rfl, -, he⟩, -⟩ := hcell t' d hd r hr
    · rw [he]; exact hv.canonical t' d hd r₀ hr₀
    · rw [he]; exact Attr.bind_canonical hbind
  · intro t' d hd hn r hr
    obtain ⟨r₀, hr₀, -, he | ⟨-, rfl, -, he⟩, -⟩ := hcell t' d hd r hr
    · rw [he]; exact hv.notNull t' d hd hn r₀ hr₀
    · rw [he]
      intro hnull
      rw [hadm.1 hnull] at hn
      cases hn
  · intro t' d hd hu r hr q hq hnull heq
    obtain ⟨r₀, hr₀, hrid, hr', hrv⟩ := hcell t' d hd r hr
    obtain ⟨q₀, hq₀, hqid, hq', hqv⟩ := hcell t' d hd q hq
    rcases hr' with hr' | ⟨rfl, rfl, hri, hr'⟩ <;> rcases hq' with hq' | ⟨ht, hdc, hqi, hq'⟩
    · rw [← hrid, ← hqid]
      exact hv.unique t' d hd hu r₀ hr₀ q₀ hq₀ (hr' ▸ hnull) (by rw [← hr', ← hq', heq])
    · subst ht hdc
      by_contra hne
      exact hadm.2 hu (hq' ▸ heq ▸ hnull) r₀ hr₀ (by rw [hrid, ← hqi]; exact hne)
        (by rw [← hr', heq, hq'])
    · by_contra hne
      exact hadm.2 hu (hr' ▸ hnull) q₀ hq₀ (by rw [hqid, ← hri]; exact fun he => hne he.symm)
        (by rw [← hq', ← heq, hr'])
    · rw [hri, hqi]

theorem removeWhere_valid {db : DB} (hv : Valid db) (t : Table) (p : Record → Bool) :
    Valid (removeWhere db t p) where
  keys := uniqueKeys_removeWhere hv.keys t p
  small t' r hr := hv.small t' r (mem_removeWhere.mp hr).1
  canonical t' c hc r hr := hv.canonical t' c hc r (mem_removeWhere.mp hr).1
  notNull t' c hc hn r hr := hv.notNull t' c hc hn r (mem_removeWhere.mp hr).1
  unique t' c hc hu r hr q hq :=
    hv.unique t' c hc hu r (mem_removeWhere.mp hr).1 q (mem_removeWhere.mp hq).1

theorem deleteRow_valid {t : Table} {id : ℕ} {db db' : DB} (hv : Valid db)
    (h : deleteRow t id db = .ok db') : Valid db' := by
  obtain ⟨hblocked, rfl⟩ := deleteRow_eq_ok.mp h
  -- a cell of a row afterwards is an old cell, or NULL in a foreign key
  have hcell : ∀ t' f, ∀ r ∈ erase schema db t id t', ∃ r₀ ∈ db t', r₀.id = r.id ∧
      (r.cell f = r₀.cell f ∨ (r.cell f = .null ∧ schema.nullable t' f = true)) := by
    intro t' f r hr
    obtain ⟨r₀, hr₀, hrem, rfl⟩ := (mem_erase schema).mp hr
    refine ⟨r₀, hr₀, rfl, ?_⟩
    by_cases hnull : Nullified schema t id t' r₀ f
    · refine Or.inr ⟨if_pos hnull, ?_⟩
      have hnull' := hnull
      obtain ⟨ref, href, rfl, rfl, -⟩ := hnull'
      by_contra hn
      exact hblocked ⟨ref, href, by simpa using hn, r₀, hr₀, hrem, hnull⟩
    · exact Or.inl (if_neg hnull)
  constructor
  · exact uniqueKeys_erase schema hv.keys t id
  · intro t' r hr
    obtain ⟨r₀, hr₀, hid, -⟩ := hcell t' .id r hr
    exact hid ▸ hv.small t' r₀ hr₀
  · intro t' c hc r hr
    obtain ⟨r₀, hr₀, -, he | ⟨he, -⟩⟩ := hcell t' c.field r hr
    · rw [he]; exact hv.canonical t' c hc r₀ hr₀
    · rw [he]; exact canonical_null _
  · intro t' c hc hn r hr
    obtain ⟨r₀, hr₀, -, he | ⟨-, hnullable⟩⟩ := hcell t' c.field r hr
    · rw [he]; exact hv.notNull t' c hc hn r₀ hr₀
    · simp [schema, Table.column_of_mem hc, hn] at hnullable
  · intro t' c hc hu r hr q hq hnull heq
    obtain ⟨r₀, hr₀, hrid, hr' | ⟨hr', -⟩⟩ := hcell t' c.field r hr
    · obtain ⟨q₀, hq₀, hqid, hq' | ⟨hq', -⟩⟩ := hcell t' c.field q hq
      · rw [← hrid, ← hqid]
        exact hv.unique t' c hc hu r₀ hr₀ q₀ hq₀ (hr' ▸ hnull) (by rw [← hr', ← hq', heq])
      · exact absurd (heq.trans hq') hnull
    · exact absurd hr' hnull

theorem setTargets_valid {k : Clock} {courseware : ℕ} {roles : List ℕ} {db db' : DB} (hv : Valid db)
    (h : setTargets k courseware roles db = .ok db') : Valid db' := by
  simp only [setTargets] at h
  split_ifs at h
  exact applyAll_preserves _ (fun _ _ _ => insertRow_valid) (removeWhere_valid hv _ _) h

/-- **Every operation keeps the constraints.** -/
theorem applyOp_valid (o : Op) (db db' : DB) (hv : Valid db) (h : applyOp o db = .ok db') :
    Valid db' := by
  cases o with
  | insert k t attrs => exact insertRow_valid hv h
  | assign t id f a => exact assign_valid hv h
  | delete t id => exact deleteRow_valid hv h
  | deleteWhere t f n =>
    obtain ⟨-, rfl⟩ := deleteWhere_eq_ok.mp h
    exact removeWhere_valid hv _ _
  | setTargets k courseware roles => exact setTargets_valid hv h

end ProjectEvaluation.Backend
