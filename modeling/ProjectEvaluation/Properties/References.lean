import ProjectEvaluation.Properties.Imports

/-!
# Foreign keys

SQLite checks no foreign key, so whether the references stay valid is up to the
handlers.

Results:
* `delete_keeps_references`: a delete handler keeps every reference valid and
  removes no row but those it is for, or it changes nothing.
* `references_kept_iff`: any request keeps every reference valid iff the foreign
  keys it supplies are.
-/

namespace ProjectEvaluation.Backend

open Python Relational Transaction

/-! ## Deletion -/

/-- A row that goes away after some of its references became NULL would have gone
    away before. -/
theorem removed_of_detached {t t' : Table} {id : ℕ} {r q : Record} (h : Detached schema t' r q)
    (hq : Removed schema t id t' q) : Removed schema t id t' r := by
  rcases hq with ⟨ht, hid⟩ | ⟨ref, href, htable, htarget, hdel, hcell⟩
  · exact Or.inl ⟨ht, h.1.symm.trans hid⟩
  · refine Or.inr ⟨ref, href, htable, htarget, hdel, ?_⟩
    rcases h.2 ref.column with heq | ⟨hnull, -⟩
    · rw [← heq]; exact hcell
    · rw [hnull] at hcell; cases hcell

/-- What the deletions of the rows `gone` leave of a database: the other rows, up to
    references that became NULL. -/
structure Pruned (gone : List (Table × ℕ)) (db db' : DB) : Prop where
  survive : ∀ t, ∀ r ∈ db t,
    (∃ q ∈ db' t, Detached schema t r q) ∨ ∃ p ∈ gone, Removed schema p.1 p.2 t r
  origin : ∀ t, ∀ q ∈ db' t, ∃ r ∈ db t, Detached schema t r q

theorem Pruned.cons {t : Table} {id : ℕ} {gone : List (Table × ℕ)} {db db' : DB}
    (h : Pruned gone (erase schema db t id) db') : Pruned ((t, id) :: gone) db db' where
  survive t' r hr := by
    by_cases hrem : Removed schema t id t' r
    · exact Or.inr ⟨(t, id), List.mem_cons_self .., hrem⟩
    · have hdetached := detached_detach schema t id t' r
      rcases h.survive t' _ ((mem_erase schema).mpr ⟨r, hr, hrem, rfl⟩) with ⟨q, hq, hd⟩ |
        ⟨p, hp, hremoved⟩
      · exact Or.inl ⟨q, hq, hdetached.trans schema hd⟩
      · exact Or.inr ⟨p, List.mem_cons_of_mem _ hp, removed_of_detached hdetached hremoved⟩
  origin t' q hq := by
    obtain ⟨p, hp, hd⟩ := h.origin t' q hq
    obtain ⟨r, hr, -, rfl⟩ := (mem_erase schema).mp hp
    exact ⟨r, hr, (detached_detach schema t id t' r).trans schema hd⟩

/-- **A list of deletions** keeps every reference valid and prunes the database. -/
theorem deleteAll_spec {gone : List (Table × ℕ)} {db db' : DB} (h : Integrity schema db)
    (hall : applyAll applyOp (gone.map fun p => .delete p.1 p.2) db = .ok db') :
    Integrity schema db' ∧ Pruned gone db db' := by
  induction gone generalizing db with
  | nil =>
    cases hall
    exact ⟨h, fun t r hr => Or.inl ⟨r, hr, Detached.refl schema t r⟩,
      fun t q hq => ⟨q, hq, Detached.refl schema t q⟩⟩
  | cons p gone ih =>
    rw [List.map_cons, applyAll_cons, bind_eq_ok] at hall
    obtain ⟨w, hdel, hall⟩ := hall
    obtain ⟨hblocked, rfl⟩ := deleteRow_eq_ok.mp hdel
    obtain ⟨hint, hpruned⟩ := ih (integrity_erase schema h hblocked) hall
    exact ⟨hint, hpruned.cons⟩

/-- The row a delete handler is asked for is gone at the end. -/
theorem deleteOps_gone {t : Table} {id : ℕ} {others : List (Table × ℕ)} {db db' : DB}
    (hall : applyAll applyOp (deleteOps t id others) db = .ok db') : ∀ q ∈ db' t, q.id ≠ id := by
  rw [deleteOps, applyAll_append, bind_eq_ok] at hall
  obtain ⟨w, -, hlast⟩ := hall
  rw [applyAll_singleton] at hlast
  obtain ⟨-, rfl⟩ := deleteRow_eq_ok.mp hlast
  exact erase_key_gone schema

/-- No foreign key refers to a vendor research, so its deletion removes nothing
    else. -/
theorem removed_vendorResearch {n : ℕ} {t : Table} {q : Record}
    (h : Removed schema .vendorResearch n t q) : t = .vendorResearch ∧ q.id = n := by
  have hleaf : ∀ ref ∈ foreignKeys, ref.target ≠ .vendorResearch := by decide
  rcases h with h | ⟨ref, href, -, htarget, -⟩
  · exact h
  · exact absurd htarget (hleaf ref href)

/-- The vendor researches that go with a research task. -/
def Resource.NamesResearch (r : Resource) (id : ℕ) (db : DB) (research : ℕ) : Prop :=
  r = .researchTask ∧ ∃ task others, find (db .researchTask) id = some task ∧
    researchesOf task db = .ok others ∧ (.vendorResearch, research) ∈ others

theorem cascade_names {r : Resource} {row : Record} {id : ℕ} {db : DB} {others : List (Table × ℕ)}
    (hfind : find (db r.table) id = some row) (h : r.cascade row db = .ok others) :
    ∀ p ∈ others, p.1 = .vendorResearch ∧ r.NamesResearch id db p.2 := by
  cases r with
  | researchTask =>
    intro p hp
    obtain ⟨researches, -, hothers⟩ := map_eq_ok.mp h
    have hmem := hp
    rw [← hothers] at hmem
    obtain ⟨q, -, rfl⟩ := List.mem_map.mp hmem
    exact ⟨rfl, rfl, row, others, hfind, h, hp⟩
  | _ => cases h; exact fun p hp => nomatch hp

/-- **Deletion.** A delete handler succeeds, and then the row is gone, every foreign
    key is valid, and a row that is missing is the target, an association row of
    the target or a vendor research of the deleted task; the rows that are left
    lost nothing but references. Otherwise it changes nothing. -/
theorem delete_keeps_references (k : Clock) (r : Resource) (id : ℕ) (db : DB)
    (h : Integrity schema db) :
    ((handle k (.delete r id) db).1.Success ∧
        (∀ q ∈ (handle k (.delete r id) db).2 r.table, q.id ≠ id) ∧
        Integrity schema (handle k (.delete r id) db).2 ∧
        (∀ t, ∀ q ∈ db t,
          (∃ q' ∈ (handle k (.delete r id) db).2 t, Detached schema t q q') ∨
            Removed schema r.table id t q ∨ (t = .vendorResearch ∧ r.NamesResearch id db q.id)) ∧
        ∀ t, ∀ q' ∈ (handle k (.delete r id) db).2 t, ∃ q ∈ db t, Detached schema t q q') ∨
      (¬ (handle k (.delete r id) db).1.Success ∧ (handle k (.delete r id) db).2 = db) := by
  rcases delete_cases (rfl : run (deleteResource r id) db = _) with
    hrefused | ⟨hgood, row, others, -, hfind, hothers, hall⟩
  · exact Or.inr hrefused
  left
  have hgone := deleteOps_gone hall
  rw [deleteOps_eq] at hall
  obtain ⟨hint, hpruned⟩ := deleteAll_spec h hall
  refine ⟨hgood, hgone, hint, fun t q hq => ?_, hpruned.origin⟩
  rcases hpruned.survive t q hq with hsurvives | ⟨p, hp, hremoved⟩
  · exact Or.inl hsurvives
  rcases List.mem_append.mp hp with hp | hp
  · obtain ⟨hvendor, hnamed⟩ := cascade_names hfind hothers p hp
    rw [hvendor] at hremoved
    obtain ⟨rfl, hid⟩ := removed_vendorResearch hremoved
    rw [← hid] at hnamed
    exact Or.inr (Or.inr ⟨rfl, hnamed⟩)
  · rw [List.mem_singleton.mp hp] at hremoved
    exact Or.inr (Or.inl hremoved)

/-- The role and the courseware that is for it: the association row goes with the
    courseware. -/
theorem delete_keeps_references_courseware :
    let db := DB.ofRows
      [(.role, record 1 [(.name, .text "医生")]),
       (.trainingCourseware, record 1 [(.coursewareName, .text "课件")]),
       (.trainingTargets, record 1 [(.coursewareId, .int 1), (.roleId, .int 1)])]
    (handle .epoch (.delete .courseware 1) db).1.Success ∧
      Integrity schema (handle .epoch (.delete .courseware 1) db).2 := by
  intro db
  have hgood : (handle .epoch (.delete .courseware 1) db).1.Success := by decide
  rcases delete_keeps_references .epoch .courseware 1 db (by decide) with ⟨-, -, hint, -⟩ |
    ⟨hbad, -⟩
  · exact ⟨hgood, hint⟩
  · exact absurd hgood hbad

/-! ## What a request supplies -/

/-- The value a body has under a key, NULL where the key is absent. -/
def bodyValue (data : Json) (f : Field) : Json := (data.getD f .null).toOption.getD .null

/-- The value a column of integers stores. -/
def keyValue (j : Json) : Value := (bindJson .integer j).toOption.getD .null

/-- A foreign key with a value for it. -/
abbrev Supply := Reference Table Field × Value

/-- The foreign keys of a new row, as the body gives them. -/
def suppliedByBody (t : Table) (data : Json) : List Supply :=
  t.foreignKeys.map fun ref => (ref, keyValue (bodyValue data ref.column))

/-- An update handler assigns a foreign key the body names; no handler assigns the
    creator of a task. -/
def updatesKey (data : Json) (f : Field) : Bool := data.has f && f != .creatorId

/-- The foreign keys an update assigns. -/
def suppliedByUpdate (t : Table) (data : Json) : List Supply :=
  (suppliedByBody t data).filter fun s => updatesKey data s.1.column

/-- The foreign keys of a permission of a role. -/
def suppliedByPermission (roleId : ℕ) (perm : Json) : List Supply :=
  Table.rolePermission.foreignKeys.map fun ref =>
    (ref, if ref.column = .roleId then .int roleId else keyValue (bodyValue perm ref.column))

/-- The foreign keys of an item of a JSON import; an item that is no object is
    skipped. -/
def suppliedByItem : Json → List Supply
  | .dict entries => suppliedByBody .researchTemplate (.dict entries)
  | _ => []

/-- The foreign key in a field of a CSV record. -/
def csvKey (row : CsvRow) (f : Field) : Value :=
  match intOrNone (row.get f none) with
  | .ok (some (.json j)) => keyValue j
  | _ => .null

/-- The foreign keys of a CSV record that is not skipped. -/
def suppliedByRow (k : Clock) (row : CsvRow) : List Supply :=
  if (unlessRaised (templateRow k row)).isSome then
    Table.researchTemplate.foreignKeys.map fun ref => (ref, csvKey row ref.column)
  else []

/-- The foreign keys a request supplies. -/
def Request.supplies (k : Clock) : Request → List Supply
  | .register (.json data) => suppliedByBody .user data
  | .rolePermissions roleId (.json data) =>
    ((data.iter).toOption.getD []).flatMap (suppliedByPermission roleId)
  | .create r (.json data) => suppliedByBody r.table data
  | .update r _ (.json data) => suppliedByUpdate r.table data
  | .importTemplates (some file) =>
    if endsWith file.filename ".json" then
      match file.json with
      | .value data => (importedItems data).flatMap suppliedByItem
      | _ => []
    else
      match file.csv with
      | .ok (rows, _) => rows.flatMap (suppliedByRow k)
      | .error _ => []
  | _ => []

/-- The table a create handler inserts a row into. -/
def Request.creates : Request → Option Table
  | .create r _ => some r.table
  | _ => none

/-- Every foreign key a request supplies is NULL, where that is allowed, or the key
    of a row of the referenced table, or the key of the row it creates there. -/
def Request.SuppliesValid (k : Clock) (db : DB) (request : Request) : Prop :=
  ∀ s ∈ request.supplies k, RefOk schema db s.1 s.2 ∨
    (request.creates = some s.1.target ∧ s.2 = .int (nextId (db s.1.target)))

instance (k : Clock) (db : DB) (request : Request) : Decidable (request.SuppliesValid k db) := by
  unfold Request.SuppliesValid; infer_instance

theorem keyValue_of_bind {j : Json} {v : Value} (h : bindJson .integer j = .ok v) :
    keyValue j = v := by
  rw [keyValue, h]; rfl

theorem bodyValue_of_getD {data j : Json} {f : Field} (h : data.getD f .null = .ok j) :
    bodyValue data f = j := by
  rw [bodyValue, h]; rfl

theorem bodyValue_of_item {data j : Json} {f : Field} (h : data.item f = .ok j) :
    bodyValue data f = j :=
  bodyValue_of_getD (Json.getD_of_get (Json.get_of_item h))

/-! ## Insertion -/

/-- The value a list of attributes gives to a foreign key. -/
def attrKey (attrs : List (Field × Attr)) (f : Field) : Value :=
  match attrs.lookup f with
  | some (.json j) => keyValue j
  | some (.value v) => v
  | none => .null

/-- The foreign keys of a row that is built from attributes. -/
theorem built_key {k : Clock} {t : Table} {attrs : List (Field × Attr)} {row : Record}
    (h : Built k t attrs row)
    {ref : Reference Table Field} (href : ref ∈ t.foreignKeys) :
    row.cell ref.column = attrKey attrs ref.column := by
  obtain ⟨c, hc, hty, hdefault⟩ := foreignKey_column href
  have hinit := h c (Table.mem_of_column hc)
  rw [← Table.column_field hc]
  unfold attrKey
  cases hlookup : attrs.lookup c.field with
  | none =>
    rw [Column.initial, hlookup, Column.absent, hdefault] at hinit
    exact (Except.ok.inj hinit).symm
  | some a =>
    rw [Column.initial_eq_bind k hlookup (Or.inl hdefault)] at hinit
    cases a with
    | json j =>
      rw [hty] at hinit
      exact (keyValue_of_bind hinit).symm
    | value v =>
      simp only [Attr.bind] at hinit
      split_ifs at hinit
      exact (Except.ok.inj hinit).symm

/-- **Insertions.** The references stay valid iff those of the new rows are. -/
theorem integrity_insertAll {k : Clock} {t : Table} {rows : List (List (Field × Attr))}
    {db db' : DB}
    (hdb : Integrity schema db) (h : applyAll applyOp (rows.map (.insert k t)) db = .ok db') :
    Integrity schema db' ↔
      ∀ attrs ∈ rows, ∀ ref ∈ t.foreignKeys, RefOk schema db' ref (attrKey attrs ref.column) := by
  obtain ⟨new, hnew, hbuilt, hother⟩ := insertAll_new h
  have hmono : ∀ {ref : Reference Table Field} {v : Value},
      RefOk schema db ref v → RefOk schema db' ref v := by
    intro ref v hok
    refine hok.mono schema fun q hq => ⟨q, ?_, rfl⟩
    by_cases ht : ref.target = t
    · rw [ht] at hq ⊢
      rw [hnew]
      exact List.mem_append_left _ hq
    · rw [hother _ ht]
      exact hq
  constructor
  · intro hint attrs ha ref href
    obtain ⟨q, hq, hrow⟩ := exists_of_forall₂ hbuilt attrs ha
    obtain ⟨hall, rfl⟩ := mem_tableForeignKeys.mp href
    rw [← built_key hrow href]
    refine hint ref hall q ?_
    rw [hnew]
    exact List.mem_append_right _ hq
  · intro hvalid ref href q hq
    by_cases ht : ref.table = t
    · subst ht
      rw [hnew] at hq
      rcases List.mem_append.mp hq with hq | hq
      · exact hmono (hdb ref href q hq)
      · obtain ⟨attrs, ha, hrow⟩ := exists_of_forall₂ hbuilt.flip q hq
        have htable := mem_tableForeignKeys.mpr ⟨href, rfl⟩
        rw [built_key hrow htable]
        exact hvalid attrs ha ref htable
    · rw [hother _ ht] at hq
      exact hmono (hdb ref href q hq)

/-! ## What the handlers give to foreign keys -/

/-- A constructor call takes a value from the body as it is. -/
def takesKey (sources : List Source) (f : Field) : Bool :=
  match sources.find? fun s => s.field == f with
  | some (.item g) => g == f
  | some (.get g .null) => g == f
  | _ => false

theorem construct_lookup {data : Json} {sources : List Source} {attrs : List (Field × Attr)}
    (h : construct data sources = .ok attrs) {f : Field} {s : Source}
    (hs : sources.find? (fun s => s.field == f) = some s) :
    ∃ a, s.eval data = .ok a ∧ attrs.lookup f = some a := by
  induction sources generalizing attrs with
  | nil => cases hs
  | cons q sources ih =>
    rw [construct_cons, bind_eq_ok] at h
    obtain ⟨a, ha, h⟩ := h
    obtain ⟨rest, hrest, rfl⟩ := map_eq_ok.mp h
    rw [List.find?_cons] at hs
    rw [List.lookup_cons]
    by_cases hq : q.field = f
    · rw [beq_iff_eq.mpr hq] at hs
      cases hs
      exact ⟨a, ha, by rw [beq_iff_eq.mpr hq.symm]⟩
    · rw [beq_eq_false_iff_ne.mpr hq] at hs
      rw [beq_eq_false_iff_ne.mpr (Ne.symm hq)]
      exact ih hrest hs

theorem construct_key {data : Json} {sources : List Source} {attrs : List (Field × Attr)}
    (h : construct data sources = .ok attrs) {f : Field} (hf : takesKey sources f = true) :
    attrs.lookup f = some (.json (bodyValue data f)) := by
  unfold takesKey at hf
  split at hf
  · rename_i g hs
    obtain ⟨a, ha, hlookup⟩ := construct_lookup h hs
    obtain ⟨j, hj, rfl⟩ := map_eq_ok.mp ha
    obtain rfl := beq_iff_eq.mp hf
    rw [hlookup, bodyValue_of_item hj]
  · rename_i g hs
    obtain ⟨a, ha, hlookup⟩ := construct_lookup h hs
    obtain ⟨j, hj, rfl⟩ := map_eq_ok.mp ha
    obtain rfl := beq_iff_eq.mp hf
    rw [hlookup, bodyValue_of_getD hj]
  · cases hf

theorem attrKey_of_body {data : Json} {attrs : List (Field × Attr)} {f : Field}
    (h : attrs.lookup f = some (.json (bodyValue data f))) :
    attrKey attrs f = keyValue (bodyValue data f) := by
  rw [attrKey, h]

theorem projectSources_takeKeys (date : Date) (shortName mnemonic : Json) :
    ∀ ref ∈ Table.evaluationProject.foreignKeys,
      takesKey (projectSources date shortName mnemonic) ref.column = true := by
  intro ref href
  have hmem : ref ∈ ([_, _, _, _] : List (Reference Table Field)) := href
  simp only [List.mem_cons, List.not_mem_nil, or_false] at hmem
  rcases hmem with rfl | rfl | rfl | rfl <;> rfl

theorem vendorSources_takeKeys (date : Attr) :
    ∀ ref ∈ Table.vendorResearch.foreignKeys, takesKey (vendorSources date) ref.column = true := by
  intro ref href
  have hmem : ref ∈ ([_, _, _] : List (Reference Table Field)) := href
  simp only [List.mem_cons, List.not_mem_nil, or_false] at hmem
  rcases hmem with rfl | rfl | rfl <;> rfl

theorem taskSources_takeKeys (planned : Attr) :
    ∀ ref ∈ Table.researchTask.foreignKeys, takesKey (taskSources planned) ref.column = true := by
  intro ref href
  have hmem : ref ∈ ([_, _, _, _, _, _] : List (Reference Table Field)) := href
  simp only [List.mem_cons, List.not_mem_nil, or_false] at hmem
  rcases hmem with rfl | rfl | rfl | rfl | rfl | rfl <;> rfl

/-- Every create handler takes the foreign keys from the body as they are. -/
theorem attrs_key {k : Clock} {r : Resource} {data : Json} {db : DB} {attrs : List (Field × Attr)}
    (h : r.attrs k data db = .ok attrs) {ref : Reference Table Field}
    (href : ref ∈ r.table.foreignKeys) :
    attrKey attrs ref.column = keyValue (bodyValue data ref.column) := by
  have hconstruct : ∀ {sources}, construct data sources = .ok attrs →
      takesKey sources ref.column = true →
      attrKey attrs ref.column = keyValue (bodyValue data ref.column) := fun hattrs hkey =>
    attrKey_of_body (construct_key hattrs hkey)
  cases r with
  | menu =>
    have htakes : ∀ ref ∈ Table.menu.foreignKeys, takesKey menuSources ref.column = true := by
      decide
    exact hconstruct h (htakes ref href)
  | user =>
    have htakes : ∀ ref ∈ Table.user.foreignKeys, takesKey userSources ref.column = true := by
      decide
    exact hconstruct h (htakes ref href)
  | courseware =>
    have htakes : ∀ ref ∈ Table.trainingCourseware.foreignKeys,
      takesKey coursewareSources ref.column = true := by decide
    exact hconstruct h (htakes ref href)
  | template =>
    have htakes : ∀ ref ∈ Table.researchTemplate.foreignKeys,
      takesKey templateSources ref.column = true := by decide
    exact hconstruct h (htakes ref href)
  | project =>
    obtain ⟨date, -, h⟩ := do_eq_ok.mp h
    obtain ⟨projectId, -, h⟩ := do_eq_ok.mp h
    obtain ⟨projectName, -, h⟩ := do_eq_ok.mp h
    obtain ⟨shortName, -, h⟩ := do_eq_ok.mp h
    obtain ⟨mnemonic, -, h⟩ := do_eq_ok.mp h
    exact hconstruct h (projectSources_takeKeys _ _ _ ref href)
  | vendorResearch =>
    obtain ⟨date, -, h⟩ := do_eq_ok.mp h
    exact hconstruct h (vendorSources_takeKeys _ ref href)
  | researchTask =>
    obtain ⟨planned, -, h⟩ := do_eq_ok.mp h
    exact hconstruct h (taskSources_takeKeys _ ref href)
  | learningRecord =>
    obtain ⟨input, hreads, rfl⟩ := learningAttrs_eq h
    have hmem : ref ∈ ([_, _] : List (Reference Table Field)) := href
    simp only [List.mem_cons, List.not_mem_nil, or_false] at hmem
    rcases hmem with rfl | rfl
    · exact (congrArg keyValue (bodyValue_of_item hreads.courseware)).symm
    · exact (congrArg keyValue (bodyValue_of_item hreads.person)).symm
  | _ => exact nomatch (href : ref ∈ ([] : List (Reference Table Field)))

/-- The update handlers other than that of research tasks keep the foreign keys that
    are not in the body, or read them all. -/
theorem assigns_key {r : Resource} {data : Json} {row : Record} {db : DB}
    {assignments : List Assignment}
    (h : r.assignments data row db = .ok assignments) {ref : Reference Table Field}
    (href : ref ∈ r.table.foreignKeys) :
    (ref.column = .creatorId ∧ ∀ x, (.creatorId, x) ∉ assignments) ∨
      (ref.column ≠ .creatorId ∧ (keep data row ref.column ∈ assignments ∨
        (ref.column, ((data.item ref.column).map Attr.json).map some) ∈ assignments)) := by
  have hkeep : ∀ fields : List Field, ref.column ∈ fields →
      keep data row ref.column ∈ fields.map (keep data row) :=
        fun fields hf => List.mem_map_of_mem hf
  cases r with
  | menu =>
    cases h
    have hfields : ∀ ref ∈ Table.menu.foreignKeys,
        ref.column ≠ .creatorId ∧ ref.column ∈ menuFields := by
      decide
    exact Or.inr ⟨(hfields ref href).1, Or.inl (hkeep _ (hfields ref href).2)⟩
  | courseware =>
    cases h
    have hmem : ref ∈ ([_] : List (Reference Table Field)) := href
    simp only [List.mem_cons, List.not_mem_nil, or_false] at hmem
    subst hmem
    exact Or.inr ⟨by decide, Or.inl (hkeep _ (by decide))⟩
  | template =>
    cases h
    have hfields : ∀ ref ∈ Table.researchTemplate.foreignKeys,
      ref.column ≠ .creatorId ∧ ref.column ∈ templateFields := by decide
    exact Or.inr ⟨(hfields ref href).1, Or.inl (hkeep _ (hfields ref href).2)⟩
  | vendorResearch =>
    cases h
    have hfields : ∀ ref ∈ Table.vendorResearch.foreignKeys, ref.column ≠ .creatorId ∧
      ref.column ∈ [Field.researcherId, .projectId, .taskName, .systemId, .manufacturer,
        .remarks] := by
        decide
    exact Or.inr ⟨(hfields ref href).1,
      Or.inl (List.mem_cons_of_mem _ (hkeep _ (hfields ref href).2))⟩
  | user =>
    cases h
    have hmem : ref ∈ ([_] : List (Reference Table Field)) := href
    simp only [List.mem_cons, List.not_mem_nil, or_false] at hmem
    subst hmem
    exact Or.inr ⟨by decide, Or.inl (List.mem_of_getElem? (i := 4) rfl)⟩
  | project =>
    cases h
    have hmem : ref ∈ ([_, _, _, _] : List (Reference Table Field)) := href
    simp only [List.mem_cons, List.not_mem_nil, or_false] at hmem
    rcases hmem with rfl | rfl | rfl | rfl
    · exact Or.inr ⟨by decide, Or.inl (List.mem_of_getElem? (i := 4) rfl)⟩
    · exact Or.inr ⟨by decide, Or.inl (List.mem_of_getElem? (i := 5) rfl)⟩
    · exact Or.inr ⟨by decide, Or.inl (List.mem_of_getElem? (i := 6) rfl)⟩
    · exact Or.inr ⟨by decide, Or.inl (List.mem_of_getElem? (i := 7) rfl)⟩
  | researchTask =>
    obtain ⟨planned, -, h⟩ := do_eq_ok.mp h
    obtain ⟨actual, -, h⟩ := do_eq_ok.mp h
    cases h
    have hmem : ref ∈ ([_, _, _, _, _, _] : List (Reference Table Field)) := href
    simp only [List.mem_cons, List.not_mem_nil, or_false] at hmem
    rcases hmem with rfl | rfl | rfl | rfl | rfl | rfl
    · exact Or.inr ⟨by decide, Or.inl (List.mem_of_getElem? (i := 0) rfl)⟩
    · exact Or.inr ⟨by decide, Or.inl (List.mem_of_getElem? (i := 1) rfl)⟩
    · exact Or.inr ⟨by decide, Or.inl (List.mem_of_getElem? (i := 2) rfl)⟩
    · exact Or.inl ⟨rfl, fun x hx => by simp [keep] at hx⟩
    · exact Or.inr ⟨by decide, Or.inl (List.mem_of_getElem? (i := 6) rfl)⟩
    · exact Or.inr ⟨by decide, Or.inl (List.mem_of_getElem? (i := 7) rfl)⟩
  | learningRecord =>
    obtain ⟨values, hvalues, rfl⟩ := map_eq_ok.mp h
    obtain ⟨_, _, courseware, _, -, -, hc, -, rfl⟩ := learningValues_eq hvalues
    have hmem : ref ∈ ([_, _] : List (Reference Table Field)) := href
    simp only [List.mem_cons, List.not_mem_nil, or_false] at hmem
    rcases hmem with rfl | rfl
    · have hvalue : some (Field.learningCourseware, Except.ok (some (Attr.json courseware))) =
          some (Field.learningCourseware,
            ((data.item .learningCourseware).map Attr.json).map some) := by
        rw [hc]; rfl
      exact Or.inr ⟨by decide, Or.inr (List.mem_of_getElem? (i := 1) hvalue)⟩
    · exact Or.inr ⟨by decide, Or.inr (List.mem_of_getElem? (i := 2) rfl)⟩
  | _ => exact nomatch (href : ref ∈ ([] : List (Reference Table Field)))

/-- A column after an update that keeps what the body does not name. -/
theorem kept_value {r : Resource} {id : ℕ} {data : Json} {row : Record} {db db' : DB}
    {assignments : List Assignment} {ops : List Op}
    (h : r.assignments data row db = .ok assignments)
    (hops : updateOps r.table id assignments = .ok ops) (hall : applyAll applyOp ops db = .ok db')
    {f : Field} {c : Column} (hc : r.table.column f = some c) (hmem : keep data row f ∈ assignments)
    (q : Record) :
    (assignCells q (updateValues r.table assignments)).cell f =
      if data.has f then (bindJson c.type (bodyValue data f)).toOption.getD .null
        else row.cell f := by
  obtain ⟨-, heval⟩ := updateOps_eq hops hall
  have hnodup := assignments_nodup h
  obtain ⟨x, hx, hbind⟩ := heval _ hmem
  obtain ⟨found, hget, rfl⟩ := map_eq_ok.mp hx
  unfold keep at hmem
  rw [hget] at hmem
  obtain ⟨w, hw, -⟩ := hbind _ rfl c hc
  rw [assigned_cell hnodup q hmem hc hw, Json.has_of_get hget]
  cases found with
  | some j =>
    rw [Option.elim, Attr.bind] at hw
    rw [bodyValue_of_getD (Json.getD_of_get hget), hw]
    rfl
  | none =>
    simp only [Option.elim, Attr.bind] at hw
    split_ifs at hw
    cases hw
    rfl

/-- The foreign keys of a row after an update: what the body supplies, and what was
    there where it supplies nothing. -/
theorem updated_key {r : Resource} {id : ℕ} {data : Json} {row : Record} {db db' : DB}
    {assignments : List Assignment} {ops : List Op}
    (h : r.assignments data row db = .ok assignments)
    (hops : updateOps r.table id assignments = .ok ops) (hall : applyAll applyOp ops db = .ok db')
    {ref : Reference Table Field} (href : ref ∈ r.table.foreignKeys) (q : Record) :
    if updatesKey data ref.column then
      (assignCells q (updateValues r.table assignments)).cell ref.column =
        keyValue (bodyValue data ref.column)
    else
      (assignCells q (updateValues r.table assignments)).cell ref.column = row.cell ref.column ∨
        (assignCells q (updateValues r.table assignments)).cell ref.column = q.cell ref.column := by
  obtain ⟨c, hc, hty, -⟩ := foreignKey_column href
  rcases assigns_key h href with ⟨hcreator, hnone⟩ | ⟨hne, hmem | hmem⟩
  · rw [if_neg (by simp [updatesKey, hcreator])]
    rw [hcreator]
    exact Or.inr (unassigned_cell q fun v => hnone _)
  · have hcell := kept_value h hops hall hc hmem q
    rw [hty] at hcell
    by_cases hhas : data.has ref.column = true
    · rw [if_pos hhas] at hcell
      rwa [if_pos (by simp [updatesKey, hhas, hne])]
    · rw [if_neg hhas] at hcell
      rw [if_neg (by simp [updatesKey, hhas])]
      exact Or.inl hcell
  · obtain ⟨-, heval⟩ := updateOps_eq hops hall
    obtain ⟨x, hx, hbind⟩ := heval _ hmem
    obtain ⟨a, ha, rfl⟩ := map_eq_ok.mp hx
    obtain ⟨j, hj, rfl⟩ := map_eq_ok.mp ha
    obtain ⟨w, hw, -⟩ := hbind _ rfl c hc
    rw [hj] at hmem
    rw [if_pos (by simp [updatesKey, Json.has_of_get (Json.get_of_item hj), hne]),
      assigned_cell (assignments_nodup h) q hmem hc hw, bodyValue_of_item hj]
    rw [Attr.bind, hty] at hw
    exact (keyValue_of_bind hw).symm

/-- **Updates.** The references stay valid iff the foreign keys the body names are. -/
theorem integrity_updated {r : Resource} {id : ℕ} {data : Json} {row : Record} {db db' : DB}
    {assignments : List Assignment} {ops : List Op} (hdb : Integrity schema db)
    (hfind : find (db r.table) id = some row) (h : r.assignments data row db = .ok assignments)
    (hops : updateOps r.table id assignments = .ok ops) (hall : applyAll applyOp ops db = .ok db') :
    Integrity schema db' ↔ ∀ s ∈ suppliedByUpdate r.table data, RefOk schema db s.1 s.2 := by
  obtain ⟨rfl, -⟩ := updateOps_eq hops hall
  rw [integrity_setCells schema hdb]
  have hkey := fun (ref : Reference Table Field) (href : ref ∈ r.table.foreignKeys) =>
    updated_key h hops hall href
  constructor
  · intro hrefs s hs
    obtain ⟨hmem, hupdates⟩ := List.mem_filter.mp hs
    obtain ⟨ref, href, rfl⟩ := List.mem_map.mp hmem
    obtain ⟨hforeign, htable⟩ := mem_tableForeignKeys.mp href
    have hcell := hkey ref href row
    rw [if_pos hupdates] at hcell
    rw [← hcell]
    exact hrefs ref hforeign htable row (mem_of_find hfind) (find_id hfind)
  · intro hsupplied ref hforeign htable q hq hid
    have href := mem_tableForeignKeys.mpr ⟨hforeign, htable⟩
    have hcell := hkey ref href q
    by_cases hupdates : updatesKey data ref.column = true
    · rw [if_pos hupdates] at hcell
      rw [hcell]
      exact hsupplied _ (List.mem_filter.mpr ⟨List.mem_map_of_mem href, hupdates⟩)
    · rw [if_neg hupdates] at hcell
      rcases hcell with hcell | hcell
      · rw [hcell]
        exact hdb ref hforeign row (htable ▸ mem_of_find hfind)
      · rw [hcell]
        exact hdb ref hforeign q (htable ▸ hq)

/-! ## Role lists -/

/-- The association rows of a role list refer to a courseware and to roles. -/
theorem integrity_setTargets {k : Clock} {courseware : ℕ} {roles : List ℕ} {db w w' : DB}
    (hroles : AllRoles db roles) (hw : Integrity schema w) (hrole : w .role = db .role)
    (hcourseware : ∃ c ∈ w .trainingCourseware, c.id = courseware)
    (h : setTargets k courseware roles w = .ok w') : Integrity schema w' := by
  simp only [setTargets] at h
  split_ifs at h
  have hleaf : ∀ ref ∈ schema.references, ref.target ≠ .trainingTargets := by decide
  refine (applyAll_preserves_mem (P := fun v : DB => Integrity schema v ∧ v .role = db .role ∧
    ∃ c ∈ v .trainingCourseware, c.id = courseware) _ ?_ ⟨integrity_removeWhere schema hw _ hleaf,
      ?_, ?_⟩ h).1
  · rintro role hmem v v' ⟨hv, hvrole, c, hc, hcid⟩ hins
    obtain ⟨q, hq, hqid⟩ := hroles role (List.mem_filter.mp hmem).1
    have hrole' : v' .role = db .role := (insertRow_other hins (by decide)).trans hvrole
    have hcourseware' : c ∈ v' .trainingCourseware := by rwa [insertRow_other hins (by decide)]
    refine ⟨?_, hrole', c, hcourseware', hcid⟩
    have hone : applyAll applyOp
        ([targetAttrs courseware role].map (.insert k .trainingTargets)) v = .ok v' :=
      (applyAll_singleton _ _ _).trans hins
    refine (integrity_insertAll hv hone).mpr fun attrs ha ref href => ?_
    rw [List.mem_singleton.mp ha]
    have hmem : ref ∈ ([_, _] : List (Reference Table Field)) := href
    simp only [List.mem_cons, List.not_mem_nil, or_false] at hmem
    rcases hmem with rfl | rfl
    · exact Or.inr ⟨c, hcourseware', by rw [hcid]; rfl⟩
    · exact Or.inr ⟨q, hrole'.symm ▸ hq, by rw [hqid]; rfl⟩
  · rw [removeWhere_other _ _ (by decide)]; exact hrole
  · rw [removeWhere_other _ _ (by decide)]; exact hcourseware

/-- Role lists neither break references nor repair them. -/
theorem integrity_retargeted {k : Clock} {courseware : ℕ} {db w w' : DB}
    (hw : Integrity schema w) (hrole : w .role = db .role)
    (hcourseware : ∃ c ∈ w .trainingCourseware, c.id = courseware)
    (h : Retargeted k courseware db w w') : Integrity schema w' := by
  refine (h.preserves (P := fun v : DB => Integrity schema v ∧ v .role = db .role ∧
    ∃ c ∈ v .trainingCourseware, c.id = courseware) ?_ ⟨hw, hrole, hcourseware⟩).1
  rintro roles v v' hroles ⟨hv, hvrole, hc⟩ hset
  refine ⟨integrity_setTargets hroles hv hvrole hc hset, ?_, ?_⟩
  · rw [setTargets_other hset (by decide)]; exact hvrole
  · rw [setTargets_other hset (by decide)]; exact hc

/-! ## Imports -/

theorem csvKey_of_intOrNone {row : CsvRow} {f : Field} {a : Option Attr}
    (h : intOrNone (row.get f none) = .ok a) :
    ∃ j, a.getD (.json .null) = .json j ∧ keyValue j = csvKey row f := by
  unfold csvKey
  rw [h]
  have hform := h
  simp only [intOrNone] at hform
  split_ifs at hform
  · cases hform; exact ⟨.null, rfl, rfl⟩
  · obtain ⟨b, hb, rfl⟩ := map_eq_ok.mp hform
    unfold intAttr at hb
    cases hint : pyInt (strip ((row.get f none).getD "")) with
    | none => rw [hint] at hb; cases hb
    | some n => rw [hint] at hb; cases hb; exact ⟨.int n, rfl, rfl⟩

/-- A record of a template import that is not skipped. -/
theorem templateRow_key {k : Clock} {row : CsvRow} {o : Op} (h : templateRow k row = .ok (some o)) :
    ∃ attrs, o = .insert k .researchTemplate attrs ∧
      ∀ ref ∈ Table.researchTemplate.foreignKeys,
        attrKey attrs ref.column = csvKey row ref.column := by
  obtain ⟨category, level, system, clause, attrs, hcategory, hlevel, hsystem, hclause, rfl,
    hlookups⟩ :=
    templateRow_insert h
  obtain ⟨hcategory', hlevel', hsystem', hclause'⟩ := hlookups
  have hkey : ∀ {f : Field} {a : Option Attr}, intOrNone (row.get f none) = .ok a →
      attrs.lookup f = some (a.getD (.json .null)) → attrKey attrs f = csvKey row f := by
    intro f a hcell hlookup
    obtain ⟨j, hj, hkey⟩ := csvKey_of_intOrNone hcell
    rw [attrKey, hlookup, hj]
    exact hkey
  refine ⟨attrs, rfl, fun ref href => ?_⟩
  have hmem : ref ∈ ([_, _, _, _] : List (Reference Table Field)) := href
  simp only [List.mem_cons, List.not_mem_nil, or_false] at hmem
  rcases hmem with rfl | rfl | rfl | rfl
  · exact hkey hcategory hcategory'
  · exact hkey hlevel hlevel'
  · exact hkey hsystem hsystem'
  · exact hkey hclause hclause'

/-- The foreign keys a list of attributes gives to a new row. -/
def suppliedByAttrs (t : Table) (attrs : List (Field × Attr)) : List Supply :=
  t.foreignKeys.map fun ref => (ref, attrKey attrs ref.column)

/-- The rows of a loop that inserts into one table. -/
theorem loop_rows {β : Type} {k : Clock} {t : Table} {f : β → Except Exn (Option Op)}
    {supplied : β → List Supply} {xs : List β}
    (hsome : ∀ x ∈ xs, ∀ o, f x = .ok (some o) →
      ∃ attrs, o = .insert k t attrs ∧ supplied x = suppliedByAttrs t attrs)
    (hnone : ∀ x ∈ xs, unlessRaised (f x) = none → supplied x = []) :
    ∃ rows : List (List (Field × Attr)),
      (xs.filterMap fun x => unlessRaised (f x)) = rows.map (.insert k t) ∧
      xs.flatMap supplied = rows.flatMap (suppliedByAttrs t) := by
  induction xs with
  | nil => exact ⟨[], rfl, rfl⟩
  | cons x xs ih =>
    obtain ⟨rows, hops, hsupplied⟩ := ih (fun y hy => hsome y (List.mem_cons_of_mem _ hy))
      (fun y hy => hnone y (List.mem_cons_of_mem _ hy))
    cases hx : unlessRaised (f x) with
    | none =>
      refine ⟨rows, by simp [hx, hops], ?_⟩
      rw [List.flatMap_cons, hnone x (List.mem_cons_self ..) hx, hsupplied, List.nil_append]
    | some o =>
      have hok : f x = .ok (some o) := by
        unfold unlessRaised at hx
        cases hf : f x with
        | error e => rw [hf] at hx; cases hx
        | ok y => rw [hf] at hx; exact congrArg Except.ok hx
      obtain ⟨attrs, rfl, hsup⟩ := hsome x (List.mem_cons_self ..) o hok
      refine ⟨attrs :: rows, by simp [hx, hops], ?_⟩
      rw [List.flatMap_cons, hsup, hsupplied, List.flatMap_cons]

/-- **Loops.** The references stay valid iff those of all rows of the loop are. -/
theorem integrity_loop {β : Type} {k : Clock} {t : Table} {f : β → Except Exn (Option Op)}
    (supplied : β → List Supply) {xs : List β} {db db' : DB} (hdb : Integrity schema db)
    (hself : ∀ ref ∈ t.foreignKeys, ref.target ≠ t)
    (hsome : ∀ x ∈ xs, ∀ o, f x = .ok (some o) →
      ∃ attrs, o = .insert k t attrs ∧ supplied x = suppliedByAttrs t attrs)
    (hnone : ∀ x ∈ xs, unlessRaised (f x) = none → supplied x = [])
    (hall : applyAll applyOp (xs.filterMap fun x => unlessRaised (f x)) db = .ok db') :
    Integrity schema db' ↔ ∀ s ∈ xs.flatMap supplied, RefOk schema db s.1 s.2 := by
  obtain ⟨rows, hops, hsupplied⟩ := loop_rows hsome hnone
  rw [hops] at hall
  rw [hsupplied, integrity_insertAll hdb hall]
  have hsame : ∀ ref ∈ t.foreignKeys, ∀ v, RefOk schema db' ref v ↔ RefOk schema db ref v :=
    fun ref href v => by
      obtain ⟨-, -, -, hother⟩ := insertAll_new hall
      exact refOk_of_ids schema (by rw [hother _ (hself ref href)])
  constructor
  · intro hrefs s hs
    obtain ⟨attrs, ha, hs⟩ := List.mem_flatMap.mp hs
    obtain ⟨ref, href, rfl⟩ := List.mem_map.mp hs
    exact (hsame ref href _).mp (hrefs attrs ha ref href)
  · intro hs attrs ha ref href
    exact (hsame ref href _).mpr (hs _ (List.mem_flatMap.mpr ⟨attrs, ha, List.mem_map_of_mem href⟩))

/-- An object of a JSON import becomes a row. -/
theorem templateItem_key {k : Clock} {item : Json} :
    (∀ o, (templateItem k item).map some = .ok (some o) → ∃ attrs,
      o = .insert k .researchTemplate attrs ∧
      suppliedByItem item = suppliedByAttrs .researchTemplate attrs) ∧
      (unlessRaised ((templateItem k item).map some) = none → suppliedByItem item = []) := by
  constructor
  · intro o h
    obtain ⟨o, hitem, ho⟩ := map_eq_ok.mp h
    cases ho
    obtain ⟨attrs, hattrs, rfl⟩ := map_eq_ok.mp hitem
    refine ⟨attrs, rfl, ?_⟩
    have htakes : ∀ ref ∈ Table.researchTemplate.foreignKeys,
      takesKey importSources ref.column = true := by decide
    cases item with
    | dict entries =>
      refine List.map_congr_left fun ref href => ?_
      rw [attrKey_of_body (construct_key hattrs (htakes ref href))]
    | _ => cases hattrs
  · intro h
    cases item with
    | dict entries => cases h
    | _ => rfl

/-- A permission request: the old permissions of the role go, and every entry of the
    body becomes a row. -/
theorem permissions_keep {k : Clock} {roleId : ℕ} {perms : List Json} {ops : List Op} {db db' : DB}
    (hdb : Integrity schema db) (hops : stagedOps (perms.map (newPermission k roleId)) = .ok ops)
    (hall : applyAll applyOp (.deleteWhere .rolePermission .roleId roleId :: ops) db = .ok db') :
    Integrity schema db' ↔
      ∀ s ∈ perms.flatMap (suppliedByPermission roleId), RefOk schema db s.1 s.2 := by
  rw [applyAll_cons, bind_eq_ok] at hall
  obtain ⟨w, hdel, hall⟩ := hall
  obtain ⟨hint64, rfl⟩ := deleteWhere_eq_ok.mp hdel
  obtain ⟨hevals, rfl⟩ := stagedOps_eq_ok.mp hops
  rw [List.filterMap_map] at hall
  have hleaf : ∀ ref ∈ schema.references, ref.target ≠ .rolePermission := by decide
  have hperm : ∀ ref ∈ Table.rolePermission.foreignKeys, ref.target ≠ .rolePermission := by decide
  rw [integrity_loop (f := newPermission k roleId) (suppliedByPermission roleId)
    (integrity_removeWhere schema hdb _ hleaf) hperm (k := k) ?_ ?_ hall]
  · refine forall_congr' fun s => imp_congr_right fun hs => refOk_of_ids schema ?_
    obtain ⟨perm, -, hs⟩ := List.mem_flatMap.mp hs
    obtain ⟨ref, href, rfl⟩ := List.mem_map.mp hs
    rw [removeWhere_other _ _ (hperm ref href)]
  · intro perm hmem o ho
    obtain ⟨menu, hmenu, ho⟩ := do_eq_ok.mp ho
    obtain ⟨access, -, ho⟩ := do_eq_ok.mp ho
    cases ho
    refine ⟨_, rfl, List.map_congr_left fun ref href => ?_⟩
    have hmem : ref ∈ ([_, _] : List (Reference Table Field)) := href
    simp only [List.mem_cons, List.not_mem_nil, or_false] at hmem
    rcases hmem with rfl | rfl
    · have hrole : keyValue (.int roleId) = .int roleId := by
        simp [keyValue, bindJson, hint64, Except.toOption]
      exact congrArg (Prod.mk _) hrole.symm
    · exact congrArg (fun j => (_, keyValue j)) (bodyValue_of_item hmenu)
  · intro perm hmem hnone
    obtain ⟨o, ho⟩ := hevals _ (List.mem_map_of_mem hmem)
    have hok := ho
    obtain ⟨menu, -, ho⟩ := do_eq_ok.mp ho
    obtain ⟨access, -, ho⟩ := do_eq_ok.mp ho
    cases ho
    rw [hok] at hnone
    cases hnone

/-! ## Any request -/

/-- **Insertion.** The references stay valid iff the foreign keys of the body are; the
    new row may refer to itself. -/
theorem integrity_inserted {k : Clock} {t : Table} {data : Json}
    {attrs : List (Field × Attr)} {db w : DB}
    (hdb : Integrity schema db) (hins : insertRow k t attrs db = .ok w)
    (hkeys : ∀ ref ∈ t.foreignKeys,
      attrKey attrs ref.column = keyValue (bodyValue data ref.column)) :
    Integrity schema w ↔ ∀ s ∈ suppliedByBody t data, RefOk schema db s.1 s.2 ∨
      (t = s.1.target ∧ s.2 = .int (nextId (db s.1.target))) := by
  have hone : applyAll applyOp ([attrs].map (.insert k t)) db = .ok w :=
    (applyAll_singleton _ _ _).trans hins
  rw [integrity_insertAll hdb hone]
  have hw : w = insert db t (newRow k t attrs db) := (insertRow_eq_ok.mp hins).2.2
  have href : ∀ ref v, RefOk schema w ref v ↔ RefOk schema db ref v ∨
      (t = ref.target ∧ v = .int (nextId (db ref.target))) := by
    intro ref v
    rw [hw, refOk_insert, eq_comm (a := ref.target)]
    refine or_congr_right (and_congr_right fun ht => ?_)
    subst ht
    rfl
  constructor
  · intro hrefs s hs
    obtain ⟨ref, hmem, rfl⟩ := List.mem_map.mp hs
    rw [← href, ← hkeys ref hmem]
    exact hrefs attrs (List.mem_singleton_self _) ref hmem
  · intro hs a ha ref hmem
    rw [List.mem_singleton.mp ha, href, hkeys ref hmem]
    exact hs _ (List.mem_map_of_mem hmem)

/-- A change of role lists repairs no reference either. -/
theorem integrity_retargeted_iff {k : Clock} {courseware : ℕ} {db w w' : DB}
    (hdb : Integrity schema db)
    (hrole : w .role = db .role) (htargets : w .trainingTargets = db .trainingTargets)
    (hcourseware : ∃ c ∈ w .trainingCourseware, c.id = courseware)
    (hids : ∀ t, ∀ r ∈ db t, ∃ r' ∈ w t, r'.id = r.id) (h : Retargeted k courseware db w w') :
    Integrity schema w' ↔ Integrity schema w := by
  refine ⟨fun hw' ref href q hq => ?_, fun hw => integrity_retargeted hw hrole hcourseware h⟩
  by_cases ht : ref.table = .trainingTargets
  · rw [ht, htargets] at hq
    exact (hdb ref href q (ht ▸ hq)).mono schema (hids _)
  · have hleaf : ∀ ref ∈ foreignKeys, ref.target ≠ .trainingTargets := by decide
    rw [← h.other ht] at hq
    refine (refOk_of_ids schema ?_).mp (hw' ref href q hq)
    rw [h.other (hleaf ref href)]

theorem kept_of_runs {db : DB} {out : Response × DB} {done : DB → Prop} {valid : Prop}
    (hdb : Integrity schema db) (h : Runs db out done)
    (hdone : ∀ db', done db' → (Integrity schema db' ↔ valid)) :
    Integrity schema out.2 ↔ (out.1.Success → valid) := by
  rcases h with ⟨hbad, hsame⟩ | ⟨hgood, hdb'⟩
  · rw [hsame]
    exact ⟨fun _ hgood => absurd hgood hbad, fun _ => hdb⟩
  · rw [hdone _ hdb']
    exact ⟨fun hv _ => hv, fun hv => hv hgood⟩

theorem created_keeps {k : Clock} {r : Resource} {body : Body} {db db' : DB}
    (hdb : Integrity schema db)
    (h : Created k r body db db') :
    Integrity schema db' ↔ (Request.create r body).SuppliesValid k db := by
  obtain ⟨data, attrs, w, rfl, hattrs, hins, hre, hsame⟩ := h
  have hw : Integrity schema db' ↔ Integrity schema w := by
    by_cases hr : r = .courseware
    · subst hr
      have hinsert : w = insert db .trainingCourseware (newRow k .trainingCourseware attrs db) :=
        (insertRow_eq_ok.mp hins).2.2
      have hnew : newRow k .trainingCourseware attrs db ∈ w .trainingCourseware := by
        rw [hinsert]; exact mem_insert.mpr (Or.inr ⟨rfl, rfl⟩)
      refine integrity_retargeted_iff hdb (insertRow_other hins (by decide))
        (insertRow_other hins (by decide)) ⟨_, hnew, rfl⟩ (fun t q hq => ⟨q, ?_, rfl⟩) hre
      rw [hinsert]
      exact mem_insert.mpr (Or.inl hq)
    · rw [hsame hr]
  rw [hw, integrity_inserted hdb hins fun ref href => attrs_key hattrs href]
  refine forall_congr' fun s => imp_congr_right fun _ => or_congr_right (and_congr_left fun _ => ?_)
  exact (Option.some_inj).symm

theorem updated_keeps {k : Clock} {r : Resource} {id : ℕ} {body : Body} {db db' : DB}
    (hdb : Integrity schema db) (h : Updated k r id body db db') :
    Integrity schema db' ↔ (Request.update r id body).SuppliesValid k db := by
  obtain ⟨row, data, assignments, ops, w, -, hfind, rfl, hassign, hops, hall, hre, hsame⟩ := h
  have hw : Integrity schema db' ↔ Integrity schema w := by
    by_cases hr : r = .courseware ∧ data.has .trainingTargets = true
    · obtain ⟨rfl, -⟩ := hr
      have hbut := sameBut_updateOps hops hall
      have hids : ∀ t, ∀ q ∈ db t, ∃ q' ∈ w t, q'.id = q.id := by
        intro t q hq
        have hmem : q.id ∈ (w t).map Row.id := hbut.ids t ▸ List.mem_map_of_mem hq
        exact List.mem_map.mp hmem
      obtain ⟨c, hc, hid⟩ := hids _ row (mem_of_find hfind)
      exact integrity_retargeted_iff hdb (hbut.1 _ (by decide)) (hbut.1 _ (by decide))
        ⟨c, hc, hid.trans (find_id hfind)⟩ hids hre
    · rw [hsame hr]
  rw [hw, integrity_updated hdb hfind hassign hops hall]
  refine forall_congr' fun s => imp_congr_right fun _ => ?_
  simp [Request.creates]

/-- **Foreign keys.** In a database whose references are valid, they stay valid after
    a request iff the request is refused or every foreign key it supplies is valid
    once it is stored. -/
theorem references_kept_iff (k : Clock) (request : Request) (db : DB) (hdb : Integrity schema db) :
    Integrity schema (handle k request db).2 ↔
      ((handle k request db).1.Success → request.SuppliesValid k db) := by
  cases request with
  | create r body => exact kept_of_runs hdb (create_cases rfl) fun _ h => created_keeps hdb h
  | update r id body => exact kept_of_runs hdb (update_cases rfl) fun _ h => updated_keeps hdb h
  | delete r id =>
    refine kept_of_runs hdb (delete_cases rfl) ?_
    rintro db' ⟨row, others, -, -, -, hall⟩
    rw [deleteOps_eq] at hall
    exact ⟨fun _ s hs => (nomatch hs), fun _ => (deleteAll_spec hdb hall).1⟩
  | register body =>
    refine kept_of_runs hdb (register_cases rfl) ?_
    rintro db' ⟨data, attrs, rfl, hattrs, hins⟩
    have htakes : ∀ ref ∈ Table.user.foreignKeys, takesKey userSources ref.column = true := by
      decide
    have hself : ∀ ref ∈ Table.user.foreignKeys, Table.user ≠ ref.target := by decide
    rw [integrity_inserted hdb hins fun ref href =>
      attrKey_of_body (construct_key hattrs (htakes ref href))]
    refine forall_congr' fun s => imp_congr_right fun hs => or_congr_right ?_
    obtain ⟨ref, href, rfl⟩ := List.mem_map.mp hs
    simp [Request.creates, hself ref href]
  | rolePermissions roleId body =>
    refine kept_of_runs hdb (updateRolePermissions_cases rfl) ?_
    rintro db' ⟨data, perms, ops, rfl, hiter, hops, hall⟩
    rw [permissions_keep hdb hops hall]
    simp [Request.SuppliesValid, Request.supplies, Request.creates, hiter, Except.toOption]
  | importDictionaries file =>
    refine kept_of_runs hdb (importSystemDictionaries_cases rfl) ?_
    rintro db' ⟨os, ⟨upload, rfl, rows, hrows, rfl, -⟩, hall⟩
    have hself : ∀ ref ∈ Table.systemDictionary.foreignKeys, ref.target ≠ .systemDictionary := by
      decide
    have hsome : ∀ row ∈ rows, ∀ o, dictionaryRow k row = .ok (some o) →
        ∃ attrs, o = .insert k .systemDictionary attrs ∧
          [] = suppliedByAttrs .systemDictionary attrs := by
      intro row _ o ho
      obtain ⟨attrs, rfl⟩ := dictionaryRow_insert ho
      exact ⟨attrs, rfl, rfl⟩
    have hkeep := integrity_loop (fun _ => []) hdb hself hsome (fun _ _ _ => rfl) hall
    simp [hkeep, Request.SuppliesValid, Request.supplies]
  | importTemplates file =>
    refine kept_of_runs hdb (importResearchTemplates_cases rfl) ?_
    rintro db' ⟨os, ⟨upload, rfl, hos⟩, hall⟩
    have hself : ∀ ref ∈ Table.researchTemplate.foreignKeys, ref.target ≠ .researchTemplate := by
      decide
    rcases hos with ⟨hname, data, hdata, rfl, -⟩ | ⟨hname, rows, hrows, rfl, -⟩
    · rw [jsonOps_eq] at hall
      rw [integrity_loop suppliedByItem hdb hself (fun _ _ => templateItem_key.1)
        (fun _ _ => templateItem_key.2) hall]
      simp [Request.SuppliesValid, Request.supplies, Request.creates, hname, hdata]
    · rw [integrity_loop (suppliedByRow k) hdb hself (k := k) ?_ ?_ hall]
      · simp [Request.SuppliesValid, Request.supplies, Request.creates, hname, hrows]
      · intro row _ o ho
        obtain ⟨attrs, rfl, hkeys⟩ := templateRow_key ho
        refine ⟨attrs, rfl, ?_⟩
        rw [suppliedByRow, ho]
        exact List.map_congr_left fun ref href => by rw [hkeys ref href]
      · intro row _ hnone
        rw [suppliedByRow, hnone]
        rfl

/-- A courseware and a role, and no user. -/
def coursewareAlone : DB := DB.ofRows
  [(.role, record 1 [(.name, .text "医生")]),
   (.trainingCourseware, record 1 [(.coursewareName, .text "课件"), (.enabledStatus, .int 1)])]

/-- A courseware, a role and a user. -/
def coursewareUser : DB := DB.ofRows
  [(.role, record 1 [(.name, .text "医生")]),
   (.user, record 1 [(.username, .text "zhang"), (.password, .text "secret"), (.name, .text "张三"),
     (.email, .text "zhang@example.com"), (.roleId, .int 1)]),
   (.trainingCourseware, record 1 [(.coursewareName, .text "课件"), (.enabledStatus, .int 1)])]

/-- What the page sends when a user starts a courseware: the name of the user under
    `learning_person`. -/
def startLearning (person : Json) : Json := .dict
  [(.learningCourseware, .int 1), (.learningPerson, person), (.learningDate, .str "2024-01-05"),
   (.startTime, .str "09:00"), (.endTime, .str "10:00")]

/-- A learning record of a person given by name refers to no user. -/
theorem references_not_kept :
    Integrity schema coursewareAlone ∧
      (handle .epoch (.create .learningRecord (.json (startLearning (.str "张三"))))
        coursewareAlone).1.Success ∧
      ¬ Integrity schema
        (handle .epoch (.create .learningRecord (.json (startLearning (.str "张三"))))
          coursewareAlone).2 := by
  decide

/-- A learning record of a person given by the id of a user keeps the references. -/
theorem references_kept_iff_person :
    (handle .epoch (.create .learningRecord (.json (startLearning (.int 1))))
      coursewareUser).1.Success ∧
      Integrity schema
        (handle .epoch (.create .learningRecord (.json (startLearning (.int 1))))
          coursewareUser).2 :=
  ⟨by decide, (references_kept_iff .epoch (.create .learningRecord (.json (startLearning (.int 1))))
    coursewareUser (by decide)).mpr fun _ => by decide⟩

end ProjectEvaluation.Backend
