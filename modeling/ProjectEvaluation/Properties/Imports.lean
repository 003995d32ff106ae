import ProjectEvaluation.Backend.Requests

/-!
# The imports

Results:
* `import_all_or_nothing`: an import that answers 200 adds as many rows as it reports
  and accounts for every record; any other import changes nothing.
-/

namespace ProjectEvaluation.Backend

open Python Relational Transaction

/-! ## Insertions into one table -/

theorem exists_of_forall₂ {α β : Type} {R : α → β → Prop} {xs : List α} {ys : List β}
    (h : List.Forall₂ R xs ys) :
    ∀ x ∈ xs, ∃ y ∈ ys, R x y := by
  induction h with
  | nil => exact fun x hx => (nomatch hx)
  | cons hxy _ ih =>
    intro x hx
    rcases List.mem_cons.mp hx with rfl | hx
    · exact ⟨_, List.mem_cons_self, hxy⟩
    · obtain ⟨y, hy, hxy⟩ := ih x hx
      exact ⟨y, List.mem_cons_of_mem _ hy, hxy⟩

/-- A number of new rows in one table is all that changed. -/
def Grown (t : Table) (n : ℕ) (db db' : DB) : Prop :=
  (∃ new, db' t = db t ++ new ∧ new.length = n) ∧ ∀ t', t' ≠ t → db' t' = db t'

/-- A row with the values a list of attributes gives to its columns. -/
def Built (k : Clock) (t : Table) (attrs : List (Field × Attr)) (row : Record) : Prop :=
  ∀ c ∈ t.columns, c.initial k attrs = .ok (row.cell c.field)

theorem built_newRow {k : Clock} {t : Table} {attrs : List (Field × Attr)} {db w : DB}
    (h : insertRow k t attrs db = .ok w) : Built k t attrs (newRow k t attrs db) := by
  intro c hc
  obtain ⟨v, hv, -⟩ := (insertRow_eq_ok.mp h).2.1 c hc
  rw [newRow_cell hc hv, hv]

/-- **Rows that were inserted**: one for each list of attributes, in their order, numbered from the
    next key on. -/
theorem insertAll_rows {k : Clock} {t : Table} {rows : List (List (Field × Attr))} {db db' : DB}
    (h : applyAll applyOp (rows.map (.insert k t)) db = .ok db') :
    ∃ new, db' t = db t ++ new ∧ List.Forall₂ (Built k t) rows new ∧
      (∀ i row, new[i]? = some row → row.id = nextId (db t) + i) ∧ ∀ t',
        t' ≠ t → db' t' = db t' := by
  induction rows generalizing db with
  | nil =>
    cases h
    exact ⟨[], (List.append_nil _).symm, List.Forall₂.nil, fun i row hi => (nomatch hi),
      fun _ _ => rfl⟩
  | cons attrs rows ih =>
    rw [List.map_cons, applyAll_cons, bind_eq_ok] at h
    obtain ⟨w, hins, h⟩ := h
    obtain ⟨new, hnew, hbuilt, hnumbered, hother⟩ := ih h
    refine ⟨newRow k t attrs db :: new, ?_, List.Forall₂.cons (built_newRow hins) hbuilt,
      fun i row hi => ?_, fun t' ht => ?_⟩
    · rw [hnew, insertRow_rows hins, List.append_assoc, List.singleton_append]
    · cases i with
      | zero =>
        obtain rfl := Option.some.inj hi
        rfl
      | succ i =>
        rw [hnumbered i row hi, nextId_insertRow hins]
        omega
    · rw [hother t' ht, insertRow_other hins ht]

theorem insertAll_new {k : Clock} {t : Table} {rows : List (List (Field × Attr))} {db db' : DB}
    (h : applyAll applyOp (rows.map (.insert k t)) db = .ok db') :
    ∃ new, db' t = db t ++ new ∧ List.Forall₂ (Built k t) rows new ∧ ∀ t',
      t' ≠ t → db' t' = db t' := by
  obtain ⟨new, hnew, hbuilt, -, hother⟩ := insertAll_rows h
  exact ⟨new, hnew, hbuilt, hother⟩

/-- The row of a list of attributes by its position. -/
theorem insertAll_numbered {k : Clock} {t : Table} {rows : List (List (Field × Attr))} {db db' : DB}
    (h : applyAll applyOp (rows.map (.insert k t)) db = .ok db') :
    ∃ new, db' t = db t ++ new ∧ new.length = rows.length ∧
      ∀ i attrs, rows[i]? = some attrs → ∃ row, new[i]? = some row ∧ row.id = nextId (db t) + i ∧
        Built k t attrs row := by
  obtain ⟨new, hnew, hbuilt, hnumbered, -⟩ := insertAll_rows h
  refine ⟨new, hnew, hbuilt.length_eq.symm, fun i attrs hi => ?_⟩
  obtain ⟨hrows, rfl⟩ := List.getElem?_eq_some_iff.mp hi
  have hlt : i < new.length := hbuilt.length_eq ▸ hrows
  have hget : new[i]? = some new[i] := List.getElem?_eq_getElem hlt
  exact ⟨new[i], hget, hnumbered i _ hget, hbuilt.get hrows hlt⟩

/-- **When rows can be inserted**, in a table without unique columns: every column can
    store its value, and the keys suffice. -/
theorem insertAll_succeeds {k : Clock} {t : Table} (hplain : ∀ c ∈ t.columns, c.unique = false)
    {rows : List (List (Field × Attr))} {db : DB} :
    (∃ db', applyAll applyOp (rows.map (.insert k t)) db = .ok db') ↔
      (∀ attrs ∈ rows, ∀ c ∈ t.columns, ∃ v,
        c.initial k attrs = .ok v ∧ (v = .null → c.nullable = true)) ∧
        (rows ≠ [] → nextId (db t) + rows.length ≤ 2 ^ 63) := by
  induction rows generalizing db with
  | nil => exact iff_of_true ⟨db, rfl⟩ ⟨fun attrs hmem => (nomatch hmem), fun hne => absurd rfl hne⟩
  | cons attrs rows ih =>
    have hadmissible : ∀ c ∈ t.columns, ∀ v, Admissible db t (nextId (db t)) c v ↔
        (v = .null → c.nullable = true) := by
      intro c hc v
      refine and_iff_left fun hunique => ?_
      rw [hplain c hc] at hunique
      cases hunique
    have hins : (∃ w, insertRow k t attrs db = .ok w) ↔ nextId (db t) < 2 ^ 63 ∧
        ∀ c ∈ t.columns, ∃ v, c.initial k attrs = .ok v ∧ (v = .null → c.nullable = true) := by
      simp only [insertRow_eq_ok, exists_and_left, exists_eq, and_true]
      refine and_congr_right fun _ => forall₂_congr fun c hc => exists_congr fun v => ?_
      rw [hadmissible c hc v]
    rw [List.map_cons, List.forall_mem_cons, List.length_cons]
    constructor
    · rintro ⟨db', h⟩
      rw [applyAll_cons, bind_eq_ok] at h
      obtain ⟨w, hw, h⟩ := h
      obtain ⟨hid, hcolumns⟩ := hins.mp ⟨w, hw⟩
      obtain ⟨hrest, hkeys⟩ := ih.mp ⟨db', h⟩
      rw [nextId_insertRow hw] at hkeys
      refine ⟨⟨hcolumns, hrest⟩, fun _ => ?_⟩
      by_cases hrows : rows = []
      · subst hrows
        exact hid
      · have hle := hkeys hrows
        omega
    · rintro ⟨⟨hcolumns, hrest⟩, hkeys⟩
      have hle := hkeys (List.cons_ne_nil _ _)
      obtain ⟨w, hw⟩ := hins.mpr ⟨by omega, hcolumns⟩
      obtain ⟨db', h⟩ := ih.mpr ⟨hrest, fun _ => by rw [nextId_insertRow hw]; omega⟩
      refine ⟨db', ?_⟩
      rw [applyAll_cons, bind_eq_ok]
      exact ⟨w, hw, h⟩

/-- An insertion depends on the values of the columns only. -/
theorem insertRow_congr {k k' : Clock} {t : Table} {attrs attrs' : List (Field × Attr)}
    (h : ∀ c ∈ t.columns, c.initial k attrs = c.initial k' attrs') (db : DB) :
    insertRow k t attrs db = insertRow k' t attrs' db := by
  have hnew : newRow k t attrs db = newRow k' t attrs' db := by
    unfold newRow
    congr 1
    funext f
    cases hc : t.column f with
    | none => rfl
    | some c => simp only [h c (Table.mem_of_column hc)]
  have hfailure : ∀ columns : List Column,
      (∀ c ∈ columns, c.initial k attrs = c.initial k' attrs') →
      (columns.findSome? fun c =>
        failure (storeColumn db t (nextId (db t)) c (c.initial k attrs))) =
        columns.findSome? fun c =>
          failure (storeColumn db t (nextId (db t)) c (c.initial k' attrs')) := by
    intro columns hcolumns
    induction columns with
    | nil => rfl
    | cons c columns ihc =>
      rw [List.findSome?_cons, List.findSome?_cons, hcolumns c List.mem_cons_self,
        ihc fun d hd => hcolumns d (List.mem_cons_of_mem _ hd)]
  unfold insertRow
  rw [hfailure t.columns h, hnew]

/-- Insertions depend on the values of the columns only. -/
theorem insertAll_congr {k : Clock} {t : Table} {rows rows' : List (List (Field × Attr))}
    (h : List.Forall₂ (fun attrs attrs' => ∀ c ∈ t.columns,
      c.initial k attrs = c.initial k attrs') rows rows')
    (db : DB) : applyAll applyOp (rows.map (.insert k t)) db = applyAll applyOp
    (rows'.map (.insert k t)) db := by
  induction h generalizing db with
  | nil => rfl
  | cons hrow _ ih =>
    rename_i attrs attrs' rows rows' _
    rw [List.map_cons, List.map_cons, applyAll_cons, applyAll_cons]
    change (insertRow k t attrs db).bind _ = (insertRow k t attrs' db).bind _
    rw [insertRow_congr hrow]
    exact congrArg _ (funext ih)

/-- The attributes of the new row of an operation. -/
def Op.attrs : Op → List (Field × Attr)
  | .insert _ _ attrs => attrs
  | _ => []

/-- Operations that insert into one table. -/
theorem eq_map_insert {k : Clock} {t : Table} {ops : List Op}
    (h : ∀ o ∈ ops, ∃ attrs, o = .insert k t attrs) :
    ops = (ops.map Op.attrs).map (.insert k t) := by
  induction ops with
  | nil => rfl
  | cons o ops ih =>
    obtain ⟨attrs, rfl⟩ := h o List.mem_cons_self
    rw [List.map_cons, List.map_cons, ← ih fun o ho => h o (List.mem_cons_of_mem _ ho)]
    rfl

theorem applyAll_inserts {k : Clock} {t : Table} {ops : List Op} {db db' : DB}
    (hops : ∀ o ∈ ops, ∃ attrs, o = .insert k t attrs) (h : applyAll applyOp ops db = .ok db') :
    Grown t ops.length db db' := by
  rw [eq_map_insert hops] at h
  obtain ⟨new, hnew, hbuilt, hother⟩ := insertAll_new h
  exact ⟨⟨new, hnew, by rw [← hbuilt.length_eq, List.length_map]⟩, hother⟩

/-! ## Reports -/

/-- What a CSV import reports: all records the reader yields were imported or skipped. -/
def CsvReport (file : Upload) (r : Response) (imported : ℕ) : Prop :=
  ∃ rows skipped, file.csv = .ok (rows, none) ∧ imported + skipped = rows.length ∧
    r = importedAnswer imported skipped

/-- What a JSON import reports: the number of imported items of a list, or one
    template. -/
def JsonReport (file : Upload) (r : Response) (imported : ℕ) : Prop :=
  ∃ data, file.json = .value data ∧
    match data with
    | .list _ => r = itemsAnswer imported
    | _ => r = { status := 200, body := done "数据导入成功" } ∧ imported = 1

theorem CsvImported.report {rowOp : CsvRow → Except Exn (Option Op)} {file : Upload} {r : Response}
    {ops : List Op} (h : CsvImported rowOp file r ops) : CsvReport file r ops.length := by
  obtain ⟨rows, hread, rfl, hr⟩ := h
  have hle : (csvOps rowOp rows).length ≤ rows.length := List.length_filterMap_le _ _
  exact ⟨rows, _, hread, by omega, hr⟩

theorem JsonImported.report {k : Clock} {file : Upload} {r : Response} {ops : List Op}
    (h : JsonImported k file r ops) : JsonReport file r ops.length := by
  obtain ⟨data, hvalue, -, hr⟩ := h
  exact ⟨data, hvalue, hr⟩

theorem CsvReport.status {file : Upload} {r : Response} {n : ℕ} (h : CsvReport file r n) :
    r.status = 200 := by
  obtain ⟨rows, skipped, -, -, rfl⟩ := h
  rfl

theorem JsonReport.status {file : Upload} {r : Response} {n : ℕ} (h : JsonReport file r n) :
    r.status = 200 := by
  obtain ⟨data, -, hr⟩ := h
  split at hr
  · rw [hr]; rfl
  · rw [hr.1]

/-! ## Runs -/

/-- An import into a table is all or nothing, and reports what it did. -/
def AllOrNothing (t : Table) (report : Response → ℕ → Prop) (db : DB)
    (out : Response × DB) : Prop :=
  (out.1.status = 200 ∧ ∃ imported, report out.1 imported ∧ Grown t imported db out.2) ∨
    (out.1.status ≠ 200 ∧ out.2 = db)

theorem allOrNothing_of_runs {k : Clock} {t : Table} {report : Response → ℕ → Prop} {db : DB}
    {out : Response × DB} {imported : List Op → Prop}
    (hruns : Runs db out fun db' => ∃ ops, imported ops ∧ applyAll applyOp ops db = .ok db')
    (himported : ∀ ops, imported ops → out.1.status = 200 ∧ report out.1 ops.length ∧
      ∀ o ∈ ops, ∃ attrs, o = .insert k t attrs) :
    AllOrNothing t report db out := by
  rcases hruns with ⟨hbad, hdb⟩ | ⟨-, ops, hops, hall⟩
  · refine Or.inr ⟨fun hstatus => hbad ?_, hdb⟩
    rw [Response.Success, hstatus]
    norm_num
  · obtain ⟨hstatus, hreport, hinserts⟩ := himported ops hops
    exact Or.inl ⟨hstatus, ops.length, hreport, applyAll_inserts hinserts hall⟩

/-- **The imports are all or nothing.** An import that answers 200 adds as many rows to
    its table as it reports and changes nothing else; of a CSV file every record is
    counted once. Any other answer leaves the database as it was. -/
theorem import_all_or_nothing (k : Clock) (file : Option Upload) (db : DB) :
    AllOrNothing .systemDictionary
      (fun r n => ∃ upload, file = some upload ∧ CsvReport upload r n) db
        (run (importSystemDictionaries k file) db) ∧
      AllOrNothing .researchTemplate
        (fun r n => ∃ upload, file = some upload ∧
          if endsWith upload.filename ".json" = true then JsonReport upload r n
            else CsvReport upload r n) db
        (run (importResearchTemplates k file) db) := by
  constructor
  · refine allOrNothing_of_runs (k := k) (importSystemDictionaries_cases rfl) ?_
    rintro ops ⟨upload, hfile, himported⟩
    have hreport := himported.report
    refine ⟨hreport.status, ⟨upload, hfile, hreport⟩, ?_⟩
    obtain ⟨rows, -, rfl, -⟩ := himported
    exact csvOps_inserts (fun _ _ => dictionaryRow_insert) rows
  · refine allOrNothing_of_runs (k := k) (importResearchTemplates_cases rfl) ?_
    rintro ops ⟨upload, hfile, ⟨hname, himported⟩ | ⟨hname, himported⟩⟩
    · have hreport := himported.report
      refine ⟨hreport.status, ⟨upload, hfile, by rw [if_pos hname]; exact hreport⟩, ?_⟩
      obtain ⟨data, -, rfl, -⟩ := himported
      exact jsonOps_inserts k data
    · have hreport := himported.report
      refine ⟨hreport.status, ⟨upload, hfile, by rw [hname]; exact hreport⟩, ?_⟩
      obtain ⟨rows, -, rfl, -⟩ := himported
      refine csvOps_inserts (fun row o h => ?_) rows
      obtain ⟨_, _, _, _, attrs, -, -, -, -, rfl, -⟩ := templateRow_insert h
      exact ⟨attrs, rfl⟩

end ProjectEvaluation.Backend
