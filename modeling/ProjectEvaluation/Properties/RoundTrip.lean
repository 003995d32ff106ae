import ProjectEvaluation.Backend.Reachable

/-!
# Putting back what was got

The pages edit a row by sending back, changed or not, the object the GET handler
returned. Dates come back in the format of the encoder, which is not always one
the decoder reads.

Results:
* `confirms_succeeds`: an update that assigns what is there changes nothing.
* `put_what_was_got`: the object of a GET sent back unchanged is accepted and
  changes nothing but two copies the handlers refresh.
-/

namespace ProjectEvaluation.Backend

open Python Relational Transaction

/-! ## Assigning what is there -/

/-- An assignment that leaves a row as it is. -/
def Confirms (t : Table) (row : Record) (a : Assignment) : Prop :=
  a.2 = .ok none ∨
    ∃ v c, a.2 = .ok (some v) ∧ t.column a.1 = some c ∧ v.bind c.type = .ok (row.cell a.1)

theorem row_unique {db : DB} (hv : Valid db) {t : Table} {id : ℕ} {row : Record}
    (hfind : find (db t) id = some row) {r : Record} (hr : r ∈ db t) (hid : r.id = id) :
    r = row := by
  have := find_of_mem (hv.keys t) hr
  rw [hid, hfind] at this
  exact (Option.some_inj.mp this).symm

/-- A value that is there may be stored again. -/
theorem admissible_same {db : DB} (hv : Valid db) {t : Table} {id : ℕ} {row : Record} {c : Column}
    (hc : c ∈ t.columns) (hfind : find (db t) id = some row) :
    Admissible db t id c (row.cell c.field) := by
  have hrow := mem_of_find hfind
  constructor
  · intro hnull
    by_contra hnn
    exact hv.notNull t c hc (by simpa using hnn) row hrow hnull
  · intro hunique hne r hr hid heq
    have := hv.unique t c hc hunique r hr row hrow (heq ▸ hne) heq
    exact hid (this.trans (find_id hfind))

theorem assign_same {db : DB} (hv : Valid db) {t : Table} {id : ℕ} {row : Record}
    (hfind : find (db t) id = some row) {f : Field} {v : Attr} {c : Column}
    (hc : t.column f = some c)
    (hbind : v.bind c.type = .ok (row.cell f)) : Backend.assign t id f v db = .ok db := by
  obtain rfl := Table.column_field hc
  have hmem := Table.mem_of_column hc
  refine (assign_eq_ok hmem).mpr ⟨_, hbind, admissible_same hv hmem hfind, ?_⟩
  have hself : setCells db t id [(c.field, row.cell c.field)] = db := by
    refine setCells_eq_self fun r hr hid p hp => ?_
    rw [row_unique hv hfind hr hid, List.mem_singleton.mp hp]
  exact hself.symm

/-- **Assignments of what is there** can be carried out and change nothing. -/
theorem confirms_ops {db : DB} (hv : Valid db) {t : Table} {id : ℕ} {row : Record}
    (hfind : find (db t) id = some row) {assignments : List Assignment}
    (h : ∀ a ∈ assignments, Confirms t row a) :
    ∃ ops, updateOps t id assignments = .ok ops ∧ applyAll applyOp ops db = .ok db := by
  induction assignments with
  | nil => exact ⟨[], rfl, rfl⟩
  | cons a assignments ih =>
    obtain ⟨ops, hops, hall⟩ := ih fun b hb => h b (List.mem_cons_of_mem _ hb)
    obtain ⟨f, x⟩ := a
    rcases h (f, x) List.mem_cons_self with hx | ⟨v, c, hx, hc, hbind⟩
    · refine ⟨ops, ?_, hall⟩
      simp only at hx
      subst hx
      exact hops
    · simp only at hx hc hbind
      subst hx
      refine ⟨.assign t id f v :: ops, ?_, ?_⟩
      · show (updateOps t id assignments).map (Op.assign t id f v :: ·) = _
        rw [hops]
        rfl
      · have hsame : applyOp (.assign t id f v) db = .ok db := assign_same hv hfind hc hbind
        rw [applyAll_cons, hsame]
        exact hall

theorem updateOps_append {t : Table} {id : ℕ} {before after : List Assignment} {ops₁ ops₂ : List Op}
    (h₁ : updateOps t id before = .ok ops₁) (h₂ : updateOps t id after = .ok ops₂) :
    updateOps t id (before ++ after) = .ok (ops₁ ++ ops₂) := by
  obtain ⟨hall₁, rfl⟩ := stagedOps_eq_ok.mp h₁
  obtain ⟨hall₂, rfl⟩ := stagedOps_eq_ok.mp h₂
  refine stagedOps_eq_ok.mpr ⟨fun x hx => ?_, by rw [List.map_append, List.filterMap_append]⟩
  rw [List.map_append] at hx
  rcases List.mem_append.mp hx with hx | hx
  · exact hall₁ x hx
  · exact hall₂ x hx

/-- One new value among assignments of what is there. -/
theorem confirms_but_one {db : DB} (hv : Valid db) {t : Table} {id : ℕ} {row : Record}
    (hfind : find (db t) id = some row) {before after : List Assignment} {f : Field} {v : Attr}
    {c : Column}
    {w : Value} (hc : t.column f = some c) (hbind : v.bind c.type = .ok w)
    (hadm : Admissible db t id c w)
    (hbefore : ∀ a ∈ before, Confirms t row a) (hafter : ∀ a ∈ after, Confirms t row a ∧ a.1 ≠ f) :
    ∃ ops, updateOps t id (before ++ (f, .ok (some v)) :: after) = .ok ops ∧
      applyAll applyOp ops db = .ok (setCells db t id [(f, w)]) := by
  obtain ⟨ops₁, hops₁, hall₁⟩ := confirms_ops hv hfind hbefore
  obtain rfl := Table.column_field hc
  have hassign : applyOp (.assign t id c.field v) db = .ok (setCells db t id [(c.field, w)]) :=
    (assign_eq_ok (Table.mem_of_column hc)).mpr ⟨w, hbind, hadm, rfl⟩
  have hfind' : find (setCells db t id [(c.field, w)] t) id =
      some (assignCells row [(c.field, w)]) := by
    rw [find_setCells, hfind]; rfl
  have hafter' : ∀ a ∈ after, Confirms t (assignCells row [(c.field, w)]) a := by
    intro a ha
    obtain ⟨hconfirms, hne⟩ := hafter a ha
    have hcell : (assignCells row [(c.field, w)]).cell a.1 = row.cell a.1 :=
      assignCells_of_not_mem row fun x hx => hne (congrArg Prod.fst (List.mem_singleton.mp hx))
    rw [Confirms, hcell]
    exact hconfirms
  obtain ⟨ops₂, hops₂, hall₂⟩ := confirms_ops (applyOp_valid _ _ _ hv hassign) hfind' hafter'
  have hops : updateOps t id ((c.field, .ok (some v)) :: after) =
      .ok (.assign t id c.field v :: ops₂) := by
    show (updateOps t id after).map (Op.assign t id c.field v :: ·) = _
    rw [hops₂]
    rfl
  refine ⟨_, updateOps_append hops₁ hops, ?_⟩
  rw [applyAll_append, hall₁]
  show applyAll applyOp (Op.assign t id c.field v :: ops₂) db = _
  rw [applyAll_cons, hassign]
  exact hall₂

/-! ## What a body confirms -/

/-- A body gives back the value of an attribute, or leaves it out. -/
def GivesBack (data : Json) (row : Record) (f : Field) : Prop :=
  data.get f = .ok none ∨ data.get f = .ok (some (row.cell f).toJson)

/-- A column whose values are stored again as they are shown. -/
def plainColumn (t : Table) (f : Field) : Bool := (t.column f).any fun c => c.type.plain

theorem keep_confirms {db : DB} (hv : Valid db) {t : Table} {row : Record} (hrow : row ∈ db t)
    {data : Json}
    {f : Field} (hplain : plainColumn t f = true) (hget : GivesBack data row f) :
    Confirms t row (keep data row f) := by
  obtain ⟨c, hc, hty⟩ := (Option.any_eq_true _ _).mp hplain
  obtain rfl := Table.column_field hc
  have hcanonical := hv.canonical t c (Table.mem_of_column hc) row hrow
  rcases hget with hget | hget
  · exact Or.inr ⟨.value (row.cell c.field), c, by simp [keep, hget, Except.map], hc,
      Attr.bind_value hcanonical⟩
  · exact Or.inr ⟨.json (row.cell c.field).toJson, c, by simp [keep, hget, Except.map], hc,
      bindJson_toJson hty hcanonical⟩

theorem keeps_confirm {db : DB} (hv : Valid db) {t : Table} {row : Record} (hrow : row ∈ db t)
    {data : Json}
    {fields : List Field} (hplain : ∀ f ∈ fields, plainColumn t f = true)
    (hget : ∀ f ∈ fields, GivesBack data row f) : ∀ a ∈ fields.map (keep data row),
    Confirms t row a := by
  intro a ha
  obtain ⟨f, hf, rfl⟩ := List.mem_map.mp ha
  exact keep_confirms hv hrow (hplain f hf) (hget f hf)

/-- The objects the handlers show give back what they show. -/
theorem object_givesBack (fields : List Field) (row : Record) {f : Field} (hf : f ≠ .id) :
    GivesBack (object fields row) row f := by
  unfold GivesBack object
  simp only [Json.get_dict]
  induction fields with
  | nil => exact Or.inl rfl
  | cons g fields ih =>
    rw [List.map_cons, List.lookup_cons]
    by_cases hg : f = g
    · subst hg
      simp [shown, hf]
    · rw [beq_eq_false_iff_ne.mpr hg]
      exact ih

/-- **Putting back.** An update handler whose assignments confirm the row succeeds and
    changes nothing. -/
theorem confirms_succeeds {db : DB} (hv : Valid db) {t : Table} {id : ℕ} {row : Record}
    (hfind : find (db t) id = some row) {missing : String}
    {prepare : Json → Record → DB → Except Exn (Response ⊕ List Assignment)}
    {reply : Record → DB → Json} {data : Json} (assignments : List Assignment)
    (hprep : prepare data row db = .ok (.inr assignments))
    (h : ∀ a ∈ assignments, Confirms t row a) :
    (run (updateHandler t missing prepare (fun row db => .ok (reply row db)) id (.json data))
      db).1.Success ∧
      (run (updateHandler t missing prepare (fun row db => .ok (reply row db)) id (.json data))
        db).2 = db := by
  obtain ⟨ops, hops, hall⟩ := confirms_ops hv hfind h
  have hid : id < 2 ^ 63 := find_id hfind ▸ hv.small t row (mem_of_find hfind)
  exact updateHandler_succeeds hid hfind hprep hops hall fun _ _ => ⟨_, rfl⟩

theorem getHandler_found {db : DB} (hv : Valid db) {t : Table} {id : ℕ} {row : Record}
    (hfind : find (db t) id = some row) {missing : String} {render : Record → DB → Except Exn Json}
    {body : Json}
    (hrender : render row db = .ok body) :
    getHandler t missing render id db = { status := 200, body } := by
  have hid : id < 2 ^ 63 := find_id hfind ▸ hv.small t row (mem_of_find hfind)
  have hget : getById t id db = .ok (some row) := getById_eq_some.mpr ⟨hid, hfind⟩
  simp only [getHandler, hget, Except.bind, hrender, Except.map]

/-! ## The resources -/

/-- A column that is not nullable holds a value of its type. -/
theorem fits_of_required {db : DB} (hv : Valid db) {t : Table} {row : Record} (hrow : row ∈ db t)
    {c : Column}
    (hc : c ∈ t.columns) (hnn : c.nullable = false) : fits c.type (row.cell c.field) = true :=
  (hv.canonical t c hc row hrow).resolve_left (hv.notNull t c hc hnn row hrow)

theorem text_of_string {db : DB} (hv : Valid db) {t : Table} {row : Record}
    (hrow : row ∈ db t) {f : Field}
    (hc : ∃ c ∈ t.columns, c.field = f ∧ c.type = .string ∧ c.nullable = false) :
    ∃ s, row.cell f = .text s := by
  obtain ⟨c, hc, rfl, hty, hnn⟩ := hc
  have hfits := fits_of_required hv hrow hc hnn
  rw [hty] at hfits
  cases hcell : row.cell c.field with
  | text s => exact ⟨s, rfl⟩
  | _ => rw [hcell] at hfits; cases hfits

theorem date_of_date {db : DB} (hv : Valid db) {t : Table} {row : Record}
    (hrow : row ∈ db t) {f : Field}
    (hc : ∃ c ∈ t.columns, c.field = f ∧ c.type = .date ∧ c.nullable = false) :
    ∃ d, row.cell f = .date d := by
  obtain ⟨c, hc, rfl, hty, hnn⟩ := hc
  have hfits := fits_of_required hv hrow hc hnn
  rw [hty] at hfits
  cases hcell : row.cell c.field with
  | date d => exact ⟨d, rfl⟩
  | _ => rw [hcell] at hfits; cases hfits

/-- A name that is sent back is not looked up. -/
theorem takenByOther_same {db : DB} (hv : Valid db) {t : Table} {row : Record}
    (hrow : row ∈ db t) {f : Field}
    (hc : ∃ c ∈ t.columns, c.field = f ∧ c.type = .string ∧ c.nullable = false) {data : Json}
    (hget : data.get f = .ok (some (row.cell f).toJson)) :
    takenByOther t f data row db = .ok false := by
  obtain ⟨s, hs⟩ := text_of_string hv hrow hc
  unfold takenByOther
  rw [Json.item_of_get hget, hs]
  simp [bind, Except.bind, Value.toJson, equalsText]

/-- `s[:n]` of a text column. -/
def firstCharacters (n : ℕ) : Value → Value
  | .text s => .text (prefixOf n s)
  | v => v

/-- The name that the courseware of a learning record has now. -/
def currentName (record : Record) (db : DB) : Value :=
  match related .trainingCourseware (record.cell .learningCourseware) db with
  | some courseware => courseware.cell .coursewareName
  | none => .text ""

/-- What the update handlers refresh of a row they get back unchanged: an empty short
    name of a project, and the courseware name of a learning record. -/
def refreshed (row : Record) (db : DB) : Resource → List (Field × Value)
  | .project =>
    if (row.cell .projectShortName).truthy then []
    else [(.projectShortName, firstCharacters 100 (row.cell .projectName))]
  | .learningRecord => [(.coursewareName, currentName row db)]
  | _ => []

/-- A GET of a row and the PUT of what it returned. -/
def PutsBack (k : Clock) (r : Resource) (get : ℕ → DB → Response) (id : ℕ) (row : Record)
    (db : DB) : Prop :=
  (get id db).Success ∧ (handle k (.update r id (.json (get id db).body)) db).1.Success ∧
    (handle k (.update r id (.json (get id db).body)) db).2 =
      setCells db r.table id (refreshed row db r)

/-- The resources whose handlers show the attributes and assign them one by one. -/
theorem plain_putsBack {db : DB} (hv : Valid db) {k : Clock} {r : Resource} {id : ℕ} {row : Record}
    (hfind : find (db r.table) id = some row) {get : ℕ → DB → Response} {fields : List Field}
    (kept : List Field) {missing missing' : String}
    (hget : get = getHandler r.table missing (answer fields))
    {prepare : Json → Record → DB → Except Exn (Response ⊕ List Assignment)}
    {reply : Record → DB → Json}
    (hput : updateResource k r =
      updateHandler r.table missing' prepare (fun row db => .ok (reply row db)))
    (hprep : prepare (object fields row) row db =
      .ok (.inr (kept.map (keep (object fields row) row))))
    (hplain : ∀ f ∈ kept, plainColumn r.table f = true) (hkept : .id ∉ kept)
    (hrefreshed : refreshed row db r = []) : PutsBack k r get id row db := by
  have hgot : get id db = { status := 200, body := object fields row } := by
    rw [hget]; exact getHandler_found hv hfind rfl
  unfold PutsBack
  rw [hgot, hrefreshed]
  have hput' : ∀ body, handle k (.update r id body) db =
      run (updateHandler r.table missing' prepare (fun row db => .ok (reply row db)) id body)
        db := by
    intro body
    show run (updateResource k r id body) db = _
    rw [hput]
  rw [hput']
  refine ⟨(by norm_num : 200 < 400), confirms_succeeds hv hfind _ hprep ?_⟩
  refine keeps_confirm hv (mem_of_find hfind) hplain fun f hf => object_givesBack fields row ?_
  rintro rfl
  exact hkept hf

theorem refuseIf_false {α : Type} {check : Except Exn Bool} {message : String}
    {rest : Except Exn (Response ⊕ α)} (h : check = .ok false) :
    refuseIf check message rest = rest := by
  rw [h]; rfl

/-- The checks of a name that is unique pass when the name is sent back. -/
theorem object_takenByOther {db : DB} (hv : Valid db) {t : Table} {row : Record} (hrow : row ∈ db t)
    (fields : List Field) (f : Field)
    (hget : (object fields row).get f = .ok (some (row.cell f).toJson))
    (hc : ∃ c ∈ t.columns, c.field = f ∧ c.type = .string ∧ c.nullable = false) {α : Type}
    {message : String}
    {rest : Except Exn (Response ⊕ α)} :
    refuseIf (takenByOther t f (object fields row) row db) message rest = rest :=
  refuseIf_false (takenByOther_same hv hrow hc hget)

theorem user_putsBack {db : DB} (hv : Valid db) {k : Clock} {id : ℕ} {row : Record}
    (hfind : find (db .user) id = some row) : PutsBack k .user getUser id row db := by
  have hrow := mem_of_find hfind
  have hgot : getUser id db = { status := 200, body := object userFields row } :=
    getHandler_found hv hfind rfl
  unfold PutsBack
  rw [hgot]
  refine ⟨(by norm_num : 200 < 400), confirms_succeeds hv hfind
    (userAssignments (object userFields row) row) ?_ ?_⟩
  · simp only
    rw [object_takenByOther hv hrow userFields .username rfl
        ⟨uniqueColumn .username, by decide, rfl, rfl, rfl⟩,
      object_takenByOther hv hrow userFields .email rfl
        ⟨uniqueColumn .email, by decide, rfl, rfl, rfl⟩]
  · have hkeep : ∀ f, plainColumn .user f = true → f ≠ .id →
        Confirms .user row (keep (object userFields row) row f) :=
      fun f hplain hf => keep_confirms hv hrow hplain (object_givesBack userFields row hf)
    intro a ha
    simp only [userAssignments, List.mem_cons, List.not_mem_nil, or_false] at ha
    rcases ha with rfl | rfl | rfl | rfl | rfl
    · exact hkeep .username (by decide) (by decide)
    · exact Or.inl rfl
    · exact hkeep .name (by decide) (by decide)
    · exact hkeep .email (by decide) (by decide)
    · exact hkeep .roleId (by decide) (by decide)

theorem vendor_putsBack {db : DB} (hv : Valid db) {k : Clock} {id : ℕ} {row : Record}
    (hfind : find (db .vendorResearch) id = some row) :
    PutsBack k .vendorResearch getVendorResearch id row db := by
  have hrow := mem_of_find hfind
  obtain ⟨body, hbody⟩ : ∃ body, renderVendorResearch row db = .ok body := ⟨_, rfl⟩
  have hgot : getVendorResearch id db = { status := 200, body } := getHandler_found hv hfind hbody
  unfold PutsBack
  rw [hgot]
  refine ⟨(by norm_num : 200 < 400), confirms_succeeds hv hfind (vendorAssignments body row) rfl ?_⟩
  cases hbody
  intro a ha
  rcases List.mem_cons.mp ha with rfl | ha
  · obtain ⟨d, hd⟩ := date_of_date hv hrow (f := .researchDate)
      ⟨{ required .researchDate .date with default := some .currentDate }, by decide, rfl, rfl, rfl⟩
    have hparse : parseDate (isoOrNone (row.cell .researchDate)) = some d := by
      rw [hd]
      simp only [isoOrNone, parseDate, if_neg (T_not_mem_isoformat d)]
      rw [if_neg, strptimeDate_isoformat]
      intro hempty
      have hsome := strptimeDate_isoformat d
      have hnone : strptimeDate "" = none := by decide
      rw [hempty, hnone] at hsome
      cases hsome
    refine Or.inr ⟨.value (.date d), _, ?_, rfl, ?_⟩
    · show Except.ok ((parseDate (isoOrNone (row.cell .researchDate))).map fun d =>
        Attr.value (.date d)) = _
      rw [hparse]
      rfl
    · show Except.ok (Value.date d) = .ok (row.cell .researchDate)
      rw [hd]
  · refine keeps_confirm hv hrow (by decide) (fun f hf => ?_) a ha
    simp only [List.mem_cons, List.not_mem_nil, or_false] at hf
    rcases hf with rfl | rfl | rfl | rfl | rfl | rfl <;> exact Or.inr rfl

/-- An establishment date that comes back as an HTTP date cannot be parsed and is
    kept. -/
theorem parseDate_httpDate (d : Date) : parseDate (.str (httpDate d)) = none := by
  simp only [parseDate]
  split_ifs with hempty hT
  · rfl
  · exact fromisoformat_httpDate d
  · exact absurd (T_mem_httpDate d) hT

theorem project_putsBack {db : DB} (hv : Valid db) {k : Clock} {id : ℕ} {row : Record}
    (hfind : find (db .evaluationProject) id = some row) :
    PutsBack k .project getEvaluationProject id row db := by
  have hrow := mem_of_find hfind
  have hid : id < 2 ^ 63 := find_id hfind ▸ hv.small .evaluationProject row hrow
  obtain ⟨body, hbody⟩ : ∃ body, renderProject row db = .ok body := ⟨_, rfl⟩
  have hgot : getEvaluationProject id db = { status := 200, body } :=
    getHandler_found hv hfind hbody
  obtain ⟨short, hshort⟩ := text_of_string hv hrow (f := .projectShortName)
    ⟨required .projectShortName .string, by decide, rfl, rfl, rfl⟩
  obtain ⟨mnemonic, hmnemonic⟩ := text_of_string hv hrow (f := .mnemonic)
    ⟨required .mnemonic .string, by decide, rfl, rfl, rfl⟩
  obtain ⟨name, hname⟩ := text_of_string hv hrow (f := .projectName)
    ⟨required .projectName .string, by decide, rfl, rfl, rfl⟩
  obtain ⟨d, hd⟩ := date_of_date hv hrow (f := .establishmentDate)
    ⟨{ required .establishmentDate .date with default := some .currentDate }, by decide,
      rfl, rfl, rfl⟩
  cases hbody
  unfold PutsBack
  rw [hgot]
  set body := Json.dict _ with hbody
  have hkeep : ∀ f, plainColumn .evaluationProject f = true → GivesBack body row f →
      Confirms .evaluationProject row (keep body row f) := fun f => keep_confirms hv hrow
  have hbefore : ∀ a ∈ [keep body row .projectId, keep body row .projectName],
      Confirms .evaluationProject row a := by
    intro a ha
    simp only [List.mem_cons, List.not_mem_nil, or_false] at ha
    rcases ha with rfl | rfl
    · exact hkeep .projectId (by decide) (Or.inl rfl)
    · exact hkeep .projectName (by decide) (Or.inr rfl)
  have hmnemonicKeeps : Confirms .evaluationProject row
      (keepOrPrefix body row .mnemonic .projectId 10) := by
    have hdefault : body.getD .projectId (.str "") = .ok (.str "") := rfl
    have hget : body.get .mnemonic = .ok none := rfl
    by_cases hempty : mnemonic = ""
    · refine Or.inr ⟨.json (.str ""), required .mnemonic .string, ?_, rfl, ?_⟩
      · simp [keepOrPrefix, hmnemonic, hempty, Value.truthy, hdefault, hget, slice,
          prefixOf, Except.map, bind, Except.bind]
      · show Except.ok (Value.text "") = .ok (row.cell .mnemonic)
        rw [hmnemonic, hempty]
    · refine Or.inr ⟨.value (row.cell .mnemonic), required .mnemonic .string, ?_, rfl, ?_⟩
      · simp [keepOrPrefix, hmnemonic, hempty, Value.truthy, hget, bind, Except.bind]
      · exact Attr.bind_value (Or.inr (by rw [hmnemonic]; rfl))
  have hdateKeeps : Confirms .evaluationProject row (assignDate body .establishmentDate) := by
    left
    show Except.ok ((parseDate (row.cell .establishmentDate).toJson).map fun d =>
      Attr.value (.date d)) = _
    rw [hd]
    simp only [Value.toJson, parseDate_httpDate]
    rfl
  have hafter : ∀ a ∈ (projectAssignments body row).drop 3,
      Confirms .evaluationProject row a ∧ a.1 ≠ .projectShortName := by
    intro a ha
    simp only [projectAssignments, List.drop_succ_cons, List.drop_zero, List.mem_cons,
      List.not_mem_nil, or_false] at ha
    rcases ha with rfl | rfl | rfl | rfl | rfl | rfl | rfl | rfl | rfl
    · exact ⟨hmnemonicKeeps, ne_of_beq_false rfl⟩
    · exact ⟨hkeep .projectManagerId (by decide) (Or.inr rfl), ne_of_beq_false rfl⟩
    · exact ⟨hkeep .projectType (by decide) (Or.inr rfl), ne_of_beq_false rfl⟩
    · exact ⟨hkeep .projectLevel (by decide) (Or.inr rfl), ne_of_beq_false rfl⟩
    · exact ⟨hkeep .siteProjectManagerId (by decide) (Or.inr rfl), ne_of_beq_false rfl⟩
    · exact ⟨hkeep .projectAttribute (by decide) (Or.inr rfl), ne_of_beq_false rfl⟩
    · exact ⟨hdateKeeps, ne_of_beq_false rfl⟩
    · exact ⟨hkeep .establishmentStatus (by decide) (Or.inr rfl), ne_of_beq_false rfl⟩
    · exact ⟨hkeep .establishmentProof (by decide) (Or.inr rfl), ne_of_beq_false rfl⟩
  have hsplit : projectAssignments body row =
      [keep body row .projectId, keep body row .projectName] ++
      keepOrPrefix body row .projectShortName .projectName 100 ::
        (projectAssignments body row).drop 3 :=
        rfl
  have hget : body.get .projectShortName = .ok none := rfl
  refine ⟨(by norm_num : 200 < 400), ?_⟩
  by_cases hempty : short = ""
  · have hvalue : keepOrPrefix body row .projectShortName .projectName 100 =
        (.projectShortName, .ok (some (.json (.str (prefixOf 100 name))))) := by
      have hdefault : body.getD .projectName (.str "") = .ok (.str name) := by
        show Except.ok (row.cell .projectName).toJson = _
        rw [hname]
        rfl
      simp [keepOrPrefix, hshort, hempty, Value.truthy, hdefault, hget, slice, Except.map, bind,
        Except.bind]
    have hrefreshed : refreshed row db .project =
        [(.projectShortName, .text (prefixOf 100 name))] := by
      simp [refreshed, hshort, hempty, Value.truthy, hname, firstCharacters]
    obtain ⟨ops, hops, hall⟩ := confirms_but_one hv hfind
      (v := .json (.str (prefixOf 100 name))) (c := required .projectShortName .string)
      (w := .text (prefixOf 100 name)) rfl rfl
        ⟨fun h => Value.noConfusion h, fun h => Bool.noConfusion h⟩ hbefore hafter
    rw [← hvalue, ← hsplit] at hops
    rw [hrefreshed]
    exact updateHandler_succeeds hid hfind rfl hops hall fun _ _ => ⟨_, rfl⟩
  · have hrefreshed : refreshed row db .project = [] := by
      simp [refreshed, hshort, hempty, Value.truthy]
    have hshortKeeps : Confirms .evaluationProject row
        (keepOrPrefix body row .projectShortName .projectName 100) := by
      refine Or.inr ⟨.value (row.cell .projectShortName), required .projectShortName .string,
        ?_, rfl, ?_⟩
      · simp [keepOrPrefix, hshort, hempty, Value.truthy, hget, bind, Except.bind]
      · exact Attr.bind_value (Or.inr (by rw [hshort]; rfl))
    rw [hrefreshed]
    refine confirms_succeeds hv hfind (projectAssignments body row) rfl fun a ha => ?_
    rw [hsplit] at ha
    rcases List.mem_append.mp ha with ha | ha
    · exact hbefore a ha
    · rcases List.mem_cons.mp ha with rfl | ha
      · exact hshortKeeps
      · exact (hafter a ha).1

theorem queryGet_toJson {db : DB} {t : Table} {v : Value} (hv : Canonical .integer v) :
    queryGet t v.toJson db = .ok (related t v db) := by
  have hidentity : identity v.toJson = .ok v.toJson := by cases v <;> rfl
  rw [queryGet, hidentity]
  show loadByKey t v.toJson db = _
  rw [loadByKey, bindJson_toJson rfl hv]
  rfl

/-- What the name of a courseware binds to. -/
theorem nameOfCourseware_bind {db : DB} (hv : Valid db) (v : Value) :
    (nameOfCourseware (related .trainingCourseware v db)).bind .string =
      .ok (match related .trainingCourseware v db with
        | some courseware => courseware.cell .coursewareName
        | none => .text "") := by
  cases hfound : related .trainingCourseware v db with
  | none => rfl
  | some courseware =>
    have hmem : courseware ∈ db .trainingCourseware := List.mem_of_find?_eq_some hfound
    exact Attr.bind_value (hv.canonical .trainingCourseware (required .coursewareName .string)
      (by decide) _ hmem)

theorem learning_putsBack {db : DB} (hv : Valid db) (htimes : AllLearningTimes db)
    {k : Clock} {id : ℕ}
    {row : Record} (hfind : find (db .learningRecord) id = some row) :
    PutsBack k .learningRecord getLearningRecord id row db := by
  have hrow := mem_of_find hfind
  have hid : id < 2 ^ 63 := find_id hfind ▸ hv.small .learningRecord row hrow
  obtain ⟨d, startTime, endTime, hd, hstart, hend, hs, he, hduration⟩ := htimes row hrow
  have hcourseware : Canonical .integer (row.cell .learningCourseware) :=
    hv.canonical .learningRecord
    ((required .learningCourseware .integer).to .trainingCourseware) (by decide) row hrow
  have hperson : Canonical .integer (row.cell .learningPerson) :=
    hv.canonical .learningRecord ((required .learningPerson .integer).to .user) (by decide) row hrow
  have hrender : renderLearningRecord (unlessNone dayText) (unlessNone timeText) row = .ok (.dict
      [(.id, shown row .id), (.coursewareName, shown row .coursewareName),
       (.learningCourseware, shown row .learningCourseware),
       (.learningPerson, shown row .learningPerson), (.learningDate, .str d.isoformat),
       (.startTime, .str startTime.strftime), (.endTime, .str endTime.strftime),
       (.learningDuration, shown row .learningDuration)]) := by
    rw [renderLearningRecord, hd, hstart, hend]
    rfl
  set body := Json.dict _ with hbody
  have hgot : getLearningRecord id db = { status := 200, body } := getHandler_found hv hfind hrender
  set input : LearningInput :=
    { name := nameOfCourseware (related .trainingCourseware (row.cell .learningCourseware) db)
      courseware := (row.cell .learningCourseware).toJson
      person := (row.cell .learningPerson).toJson
      day := d, startTime, endTime } with hinput
  have hreads : input.Reads body db := by
    refine ⟨?_, rfl, rfl, ?_, ?_, ?_⟩
    · show (queryGet .trainingCourseware (row.cell .learningCourseware).toJson db).map _ = _
      rw [queryGet_toJson hcourseware]
      rfl
    · show (strptimeDate d.isoformat).elim _ _ = _
      rw [strptimeDate_isoformat]; rfl
    · show (strptimeTime startTime.strftime).elim _ _ = _
      rw [strptimeTime_strftime _ hs]; rfl
    · show (strptimeTime endTime.strftime).elim _ _ = _
      rw [strptimeTime_strftime _ he]; rfl
  have hafter : ∀ a ∈ input.assignments.drop 1,
      Confirms .learningRecord row a ∧ a.1 ≠ .coursewareName := by
    intro a ha
    simp only [LearningInput.assignments, LearningInput.attrs, List.map_cons, List.map_nil,
      List.drop_succ_cons, List.drop_zero, List.mem_cons, List.not_mem_nil, or_false] at ha
    rcases ha with rfl | rfl | rfl | rfl | rfl | rfl
    · exact ⟨Or.inr ⟨_, _, rfl, rfl, bindJson_toJson rfl hcourseware⟩, ne_of_beq_false rfl⟩
    · exact ⟨Or.inr ⟨_, _, rfl, rfl, bindJson_toJson rfl hperson⟩, ne_of_beq_false rfl⟩
    · exact ⟨Or.inr ⟨_, _, rfl, rfl, by rw [hd]; rfl⟩, ne_of_beq_false rfl⟩
    · exact ⟨Or.inr ⟨_, _, rfl, rfl, by rw [hstart]; rfl⟩, ne_of_beq_false rfl⟩
    · exact ⟨Or.inr ⟨_, _, rfl, rfl, by rw [hend]; rfl⟩, ne_of_beq_false rfl⟩
    · exact ⟨Or.inr ⟨_, _, rfl, rfl, by rw [hduration]; rfl⟩, ne_of_beq_false rfl⟩
  have hname : currentName row db ≠ .null := by
    unfold currentName
    split
    · rename_i courseware hfound
      exact hv.notNull .trainingCourseware (required .coursewareName .string) (by decide) rfl _
        (List.mem_of_find?_eq_some hfound)
    · simp
  obtain ⟨ops, hops, hall⟩ := confirms_but_one hv hfind (c := required .coursewareName .string)
    rfl (nameOfCourseware_bind hv (row.cell .learningCourseware))
    ⟨fun hnull => absurd hnull hname, fun h => Bool.noConfusion h⟩ (List.forall_mem_nil _) hafter
  unfold PutsBack
  rw [hgot]
  have hassign : learningAssignments body db = .ok input.assignments := hreads.assignments
  exact ⟨(by norm_num : 200 < 400),
    updateHandler_succeeds hid hfind (by simp only [hassign]; rfl) hops hall
    fun row' hrow' => learning_updated_reply hassign hops hall hrow'⟩

/-! ## The result -/

/-- **Putting back what was got.** In every reachable state, for every row of a
    resource with a GET and a PUT handler, research tasks aside: the object the GET
    returns, sent back unchanged, is accepted, and the PUT changes nothing, except
    that it fills in an empty short name of a project and renews the courseware
    name of a learning record. -/
theorem put_what_was_got (k : Clock) {r : Resource} {get : ℕ → DB → Response}
    (hget : getResource r = some get)
    (htask : r ≠ .researchTask) {db : DB} (h : Reachable db) {id : ℕ} {row : Record}
    (hfind : find (db r.table) id = some row) : PutsBack k r get id row db := by
  have hv := h.valid
  cases r with
  | menu => cases hget
  | skin => cases hget
  | courseware => cases hget
  | researchTask => exact absurd rfl htask
  | user => cases hget; exact user_putsBack hv hfind
  | vendorResearch => cases hget; exact vendor_putsBack hv hfind
  | project => cases hget; exact project_putsBack hv hfind
  | learningRecord => cases hget; exact learning_putsBack hv h.learningTimes hfind
  | clause =>
    cases hget
    exact plain_putsBack hv hfind clauseFields rfl rfl rfl (by decide) (by decide) rfl
  | level =>
    cases hget
    exact plain_putsBack hv hfind levelFields rfl rfl rfl (by decide) (by decide) rfl
  | catalog =>
    cases hget
    exact plain_putsBack hv hfind catalogFields rfl rfl rfl (by decide) (by decide) rfl
  | dictionary =>
    cases hget
    exact plain_putsBack hv hfind dictionaryFields rfl rfl rfl (by decide) (by decide) rfl
  | template =>
    cases hget
    exact plain_putsBack hv hfind templateFields rfl rfl rfl (by decide) (by decide) rfl
  | standard =>
    cases hget
    refine plain_putsBack hv hfind standardFields rfl rfl ?_ (by decide) (by decide) rfl
    exact object_takenByOther hv (mem_of_find hfind) (.id :: standardFields) .standardId rfl
      ⟨uniqueColumn .standardId, by decide, rfl, rfl, rfl⟩
  | evaluationType =>
    cases hget
    refine plain_putsBack hv hfind typeFields rfl rfl ?_ (by decide) (by decide) rfl
    exact object_takenByOther hv (mem_of_find hfind) (.id :: typeFields) .evaluationTypeId rfl
      ⟨uniqueColumn .evaluationTypeId, by decide, rfl, rfl, rfl⟩

/-- A body that gives a project an empty short name. -/
def unnamedProject : Json := .dict
  [(.projectId, .str "P1"), (.projectName, .str "互联互通评审"), (.projectShortName, .str ""),
   (.projectManagerId, .int 1), (.projectType, .int 1), (.projectLevel, .int 1)]

/-- A project with an empty short name is changed when it is put back. -/
theorem put_fills_short_name :
    let db := (handle .epoch (.create .project (.json unnamedProject)) fun _ => []).2
    Reachable db ∧ (find (db .evaluationProject) 1).isSome ∧
      (handle .epoch (.update .project 1 (.json (getEvaluationProject 1 db).body)) db).2 ≠ db := by
  intro db
  have hreach : Reachable db := Reachable.request _ _ Reachable.empty
  have hcells : (find (db .evaluationProject) 1).map (fun row => (row.cell .projectShortName,
      row.cell .projectName)) = some (.text "", .text "互联互通评审") := by decide
  obtain ⟨row, hrow, hcell⟩ := Option.map_eq_some_iff.mp hcells
  obtain ⟨hshort, hname⟩ := Prod.mk.inj hcell
  refine ⟨hreach, by rw [hrow]; rfl, fun hsame => ?_⟩
  -- the PUT assigns the first characters of the name
  have hput := (project_putsBack hreach.valid (k := .epoch) hrow).2.2
  rw [hsame] at hput
  have hfind : find (setCells db .evaluationProject 1
      (refreshed row db .project) .evaluationProject) 1 =
      some row := (congrArg (fun s : DB => find (s .evaluationProject) 1) hput).symm.trans hrow
  rw [find_setCells, hrow] at hfind
  have hfilled : refreshed row db .project = [(.projectShortName, .text "互联互通评审")] := by
    simp only [refreshed, hshort, hname]
    decide
  rw [hfilled] at hfind
  have hnew : row.cell .projectShortName = .text "互联互通评审" := by
    rw [← Option.some_inj.mp hfind]; rfl
  rw [hshort] at hnew
  exact absurd hnew (by decide)

/-- A dictionary entry is as it was after it is put back. -/
theorem put_what_was_got_dictionary :
    let db := (handle .epoch (.create .dictionary (.json (.dict [(.systemName, .str "HIS")])))
      fun _ => []).2
    (handle .epoch (.update .dictionary 1 (.json (getSystemDictionary 1 db).body)) db).2 = db := by
  intro db
  obtain ⟨row, hrow⟩ :=
    Option.isSome_iff_exists.mp (show (find (db .systemDictionary) 1).isSome by decide)
  exact (put_what_was_got .epoch (r := .dictionary) rfl (by decide)
    (Reachable.request .epoch _ Reachable.empty) hrow).2.2

end ProjectEvaluation.Backend
