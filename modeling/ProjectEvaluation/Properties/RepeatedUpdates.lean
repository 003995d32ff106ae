import ProjectEvaluation.Properties.RoleLists
import ProjectEvaluation.Properties.RoundTrip

/-!
# The same update again

A client that got no answer sends its request again.

Results:
* `assignments_again`: what an update assigns on its second run is what its first run left.
* `updates_repeat`: the second run succeeds and changes nothing.
-/

namespace ProjectEvaluation.Backend

open Python Relational Transaction

/-! ## Typed bodies -/

/-- A JSON value of the type of a column. `None` is of every type. -/
def HasType : ColType → Json → Prop
  | _, .null => True
  | .integer, .int _ => True
  | .string, .str _ => True
  | .float, .int _ => True
  | .float, .float _ => True
  | .boolean, .bool _ => True
  | .date, .str _ => True
  | .time, .str _ => True
  | .dateTime, .str _ => True
  | _, _ => False

/-- A body whose values have the types of the columns they are for. -/
def Typed (t : Table) (data : Json) : Prop :=
  ∀ c ∈ t.columns, ∀ j, data.get c.field = .ok (some j) → HasType c.type j

theorem HasType.string {j : Json} (h : HasType .string j) : j = .null ∨ ∃ s, j = .str s := by
  cases j with
  | null => exact Or.inl rfl
  | str s => exact Or.inr ⟨s, rfl⟩
  | _ => exact absurd h id

/-! ## What an update leaves -/

/-- Every value an update assigned is in the row afterwards. -/
theorem stored_confirms {t : Table} {id : ℕ} {assignments : List Assignment} {ops : List Op}
    {db db' : DB}
    (hnodup : (assignments.map Prod.fst).Nodup) (hops : updateOps t id assignments = .ok ops)
    (hall : applyAll applyOp ops db = .ok db') (row : Record) {a : Assignment}
    (ha : a ∈ assignments)
    (hcolumn : (t.column a.1).isSome) :
    Confirms t (assignCells row (updateValues t assignments)) a := by
  obtain ⟨f, x⟩ := a
  obtain ⟨c, hc⟩ := Option.isSome_iff_exists.mp hcolumn
  obtain ⟨y, hy, hbind⟩ := (updateOps_eq hops hall).2 _ ha
  simp only at hc hy
  subst hy
  cases y with
  | none => exact Or.inl rfl
  | some v =>
    obtain ⟨w, hw, -⟩ := hbind v rfl c hc
    have hcell := assigned_cell hnodup row ha hc hw
    exact Or.inr ⟨v, c, rfl, hc, hw.trans (congrArg Except.ok hcell.symm)⟩

/-- Every attribute an update handler assigns is a column. -/
theorem assignments_columns {r : Resource} {data : Json} {row : Record} {db : DB}
    {assignments : List Assignment}
    (h : r.assignments data row db = .ok assignments) :
    ∀ a ∈ assignments, (r.table.column a.1).isSome := by
  have hcolumns : ∀ f ∈ r.assigned, (r.table.column f).isSome := by cases r <;> decide
  rw [← assignments_fields h] at hcolumns
  exact fun a ha => hcolumns a.1 (List.mem_map_of_mem ha)

/-! ## The second run, assignment by assignment -/

/-- What the body gives, or the value that is there now. -/
theorem keep_again {t : Table} {data : Json} {row row' : Record} {f : Field}
    (h : Confirms t row' (keep data row f)) : Confirms t row' (keep data row' f) := by
  rcases h with hnone | ⟨v, c, hv, hc, hbind⟩
  · obtain ⟨found, -, hsome⟩ := map_eq_ok.mp hnone
    cases hsome
  · obtain ⟨found, hget, hsome⟩ := map_eq_ok.mp hv
    have hkeep : (keep data row' f).2 = .ok (some (found.elim (.value (row'.cell f)) .json)) := by
      simp only [keep, hget, Except.map]
    cases found with
    | none => exact Or.inr ⟨_, c, hkeep, hc, Attr.bind_value (Attr.bind_canonical hbind)⟩
    | some j =>
      obtain rfl := Option.some.inj hsome
      exact Or.inr ⟨_, c, hkeep, hc, hbind⟩

/-- A text column that is NOT NULL has got the text of the body. -/
theorem kept_string {db : DB} (hv : Valid db) {t : Table} {row row' : Record} (hrow : row' ∈ db t)
    {data : Json}
    (htyped : Typed t data) {f : Field}
    (hc : ∃ c ∈ t.columns, c.field = f ∧ c.type = .string ∧ c.nullable = false)
    (h : Confirms t row' (keep data row f)) {j : Json} (hget : data.get f = .ok (some j)) :
    ∃ s, j = .str s ∧ row'.cell f = .text s := by
  obtain ⟨c, hmem, rfl, hty, hnull⟩ := hc
  have hkeep : (keep data row c.field).2 = .ok (some (.json j)) := by
    simp only [keep, hget, Except.map, Option.elim]
  have hstored : bindJson .string j = .ok (row'.cell c.field) := by
    rcases h with hnone | ⟨v, d, hv', hd, hbind⟩
    · rw [hkeep] at hnone
      cases hnone
    · rw [hkeep] at hv'
      obtain rfl := Option.some.inj (Except.ok.inj hv')
      obtain rfl : c = d := Option.some.inj ((Table.column_of_mem hmem).symm.trans hd)
      rwa [hty] at hbind
  rcases (hty ▸ htyped c hmem j hget : HasType .string j).string with rfl | ⟨s, rfl⟩
  · exact absurd (Except.ok.inj hstored).symm (hv.notNull t c hmem hnull row' hrow)
  · exact ⟨s, rfl, (Except.ok.inj hstored).symm⟩

/-- What a short name is kept as, or filled in with, where the body has none. -/
def fallback (data : Json) (row : Record) (f source : Field) (n : ℕ) : Except Exn Attr :=
  if (row.cell f).truthy then .ok (.value (row.cell f))
  else ((data.getD source (.str "")).bind (slice n)).map .json

theorem keepOrPrefix_eq_ok {data : Json} {row : Record} {f source : Field} {n : ℕ}
    {x : Option Attr} :
    (keepOrPrefix data row f source n).2 = .ok x ↔
      ∃ a found, fallback data row f source n = .ok a ∧ data.get f = .ok found ∧
        some (found.elim a .json) = x := by
  have hmap : (keepOrPrefix data row f source n).2 =
      (fallback data row f source n).bind fun a =>
        (data.get f).map fun found => some (found.elim a .json) := by
    unfold keepOrPrefix fallback
    split_ifs
    · cases data.get f <;> rfl
    · cases data.getD source (.str "") with
      | error e => rfl
      | ok j => cases hslice : slice n j <;> simp [hslice, bind, Except.bind, Except.map]
  simp only [hmap, bind_eq_ok, map_eq_ok, exists_and_left]

/-- The first characters of a text of the body fill in an empty short name again. -/
theorem keepOrPrefix_again {t : Table} {data : Json} {row row' : Record} {f source : Field} {n : ℕ}
    (hsource : ∀ j, data.get source = .ok (some j) → ∃ s, j = .str s)
    (h : Confirms t row' (keepOrPrefix data row f source n)) :
    Confirms t row' (keepOrPrefix data row' f source n) := by
  rcases h with hnone | ⟨v, c, hv, hc, hbind⟩
  · obtain ⟨_, _, -, -, hsome⟩ := keepOrPrefix_eq_ok.mp hnone
    cases hsome
  obtain ⟨a, found, ha, hget, hsome⟩ := keepOrPrefix_eq_ok.mp hv
  obtain rfl := Option.some.inj hsome
  have hagain : ∀ a', fallback data row' f source n = .ok a' →
      (keepOrPrefix data row' f source n).2 = .ok (some (found.elim a' .json)) :=
    fun a' ha' => keepOrPrefix_eq_ok.mpr ⟨a', found, ha', hget, rfl⟩
  by_cases htruthy : (row'.cell f).truthy = true
  · refine Or.inr ⟨_, c, hagain _ (if_pos htruthy), hc, ?_⟩
    cases found with
    | none => exact Attr.bind_value (Attr.bind_canonical hbind)
    | some j => exact hbind
  -- the slice of the body can be taken, whether or not the first run took it
  obtain ⟨p, hp⟩ : ∃ p, (data.getD source (.str "")).bind (slice n) = .ok p := by
    cases data with
    | dict entries =>
      cases hlookup : entries.lookup source with
      | none => exact ⟨.str (prefixOf n ""), by simp only [Json.getD, Json.get_dict, hlookup]; rfl⟩
      | some j =>
        have hj : (Json.dict entries).get source = .ok (some j) := congrArg Except.ok hlookup
        obtain ⟨s, rfl⟩ := hsource j hj
        exact ⟨.str (prefixOf n s), by rw [Json.getD_of_get hj]; rfl⟩
    | _ => cases hget
  have hfallback : fallback data row' f source n = .ok (.json p) := by
    rw [fallback, if_neg htruthy, hp]
    rfl
  refine Or.inr ⟨_, c, hagain _ hfallback, hc, ?_⟩
  cases found with
  | some j => exact hbind
  | none =>
    -- the first run did not find a short name either, so it took the same characters
    have hfirst : (row.cell f).truthy ≠ true := by
      intro hfirst
      rw [fallback, if_pos hfirst] at ha
      obtain rfl := Except.ok.inj ha
      have hsame : row'.cell f = row.cell f := bind_value_eq hbind
      exact htruthy (hsame ▸ hfirst)
    rw [fallback, if_neg hfirst, hp] at ha
    obtain rfl := Except.ok.inj ha
    exact hbind

/-- The name of the courseware is looked up in a table that the update of a learning record leaves.
    -/
theorem learningAssignments_congr (data : Json) {db db' : DB}
    (h : db' .trainingCourseware = db .trainingCourseware) :
    learningAssignments data db' = learningAssignments data db := by
  unfold learningAssignments learningValues queryGet loadByKey related
  rw [h]

/-- **The second run.** What an update assigns when it is repeated confirms the row as the first run
    left it. -/
theorem assignments_again {r : Resource} {data : Json} {row row' : Record} {db db' : DB}
    {assignments : List Assignment} (hv : Valid db') (hrow : row' ∈ db' r.table)
    (htyped : Typed r.table data)
    (hcourseware : r = .learningRecord → db' .trainingCourseware = db .trainingCourseware)
    (h : r.assignments data row db = .ok assignments)
    (hstored : ∀ a ∈ assignments, Confirms r.table row' a) :
    ∃ again, r.assignments data row' db' = .ok again ∧ ∀ a ∈ again, Confirms r.table row' a := by
  have hkeeps : ∀ fields : List Field, (∀ a ∈ fields.map (keep data row), Confirms r.table row' a) →
      ∀ a ∈ fields.map (keep data row'), Confirms r.table row' a := by
    intro fields hfields a ha
    obtain ⟨f, hf, rfl⟩ := List.mem_map.mp ha
    exact keep_again (hfields _ (List.mem_map_of_mem hf))
  cases r with
  | learningRecord =>
    exact ⟨assignments, (learningAssignments_congr data (hcourseware rfl)).trans h, hstored⟩
  | user =>
    obtain rfl := Except.ok.inj h
    refine ⟨_, rfl, fun a ha => ?_⟩
    simp only [userAssignments, List.forall_mem_cons] at hstored
    obtain ⟨husername, hpassword, hname, hemail, hrole, -⟩ := hstored
    simp only [userAssignments, List.mem_cons, List.not_mem_nil, or_false] at ha
    rcases ha with rfl | rfl | rfl | rfl | rfl
    · exact keep_again husername
    · exact hpassword
    · exact keep_again hname
    · exact keep_again hemail
    · exact keep_again hrole
  | vendorResearch =>
    obtain rfl := Except.ok.inj h
    refine ⟨_, rfl, fun a ha => ?_⟩
    rcases List.mem_cons.mp ha with rfl | ha
    · exact hstored _ List.mem_cons_self
    · exact hkeeps _ (fun b hb => hstored b (List.mem_cons_of_mem _ hb)) a ha
  | project =>
    obtain rfl := Except.ok.inj h
    refine ⟨_, rfl, fun a ha => ?_⟩
    simp only [projectAssignments, List.forall_mem_cons] at hstored
    obtain ⟨hid, hname, hshort, hmnemonic, hmanager, htype, hlevel, hsite, hattribute, hdate,
      hstatus, hproof, -⟩ :=
      hstored
    have hidText : ∀ j, data.get .projectId = .ok (some j) → ∃ s, j = .str s := fun j hj =>
      (kept_string hv hrow htyped ⟨required .projectId .string, by decide, rfl, rfl,
        rfl⟩ hid hj).imp fun s hs => hs.1
    have hnameText : ∀ j, data.get .projectName = .ok (some j) → ∃ s, j = .str s := fun j hj =>
      (kept_string hv hrow htyped ⟨required .projectName .string, by decide, rfl, rfl,
        rfl⟩ hname hj).imp fun s hs => hs.1
    simp only [projectAssignments, List.mem_cons, List.not_mem_nil, or_false] at ha
    rcases ha with rfl | rfl | rfl | rfl | rfl | rfl | rfl | rfl | rfl | rfl | rfl | rfl
    · exact keep_again hid
    · exact keep_again hname
    · exact keepOrPrefix_again hnameText hshort
    · exact keepOrPrefix_again hidText hmnemonic
    · exact keep_again hmanager
    · exact keep_again htype
    · exact keep_again hlevel
    · exact keep_again hsite
    · exact keep_again hattribute
    · exact hdate
    · exact keep_again hstatus
    · exact keep_again hproof
  | researchTask =>
    obtain ⟨planned, hplanned, h⟩ := do_eq_ok.mp h
    obtain ⟨actual, hactual, h⟩ := do_eq_ok.mp h
    obtain rfl := Except.ok.inj h
    refine ⟨_, do_eq_ok.mpr ⟨planned, hplanned, do_eq_ok.mpr ⟨actual, hactual, rfl⟩⟩,
      fun a ha => ?_⟩
    simp only [List.forall_mem_cons] at hstored
    obtain ⟨htype, hlevel, hproject, hname, hstatus, hplan, hresearcher, hcompleter, htime, -⟩ :=
      hstored
    simp only [List.mem_cons, List.not_mem_nil, or_false] at ha
    rcases ha with rfl | rfl | rfl | rfl | rfl | rfl | rfl | rfl | rfl
    · exact keep_again htype
    · exact keep_again hlevel
    · exact keep_again hproject
    · exact keep_again hname
    · exact keep_again hstatus
    · exact hplan
    · exact keep_again hresearcher
    · exact keep_again hcompleter
    · exact htime
  | menu => obtain rfl := Except.ok.inj h; exact ⟨_, rfl, hkeeps _ hstored⟩
  | skin => obtain rfl := Except.ok.inj h; exact ⟨_, rfl, hkeeps _ hstored⟩
  | standard => obtain rfl := Except.ok.inj h; exact ⟨_, rfl, hkeeps _ hstored⟩
  | clause => obtain rfl := Except.ok.inj h; exact ⟨_, rfl, hkeeps _ hstored⟩
  | courseware => obtain rfl := Except.ok.inj h; exact ⟨_, rfl, hkeeps _ hstored⟩
  | evaluationType => obtain rfl := Except.ok.inj h; exact ⟨_, rfl, hkeeps _ hstored⟩
  | level => obtain rfl := Except.ok.inj h; exact ⟨_, rfl, hkeeps _ hstored⟩
  | catalog => obtain rfl := Except.ok.inj h; exact ⟨_, rfl, hkeeps _ hstored⟩
  | dictionary => obtain rfl := Except.ok.inj h; exact ⟨_, rfl, hkeeps _ hstored⟩
  | template => obtain rfl := Except.ok.inj h; exact ⟨_, rfl, hkeeps _ hstored⟩

/-! ## The handlers -/

/-- A name that was stored is not looked up again. -/
theorem takenByOther_again {t : Table} {data : Json} {row row' : Record} {f : Field} {db db' : DB}
    (hv : Valid db')
    (hrow : row' ∈ db' t) (htyped : Typed t data)
    (hc : ∃ c ∈ t.columns, c.field = f ∧ c.type = .string ∧ c.nullable = false)
    (hfree : takenByOther t f data row db = .ok false) (hkeep : Confirms t row' (keep data row f)) :
    takenByOther t f data row' db' = .ok false := by
  obtain ⟨j, hitem, -⟩ := do_eq_ok.mp hfree
  obtain ⟨s, rfl, hs⟩ := kept_string hv hrow htyped hc hkeep (Json.get_of_item hitem)
  have hsame : equalsText (.str s) (.text s) = true := beq_self_eq_true s
  refine do_eq_ok.mpr ⟨.str s, hitem, ?_⟩
  rw [hs, if_pos hsame]

/-- The update handler of `r` makes its assignments, its checks pass again once the update is
    carried out, and it always has an answer. -/
structure Repeatable (r : Resource)
    (prepare : Json → Record → DB → Except Exn (Response ⊕ List Assignment))
    (reply : Record → DB → Except Exn Json) : Prop where
  refuses : ∀ {data row db x}, prepare data row db = .ok (.inl x) → ¬ x.Success
  assigns : ∀ {data row db assignments}, prepare data row db = .ok (.inr assignments) →
    r.assignments data row db = .ok assignments
  checks : ∀ {data row row' db db' assignments again},
    Valid db' → row' ∈ db' r.table → Typed r.table data →
    prepare data row db = .ok (.inr assignments) → (∀ a ∈ assignments, Confirms r.table row' a) →
    r.assignments data row' db' = .ok again → prepare data row' db' = .ok (.inr again)
  answers : ∀ {id data row assignments ops db db' row'},
    prepare data row db = .ok (.inr assignments) →
    updateOps r.table id assignments = .ok ops → applyAll applyOp ops db = .ok db' →
    find (db' r.table) id = some row' → ∃ j, reply row' db' = .ok j

/-- **The update again**, by a handler of the common pattern. -/
theorem Repeatable.again {r : Resource} {missing : String}
    {prepare : Json → Record → DB → Except Exn (Response ⊕ List Assignment)}
    {reply : Record → DB → Except Exn Json}
    (h : Repeatable r prepare reply) {id : ℕ} {data : Json} {db db' : DB} (hv : Valid db)
    (htyped : Typed r.table data)
    (hgood : (run (updateHandler r.table missing prepare reply id (.json data)) db).1.Success)
    (hdb' : (run (updateHandler r.table missing prepare reply id (.json data)) db).2 = db') :
    (run (updateHandler r.table missing prepare reply id (.json data)) db').1.Success ∧
      (run (updateHandler r.table missing prepare reply id (.json data)) db').2 = db' := by
  rcases updateHandler_cases (fun _ _ _ hprep => h.refuses hprep)
    (fun _ _ _ _ _ _ hprep hops hall hfind => h.answers hprep hops hall hfind)
    (rfl : run (updateHandler r.table missing prepare reply id (.json data)) db = _) with
    ⟨hbad, -⟩ | ⟨-, row, _, assignments, ops, hid, hfind, hbody, hprep, hops, hall⟩
  · exact absurd hgood hbad
  cases hbody
  rw [hdb'] at hall
  have hassign := h.assigns hprep
  have hv' : Valid db' := applyAll_preserves _ applyOp_valid hv hall
  have hother : r = .learningRecord → db' .trainingCourseware = db .trainingCourseware := by
    rintro rfl
    exact (sameBut_updateOps hops hall).1 _ (by decide)
  obtain ⟨row', hfind', hstored⟩ : ∃ row', find (db' r.table) id = some row' ∧
      ∀ a ∈ assignments, Confirms r.table row' a := by
    refine ⟨assignCells row (updateValues r.table assignments), ?_, fun a ha => ?_⟩
    · rw [(updateOps_eq hops hall).1, find_setCells, hfind]
      rfl
    · exact stored_confirms (assignments_nodup hassign) hops hall row ha
        (assignments_columns hassign a ha)
  have hrow' := mem_of_find hfind'
  obtain ⟨again, hagain, hconfirms⟩ := assignments_again hv' hrow' htyped hother hassign hstored
  have hprep' := h.checks hv' hrow' htyped hprep hstored hagain
  obtain ⟨ops', hops', hall'⟩ := confirms_ops hv' hfind' hconfirms
  exact updateHandler_succeeds hid hfind' hprep' hops' hall' fun _ hrow =>
    h.answers hprep' hops' hall' hrow

/-- The update handlers that check nothing. -/
theorem plain_repeatable (r : Resource) (reply : Record → DB → Json) :
    Repeatable r (fun data row db => (r.assignments data row db).map .inr)
      (fun row db => .ok (reply row db)) where
  refuses h := absurd h map_inr_inl
  assigns h := map_inr_inr.mp h
  checks _ _ _ _ _ hagain := map_inr_inr.mpr hagain
  answers _ _ _ _ := ⟨_, rfl⟩

/-- The update handlers that look up one name. -/
theorem named_repeatable (r : Resource) (fields : List Field) (f : Field) (message : String)
    (reply : Record → DB → Json)
    (hassign : ∀ data row db, r.assignments data row db = .ok (fields.map (keep data row)))
    (hf : f ∈ fields)
    (hc : ∃ c ∈ r.table.columns, c.field = f ∧ c.type = .string ∧ c.nullable = false) :
    Repeatable r
      (fun data row db => refuseIf (takenByOther r.table f data row db) message
        (.ok (.inr (fields.map (keep data row)))))
      (fun row db => .ok (reply row db)) where
  refuses h := refuseIf_ok_inl h
  assigns {data row db assignments} h := by
    obtain ⟨-, h⟩ := refuseIf_inr.mp h
    rw [hassign, ← Sum.inr.inj (Except.ok.inj h)]
  checks {data row row' db db' assignments again} hv hrow htyped h hstored hagain := by
    obtain ⟨hfree, h⟩ := refuseIf_inr.mp h
    obtain rfl := Sum.inr.inj (Except.ok.inj h)
    rw [hassign] at hagain
    obtain rfl := Except.ok.inj hagain
    exact refuseIf_inr.mpr
      ⟨takenByOther_again hv hrow htyped hc hfree (hstored _ (List.mem_map_of_mem hf)), rfl⟩
  answers _ _ _ _ := ⟨_, rfl⟩

/-- The update handler of users looks up two names. -/
theorem user_repeatable (reply : Record → DB → Json) :
    Repeatable .user
      (fun data user db =>
        refuseIf (takenByOther .user .username data user db) "用户名已存在" <|
          refuseIf (takenByOther .user .email data user db) "邮箱已存在" <|
            .ok (.inr (userAssignments data user)))
      (fun row db => .ok (reply row db)) where
  refuses h := refuseIf_inl h refuseIf_ok_inl
  assigns {data row db assignments} h := by
    obtain ⟨-, h⟩ := refuseIf_inr.mp (refuseIf_inr.mp h).2
    exact congrArg Except.ok (Sum.inr.inj (Except.ok.inj h))
  checks {data row row' db db' assignments again} hv hrow htyped h hstored hagain := by
    obtain ⟨hname, h⟩ := refuseIf_inr.mp h
    obtain ⟨hemail, h⟩ := refuseIf_inr.mp h
    obtain rfl := Sum.inr.inj (Except.ok.inj h)
    obtain rfl := Except.ok.inj hagain
    simp only [userAssignments, List.forall_mem_cons] at hstored
    obtain ⟨husername, -, -, hmail, -⟩ := hstored
    refine refuseIf_inr.mpr ⟨?_, refuseIf_inr.mpr ⟨?_, rfl⟩⟩
    · exact takenByOther_again hv hrow htyped ⟨uniqueColumn .username, by decide, rfl, rfl,
        rfl⟩ hname husername
    · exact takenByOther_again hv hrow htyped ⟨uniqueColumn .email, by decide, rfl, rfl,
        rfl⟩ hemail hmail
  answers _ _ _ _ := ⟨_, rfl⟩

/-- The update handler of learning records answers with the times it stored. -/
theorem learning_repeatable :
    Repeatable .learningRecord (fun data _ db => (learningAssignments data db).map .inr)
      (fun record _ => renderLearningRecord dayText timeText record) where
  refuses h := absurd h map_inr_inl
  assigns h := map_inr_inr.mp h
  checks _ _ _ _ _ hagain := map_inr_inr.mpr hagain
  answers h hops hall hfind := learning_updated_reply (map_inr_inr.mp h) hops hall hfind

/-- **The update of a courseware again.** -/
theorem courseware_again (k k' : Clock) {id : ℕ} {data : Json} {db db' : DB} (hv : Valid db)
    (htyped : Typed .trainingCourseware data)
    (hgood : (run (updateTrainingCourseware k id (.json data)) db).1.Success)
    (hdb' : (run (updateTrainingCourseware k id (.json data)) db).2 = db') :
    (run (updateTrainingCourseware k' id (.json data)) db').1.Success ∧
      (run (updateTrainingCourseware k' id (.json data)) db').2 = db' := by
  have hvRun : Valid (handle k (.update .courseware id (.json data)) db).2 := handle_valid hv
  rcases updateTrainingCourseware_cases
    (rfl : run (updateTrainingCourseware k id (.json data)) db = _) with
    ⟨hbad, -⟩ | ⟨-, row, _, ops, w, hid, hfind, hbody, hops, hall, -⟩
  · exact absurd hgood hbad
  cases hbody
  rcases run_updateTrainingCourseware k hid hfind hops hall with ⟨e, -, hbad⟩ |
    ⟨db₁, hretarget, -, hdb₁⟩
  · exact absurd hgood hbad
  obtain rfl : db₁ = db' := hdb₁.symm.trans hdb'
  have hvRun : Valid db₁ := hdb' ▸ hvRun
  have hassign : Resource.courseware.assignments data row db =
      .ok (coursewareAssignments data row) :=
    rfl
  have htable : db₁ .trainingCourseware = w .trainingCourseware :=
    retarget_other hretarget (by decide)
  -- the attributes are stored, and confirmed by the second run
  obtain ⟨row', hfind', hstored⟩ : ∃ row', find (db₁ .trainingCourseware) id = some row' ∧
      ∀ a ∈ coursewareAssignments data row, Confirms .trainingCourseware row' a := by
    refine ⟨assignCells row (updateValues .trainingCourseware (coursewareAssignments data row)), ?_,
      fun a ha => ?_⟩
    · rw [htable, (updateOps_eq hops hall).1, find_setCells, hfind]
      rfl
    · exact stored_confirms (assignments_nodup hassign) hops hall row ha
        (assignments_columns hassign a ha)
  obtain ⟨again, hagain, hconfirms⟩ :=
    assignments_again (r := .courseware) hvRun (mem_of_find hfind') htyped
    (fun h => nomatch h) hassign hstored
  obtain rfl := Except.ok.inj hagain
  obtain ⟨ops', hops', hall'⟩ := confirms_ops hvRun hfind' hconfirms
  have hretarget' : retarget k' id data db₁ = .ok db₁ := by
    unfold retarget at hretarget ⊢
    split_ifs at hretarget ⊢ with hhas
    · obtain ⟨items, hitems, htargets⟩ := bind_eq_ok.mp hretarget
      rw [hitems]
      refine targetsAfter_again k' ?_ (rolesOf_allRoles id w) (fun r hr => nomatch hr) htargets
      have hrole : w .role = db .role := (sameBut_updateOps hops hall).1 _ (by decide)
      rw [hrole]
      exact hv.small .role
    · rfl
  rcases run_updateTrainingCourseware k' hid hfind' hops' hall' with ⟨e, herror, -⟩ |
    ⟨db₂, hdb₂, hgood', hrun⟩
  · rw [hretarget'] at herror
    cases herror
  · exact ⟨hgood', hrun.trans (Except.ok.inj (hdb₂.symm.trans hretarget'))⟩

/-- **The update again**, for every resource. -/
theorem update_again (k k' : Clock) (r : Resource) {id : ℕ} {data : Json} {db : DB} (hv : Valid db)
    (htyped : Typed r.table data) (hgood : (handle k (.update r id (.json data)) db).1.Success) :
    (handle k' (.update r id (.json data)) (handle k (.update r id (.json data)) db).2).1.Success ∧
      (handle k' (.update r id (.json data)) (handle k (.update r id (.json data)) db).2).2 =
        (handle k (.update r id (.json data)) db).2 := by
  cases r with
  | courseware => exact courseware_again k k' hv htyped hgood rfl
  | user => exact (user_repeatable _).again hv htyped hgood rfl
  | learningRecord => exact learning_repeatable.again hv htyped hgood rfl
  | standard =>
    exact (named_repeatable .standard standardFields .standardId "标准ID已存在"
      (fun row _ => object (.id :: standardFields) row) (fun _ _ _ => rfl) (by decide)
      ⟨uniqueColumn .standardId, by decide, rfl, rfl, rfl⟩).again hv htyped hgood rfl
  | evaluationType =>
    exact (named_repeatable .evaluationType typeFields .evaluationTypeId "评审类型ID已存在"
      (fun row _ => object (.id :: typeFields) row) (fun _ _ _ => rfl) (by decide)
      ⟨uniqueColumn .evaluationTypeId, by decide, rfl, rfl, rfl⟩).again hv htyped hgood rfl
  | menu => exact (plain_repeatable .menu _).again hv htyped hgood rfl
  | skin => exact (plain_repeatable .skin _).again hv htyped hgood rfl
  | clause => exact (plain_repeatable .clause _).again hv htyped hgood rfl
  | level => exact (plain_repeatable .level _).again hv htyped hgood rfl
  | project => exact (plain_repeatable .project _).again hv htyped hgood rfl
  | catalog => exact (plain_repeatable .catalog _).again hv htyped hgood rfl
  | vendorResearch => exact (plain_repeatable .vendorResearch _).again hv htyped hgood rfl
  | dictionary => exact (plain_repeatable .dictionary _).again hv htyped hgood rfl
  | template => exact (plain_repeatable .template _).again hv htyped hgood rfl
  | researchTask => exact (plain_repeatable .researchTask _).again hv htyped hgood rfl

/-! ## Permission lists -/

/-- No default of a permission is read from a clock. -/
theorem permissions_clock (k k' : Clock) (roleId : ℕ) (perms : List Json) :
    (∃ e, stagedOps (perms.map (newPermission k roleId)) = .error e ∧
      stagedOps (perms.map (newPermission k' roleId)) = .error e) ∨
    ∃ ops ops', stagedOps (perms.map (newPermission k roleId)) = .ok ops ∧
      stagedOps (perms.map (newPermission k' roleId)) = .ok ops' ∧
      ∀ db, applyAll applyOp ops' db = applyAll applyOp ops db := by
  induction perms with
  | nil => exact Or.inr ⟨[], [], rfl, rfl, fun _ => rfl⟩
  | cons perm perms ih =>
    cases hmenu : perm.item .menuId with
    | error e =>
      exact Or.inl ⟨e, by simp [newPermission, hmenu, stagedOps, bind, Except.bind],
        by simp [newPermission, hmenu, stagedOps, bind, Except.bind]⟩
    | ok menu =>
    cases haccess : perm.item .canAccess with
    | error e =>
      exact Or.inl ⟨e, by simp [newPermission, hmenu, haccess, stagedOps, bind, Except.bind],
        by simp [newPermission, hmenu, haccess, stagedOps, bind, Except.bind]⟩
    | ok access =>
    set attrs : List (Field × Attr) :=
      [(.roleId, .json (.int roleId)), (.menuId, .json menu),
        (.canAccess, .json access)] with hattrs
    have hnew : ∀ k, newPermission k roleId perm =
        .ok (some (.insert k .rolePermission attrs)) := by
      intro k
      simp only [newPermission, hmenu, haccess]
      rfl
    have hinitial : ∀ c ∈ Table.rolePermission.columns, c.initial k' attrs = c.initial k attrs := by
      intro c hc
      simp only [Table.columns, List.mem_cons, List.not_mem_nil, or_false] at hc
      rcases hc with rfl | rfl | rfl <;> rfl
    rcases ih with ⟨e, herror, herror'⟩ | ⟨ops, ops', hops, hops', hall⟩
    · exact Or.inl ⟨e, by simp [hnew, stagedOps, herror, Except.map],
        by simp [hnew, stagedOps, herror', Except.map]⟩
    · refine Or.inr ⟨_ :: ops, _ :: ops', by rw [List.map_cons, hnew, stagedOps, hops]; rfl,
        by rw [List.map_cons, hnew, stagedOps, hops']; rfl, fun db => ?_⟩
      rw [applyAll_cons, applyAll_cons]
      change (insertRow k' .rolePermission attrs db).bind _ =
        (insertRow k .rolePermission attrs db).bind _
      rw [insertRow_congr hinitial]
      exact congrArg _ (funext hall)

/-- The handler does not depend on the clocks. -/
theorem updateRolePermissions_clock (k k' : Clock) (roleId : ℕ) (body : Body) (db : DB) :
    run (updateRolePermissions k' roleId body) db =
      run (updateRolePermissions k roleId body) db := by
  have hstaged : ∀ (perms : List Json) (w : DB),
      ((stagedOps (perms.map (newPermission k' roleId))).bind fun ops => applyAll applyOp ops w) =
        (stagedOps (perms.map (newPermission k roleId))).bind fun ops =>
          applyAll applyOp ops w := by
    intro perms w
    rcases permissions_clock k k' roleId perms with ⟨e, herror, herror'⟩ |
      ⟨ops, ops', hops, hops', hall⟩
    · rw [herror, herror']
    · rw [hops, hops']
      exact hall w
  rw [run_updateRolePermissions, run_updateRolePermissions]
  simp only [hstaged]

/-- **A permission list posted again** gets the same answer and leaves the same database. -/
theorem updateRolePermissions_again (k k' : Clock) (roleId : ℕ) (body : Body) (db : DB) :
    run (updateRolePermissions k' roleId body) (run (updateRolePermissions k roleId body) db).2 =
      run (updateRolePermissions k roleId body) db := by
  rw [updateRolePermissions_clock k k']
  rcases updateRolePermissions_cases (rfl : run (updateRolePermissions k roleId body) db = _) with
    ⟨-, hsame⟩ | ⟨-, data, perms, ops, rfl, hiter, hops, hall⟩
  · rw [hsame]
  set db' := (run (updateRolePermissions k roleId (.json data)) db).2 with hdb'
  rw [applyAll_cons, bind_eq_ok] at hall
  obtain ⟨w, hdelete, hinsert⟩ := hall
  obtain ⟨hrange, rfl⟩ := deleteWhere_eq_ok.mp hdelete
  have hinserts := newPermission_inserts hops
  have hrun : ∀ db₁, removeWhere db₁ .rolePermission (fun r => r.cell .roleId == .int roleId) =
      removeWhere db .rolePermission (fun r => r.cell .roleId == .int roleId) →
      run (updateRolePermissions k roleId (.json data)) db₁ =
        ({ status := 200, body := done "权限更新成功" }, db') := by
    intro db₁ hremoved
    have hdelete₁ : applyOp (.deleteWhere .rolePermission .roleId roleId) db₁ = .ok
        (removeWhere db .rolePermission fun r => r.cell .roleId == .int roleId) :=
      deleteWhere_eq_ok.mpr ⟨hrange, hremoved.symm⟩
    simp only [run_updateRolePermissions, Body.getJson, Except.bind, hdelete₁, hiter, hops, hinsert]
  rw [hrun db rfl, hrun db']
  -- the rows the first run added are those the second one deletes
  rw [eq_map_insert fun o ho => (hinserts o ho).imp fun _ h => h.1] at hinsert
  obtain ⟨new, hnew, hbuilt, hother⟩ := insertAll_new hinsert
  have hcells : ∀ row ∈ new, row.cell .roleId = .int roleId := by
    intro row hrow
    obtain ⟨attrs, hattrs, hrow⟩ := exists_of_forall₂ hbuilt.flip row hrow
    obtain ⟨o, ho, rfl⟩ := List.mem_map.mp hattrs
    obtain ⟨attrs, rfl, hlookup⟩ := hinserts o ho
    exact bindJson_int (built_cell hrow (c := (required .roleId .integer).to .role) rfl hlookup rfl)
  have hgone : new.filter (fun row => !(row.cell .roleId == Value.int roleId)) = [] :=
    List.filter_eq_nil_iff.mpr fun row hrow => by simp [hcells row hrow]
  funext t
  by_cases ht : t = .rolePermission
  · subst ht
    simp only [removeWhere, Function.update_self] at hnew ⊢
    rw [hnew, List.filter_append, hgone, List.append_nil, List.filter_filter]
    exact List.filter_congr fun row _ => Bool.and_self _
  · have hother' := hother t ht
    rw [removeWhere_other _ _ ht] at hother'
    rw [removeWhere_other _ _ ht, removeWhere_other _ _ ht, hother']

/-! ## The result -/

/-- **The same update again.** An update request that succeeds, with values of the types of their
    columns, succeeds when it is sent again and leaves every table as it is. A permission list
    posted again leaves the database, and so the list of the role, as it is. -/
theorem updates_repeat (k k' : Clock) :
    (∀ (r : Resource) (id : ℕ) (data : Json) (db : DB), Valid db → Typed r.table data →
      (handle k (.update r id (.json data)) db).1.Success →
      let once := (handle k (.update r id (.json data)) db).2
      (handle k' (.update r id (.json data)) once).1.Success ∧
        (handle k' (.update r id (.json data)) once).2 = once) ∧
    ∀ (roleId : ℕ) (body : Body) (db : DB),
      let once := (handle k (.rolePermissions roleId body) db).2
      (handle k' (.rolePermissions roleId body) once).2 = once ∧
        getRolePermissions roleId (handle k' (.rolePermissions roleId body) once).2 =
          getRolePermissions roleId once := by
  constructor
  · intro r id data db hv htyped hgood
    exact update_again k k' r hv htyped hgood
  · intro roleId body db once
    have hagain : (handle k' (.rolePermissions roleId body) once).2 = once :=
      congrArg Prod.snd (updateRolePermissions_again k k' roleId body db)
    exact ⟨hagain, congrArg (getRolePermissions roleId) hagain⟩

/-- A user that renames itself. -/
theorem updates_repeat_user :
    let user : Json := .dict [(.username, .str "zhang"), (.password, .str "1"), (.name, .str "张"),
      (.email, .str "z@x.cn"), (.roleId, .int 1)]
    let renamed : Json := .dict [(.username, .str "li"), (.email, .str "z@x.cn"), (.roleId, .int 2)]
    let once := (handle .epoch (.update .user 1 (.json renamed))
      (afterRequests .epoch [.create .user (.json user)] fun _ => [])).2
    (handle .epoch (.update .user 1 (.json renamed)) once).1.Success ∧
      (handle .epoch (.update .user 1 (.json renamed)) once).2 = once := by
  intro user renamed once
  refine (updates_repeat .epoch .epoch).1 .user 1 renamed _
    (afterRequests_valid _ _ valid_empty) ?_ (by decide)
  intro c hc j hget
  simp only [Resource.table, Table.columns, List.mem_cons, List.not_mem_nil, or_false] at hc
  rcases hc with rfl | rfl | rfl | rfl | rfl <;> cases hget <;> trivial

end ProjectEvaluation.Backend
