import ProjectEvaluation.Backend.Reachable
import ProjectEvaluation.Properties.TaskLink

/-!
# Links by codes

A level names its type by the code of the type, and a clause names its standard by the
`standard_id` of the standard. No foreign key keeps these links valid, and the handlers of the
types and the standards do not look at them.

Results:
* `handle_other`: a request leaves a table that it is not about, if no foreign key is in it.
* `link_step_iff`: a request keeps a link iff it takes no code in use from its row.
* `codes_linked_iff`: the links are valid throughout a run iff they are at first and every
  request of the run is of this kind.
-/

namespace ProjectEvaluation.Backend

open Python Relational Transaction

/-! ## Tables without foreign keys -/

/-- The table whose rows an operation adds, changes or removes. -/
def Op.table : Op → Table
  | .insert _ t _ => t
  | .assign t _ _ _ => t
  | .delete t _ => t
  | .deleteWhere t _ _ => t
  | .setTargets _ _ _ => .trainingTargets

theorem applyOp_other {o : Op} {t : Table} {db db' : DB} (ht : ∀ ref ∈ foreignKeys, ref.table ≠ t)
    (ho : o.table ≠ t)
    (h : applyOp o db = .ok db') : db' t = db t := by
  cases o with
  | insert k t' attrs => exact insertRow_other h ho.symm
  | assign t' id f a =>
    rcases assign_cases h with ⟨-, rfl⟩ | ⟨c, v, -, -, -, rfl⟩
    · rfl
    · exact setCell_other db id f v ho.symm
  | delete t' id =>
    obtain ⟨-, rfl⟩ := deleteRow_eq_ok.mp h
    rw [erase_unreferring schema db t' id ht]
    refine List.filter_eq_self.mpr fun r _ => ?_
    exact decide_eq_true fun h => ho h.1.symm
  | deleteWhere t' f n =>
    obtain ⟨-, rfl⟩ := deleteWhere_eq_ok.mp h
    exact removeWhere_other db _ ho.symm
  | setTargets k courseware roles => exact setTargets_other h ho.symm

theorem applyAll_other {ops : List Op} {t : Table} {db db' : DB}
    (ht : ∀ ref ∈ foreignKeys, ref.table ≠ t)
    (hops : ∀ o ∈ ops, o.table ≠ t) (h : applyAll applyOp ops db = .ok db') : db' t = db t :=
  applyAll_preserves_mem (P := fun w : DB => w t = db t) applyOp
    (fun o ho _ _ hw happly => (applyOp_other ht (hops o ho) happly).trans hw) rfl h

theorem Resource.table_injective : Function.Injective Resource.table := by
  intro r r' h
  cases r <;> cases r' <;> first | rfl | cases h

/-- The operations that insert into a table are about it. -/
theorem insert_table {k : Clock} {t : Table} {ops : List Op}
    (h : ∀ o ∈ ops, ∃ attrs, o = .insert k t attrs) :
    ∀ o ∈ ops, o.table = t := by
  intro o ho
  obtain ⟨attrs, rfl⟩ := h o ho
  rfl

/-- **Other tables.** A request leaves the rows of a resource that it is not about, if no
    foreign key is in them. -/
theorem handle_other (k : Clock) (request : Request) (db : DB) {r : Resource}
    (hrefs : ∀ ref ∈ foreignKeys, ref.table ≠ r.table) (htables : r.table ∉ request.tables)
    (hdelete : ∀ id, request ≠ .delete r id) : (handle k request db).2 r.table = db r.table := by
  have htargets : r.table ≠ .trainingTargets := by
    intro h
    rw [h] at hrefs
    exact absurd hrefs (by decide)
  have hvendor : r.table ≠ .vendorResearch := by
    intro h
    rw [h] at hrefs
    exact absurd hrefs (by decide)
  cases request with
  | register body =>
    rcases register_cases (rfl : run (Backend.register k body) db = _) with ⟨-, hsame⟩ |
      ⟨-, _, _, -, -, hins⟩
    · exact congrFun hsame r.table
    · exact insertRow_other hins fun h => htables (h ▸ List.mem_singleton_self _)
  | rolePermissions roleId body =>
    rcases updateRolePermissions_cases (rfl : run (updateRolePermissions k roleId body) db = _) with
      ⟨-, hsame⟩ | ⟨-, _, _, ops, -, -, hops, hall⟩
    · exact congrFun hsame r.table
    · refine applyAll_other hrefs (fun o ho h => htables (h ▸ ?_)) hall
      rcases List.mem_cons.mp ho with rfl | ho
      · exact List.mem_singleton_self _
      · rw [insert_table (fun o ho => (newPermission_inserts hops o ho).imp fun _ h => h.1) o ho]
        exact List.mem_singleton_self _
  | create r' body =>
    rcases handle_create k r' body db with ⟨-, hsame⟩ | ⟨-, _, _, w, -, -, hins, hre, -⟩
    · exact congrFun hsame r.table
    · rw [hre.other htargets]
      exact insertRow_other hins fun h => htables (h ▸ r'.mem_tables)
  | update r' id body =>
    rcases handle_update k r' id body db with ⟨-, hsame⟩ |
      ⟨-, _, _, _, _, w, -, -, -, -, hops, hall, hre, -⟩
    · exact congrFun hsame r.table
    · rw [hre.other htargets]
      exact (sameBut_updateOps hops hall).1 r.table fun h => htables (h ▸ r'.mem_tables)
  | delete r' id =>
    rcases handle_delete k r' id db with ⟨-, hsame⟩ | ⟨-, row, others, -, hfind, hothers, hall⟩
    · exact congrFun hsame r.table
    · refine applyAll_other hrefs (fun o ho h => ?_) hall
      rw [deleteOps_eq] at ho
      obtain ⟨p, hp, rfl⟩ := List.mem_map.mp ho
      rcases List.mem_append.mp hp with hp | hp
      · exact hvendor (h.symm.trans (cascade_names hfind hothers p hp).1)
      · rw [List.mem_singleton.mp hp] at h
        exact hdelete id (by rw [Resource.table_injective h])
  | importDictionaries file =>
    rcases importSystemDictionaries_cases (rfl : run (importSystemDictionaries k file) db = _) with
      ⟨-, hsame⟩ | ⟨-, ops, ⟨upload, -, rows, -, rfl, -⟩, hall⟩
    · exact congrFun hsame r.table
    · refine applyAll_other hrefs (fun o ho h => htables (h ▸ ?_)) hall
      rw [insert_table (csvOps_inserts (fun _ _ => dictionaryRow_insert) rows) o ho]
      exact List.mem_singleton_self _
  | importTemplates file =>
    rcases importResearchTemplates_cases (rfl : run (importResearchTemplates k file) db = _) with
      ⟨-, hsame⟩ | ⟨-, ops, ⟨upload, -, himported⟩, hall⟩
    · exact congrFun hsame r.table
    · have hinserts : ∀ o ∈ ops, ∃ attrs, o = .insert k .researchTemplate attrs := by
        rcases himported with ⟨-, data, -, rfl, -⟩ | ⟨-, rows, -, rfl, -⟩
        · exact jsonOps_inserts k data
        · refine csvOps_inserts (fun row o h => ?_) rows
          obtain ⟨_, _, _, _, attrs, -, -, -, -, rfl, -⟩ := templateRow_insert h
          exact ⟨attrs, rfl⟩
      refine applyAll_other hrefs (fun o ho h => htables (h ▸ ?_)) hall
      rw [insert_table hinserts o ho]
      exact List.mem_singleton_self _

/-- **The deleted row.** A delete request takes its row from a table without foreign keys, and
    nothing else. -/
theorem handle_deleted {k : Clock} {r : Resource} {id : ℕ} {db : DB}
    (hrefs : ∀ ref ∈ foreignKeys, ref.table ≠ r.table)
    (hgood : (handle k (.delete r id) db).1.Success) :
    (handle k (.delete r id) db).2 r.table = (db r.table).filter fun q => ¬ q.id = id := by
  rcases handle_delete k r id db with ⟨hbad, -⟩ | ⟨-, row, others, -, -, hothers, hall⟩
  · exact absurd hgood hbad
  have hnone : others = [] := by
    cases r with
    | researchTask => exact absurd hrefs (by decide)
    | _ => exact (Except.ok.inj hothers).symm
  rw [hnone, deleteOps, List.map_nil, List.nil_append, applyAll_singleton] at hall
  obtain ⟨-, hdb'⟩ := deleteRow_eq_ok.mp hall
  rw [hdb', erase_unreferring schema db r.table id hrefs]
  simp

/-! ## The links -/

/-- A link: the rows of the child hold, under the same name, codes of the rows of the parent. -/
structure CodeLink where
  child : Resource
  parent : Resource
  field : Field

/-- The links by codes. -/
def codeLinks : List CodeLink :=
  [⟨.level, .evaluationType, .evaluationTypeId⟩, ⟨.clause, .standard, .standardId⟩]

/-- Every row of the child holds the code of a row of the parent. -/
def CodeLink.Holds (link : CodeLink) (db : DB) : Prop :=
  ∀ c ∈ db link.child.table, ∃ p ∈ db link.parent.table, p.cell link.field = c.cell link.field

instance (link : CodeLink) (db : DB) : Decidable (link.Holds db) := by
  unfold CodeLink.Holds; infer_instance

/-- Every level holds the code of a type, and every clause the `standard_id` of a standard. -/
def CodesLinked (db : DB) : Prop := ∀ link ∈ codeLinks, link.Holds db

instance (db : DB) : Decidable (CodesLinked db) := by unfold CodesLinked; infer_instance

/-- A request that creates a row of the child, or gives it a code, names a code of the parent. -/
def Request.Names (link : CodeLink) (db : DB) : Request → Prop
  | .create r (.json data) => r = link.child →
      ∃ p ∈ db link.parent.table, p.cell link.field = textValue (bodyValue data link.field)
  | .update r _ (.json data) => r = link.child → data.has link.field = true →
      ∃ p ∈ db link.parent.table, p.cell link.field = textValue (bodyValue data link.field)
  | _ => True

instance (link : CodeLink) (db : DB) : (request : Request) → Decidable (request.Names link db)
  | .create _ (.json _) => inferInstanceAs (Decidable (_ → ∃ p ∈ _, _))
  | .update _ _ (.json _) => inferInstanceAs (Decidable (_ → _ → ∃ p ∈ _, _))
  | .create _ .malformed | .update _ _ .malformed | .register _ | .rolePermissions _ _ | .delete _ _
  | .importDictionaries _ | .importTemplates _ => isTrue trivial

/-- A request takes the code of a row of the parent out of use: it deletes the row, or gives it
    another code. -/
def Request.Retires (link : CodeLink) (p : Record) : Request → Prop
  | .update r id (.json data) => r = link.parent ∧ id = p.id ∧ data.has link.field = true ∧
      textValue (bodyValue data link.field) ≠ p.cell link.field
  | .delete r id => r = link.parent ∧ id = p.id
  | _ => False

instance (link : CodeLink) (p : Record) : (request : Request) → Decidable (request.Retires link p)
  | .update _ _ (.json _) => inferInstanceAs (Decidable (_ ∧ _ ∧ _ ∧ _))
  | .delete _ _ => inferInstanceAs (Decidable (_ ∧ _))
  | .create _ _ | .update _ _ .malformed | .register _ | .rolePermissions _ _ |
      .importDictionaries _
  | .importTemplates _ => isFalse id

/-- The codes a request takes out of use are held by no row of the child. -/
def Request.RetiresUnused (link : CodeLink) (db : DB) (request : Request) : Prop :=
  ∀ p ∈ db link.parent.table, request.Retires link p →
    ∀ c ∈ db link.child.table, c.cell link.field ≠ p.cell link.field

instance (link : CodeLink) (db : DB) (request : Request) :
    Decidable (request.RetiresUnused link db) := by
  unfold Request.RetiresUnused; infer_instance

/-! ## The columns of the codes -/

/-- A column that the handlers of a resource without foreign keys fill from the body. -/
structure BodyColumn (r : Resource) (f : Field) (c : Column) : Prop where
  column : r.table.column f = some c
  default : c.default = none
  created : ∀ k data db attrs,
    r.attrs k data db = .ok attrs → attrs.lookup f = some (.json (bodyValue data f))
  updated : ∀ data row db assignments, r.assignments data row db = .ok assignments →
    keep data row f ∈ assignments
  unreferring : ∀ ref ∈ foreignKeys, ref.table ≠ r.table
  plain : r ≠ .courseware

/-- A text column of this kind, in a table that the other handlers do not write. -/
structure CodeColumn (r : Resource) (f : Field) : Prop where
  column : ∃ c, r.table.column f = some c ∧ c.type = .string ∧ c.default = none ∧ c.nullable = false
  created : ∀ k data db attrs,
    r.attrs k data db = .ok attrs → attrs.lookup f = some (.json (bodyValue data f))
  updated : ∀ data row db assignments, r.assignments data row db = .ok assignments →
    keep data row f ∈ assignments
  unreferring : ∀ ref ∈ foreignKeys, ref.table ≠ r.table
  plain : r ≠ .courseware
  alone : r.table ∉ [Table.user, .rolePermission, .systemDictionary, .researchTemplate]

theorem codeColumn_type : CodeColumn .evaluationType .evaluationTypeId where
  column := ⟨_, rfl, rfl, rfl, rfl⟩
  created _ _ _ _ h := construct_key h rfl
  updated _ _ _ _ h := Except.ok.inj h ▸ List.mem_cons_self
  unreferring := by decide
  plain := by decide
  alone := by decide

theorem codeColumn_level : CodeColumn .level .evaluationTypeId where
  column := ⟨_, rfl, rfl, rfl, rfl⟩
  created _ _ _ _ h := construct_key h rfl
  updated _ _ _ _ h := Except.ok.inj h ▸ List.mem_cons_self
  unreferring := by decide
  plain := by decide
  alone := by decide

theorem codeColumn_standard : CodeColumn .standard .standardId where
  column := ⟨_, rfl, rfl, rfl, rfl⟩
  created _ _ _ _ h := construct_key h rfl
  updated _ _ _ _ h := Except.ok.inj h ▸ List.mem_cons_self
  unreferring := by decide
  plain := by decide
  alone := by decide

theorem codeColumn_clause : CodeColumn .clause .standardId where
  column := ⟨_, rfl, rfl, rfl, rfl⟩
  created _ _ _ _ h := construct_key h rfl
  updated _ _ _ _ h := Except.ok.inj h ▸ List.mem_cons_self
  unreferring := by decide
  plain := by decide
  alone := by decide

/-! ## One request -/

/-- The resource whose rows a request creates, updates or deletes. -/
def Request.resource : Request → Option Resource
  | .create r _ => some r
  | .update r _ _ => some r
  | .delete r _ => some r
  | _ => none

section Columns

variable {k : Clock} {r : Resource} {f : Field} {c : Column} {request : Request} {db : DB}

/-- A create request adds a row with the value of the body. -/
theorem BodyColumn.adds (h : BodyColumn r f c) {body : Body}
    (hgood : (handle k (.create r body) db).1.Success) :
    ∃ data row, body = .json data ∧
      row.cell f = (bindJson c.type (bodyValue data f)).toOption.getD .null ∧
      (handle k (.create r body) db).2 r.table = db r.table ++ [row] := by
  obtain rfl := Table.column_field h.column
  rcases handle_create k r body db with ⟨hbad, -⟩ | ⟨-, hcreated⟩
  · exact absurd hgood hbad
  · obtain ⟨data, row, hbody, -, hcell, hrows, -⟩ :=
      created_value hcreated h.plain (Table.mem_of_column h.column)
      h.default fun data attrs => h.created k data db attrs
    exact ⟨data, row, hbody, hcell, hrows⟩

/-- An update request changes the column of its row where the body has a value for it. -/
theorem BodyColumn.changes (h : BodyColumn r f c) {id : ℕ} {body : Body}
    (hgood : (handle k (.update r id body) db).1.Success) :
    ∃ data row, body = .json data ∧ row ∈ db r.table ∧ row.id = id ∧
      ∃ g : Record → Record, (∀ q, q.id ≠ id → g q = q) ∧
        (g row).cell f =
          (if data.has f then (bindJson c.type (bodyValue data f)).toOption.getD .null
            else row.cell f) ∧
        (handle k (.update r id body) db).2 r.table = (db r.table).map g := by
  rcases handle_update k r id body db with ⟨hbad, -⟩ | ⟨-, hupdated⟩
  · exact absurd hgood hbad
  · obtain ⟨data, row, hbody, hrow, hid, ⟨g, -, hne, hcell, hrows⟩, -⟩ :=
      updated_value hupdated h.plain h.column
      fun data row => h.updated data row db
    exact ⟨data, row, hbody, hrow, hid, g, hne, hcell, hrows⟩

/-- **A property of the cells of a column** is kept by a request that sends only values with the
    property. -/
theorem BodyColumn.keeps (h : BodyColumn r f c) (hv : Valid db) {P : Value → Prop}
    (hcells : ∀ row ∈ db r.table, P (row.cell f)) (hgood : (handle k request db).1.Success)
    (hresource : request.resource = some r)
    (hcreate : ∀ data, request = .create r (.json data) →
      P ((bindJson c.type (bodyValue data f)).toOption.getD .null))
    (hupdate : ∀ id data, request = .update r id (.json data) → data.has f = true →
      P ((bindJson c.type (bodyValue data f)).toOption.getD .null)) :
    ∀ row ∈ (handle k request db).2 r.table, P (row.cell f) := by
  cases request with
  | create r' body =>
    obtain rfl := Option.some.inj hresource
    obtain ⟨data, row, rfl, hcell, hrows⟩ := h.adds hgood
    rw [hrows]
    intro q hq
    rcases List.mem_append.mp hq with hq | hq
    · exact hcells q hq
    · rw [List.mem_singleton.mp hq, hcell]
      exact hcreate data rfl
  | update r' id body =>
    obtain rfl := Option.some.inj hresource
    obtain ⟨data, row, rfl, hrow, rfl, g, hne, hcell, hrows⟩ := h.changes hgood
    rw [hrows]
    intro q' hq'
    obtain ⟨q, hq, rfl⟩ := List.mem_map.mp hq'
    by_cases hid : q.id = row.id
    · obtain rfl := List.inj_on_of_nodup_map (hv.keys _) hq hrow hid
      rw [hcell]
      split_ifs with hhas
      · exact hupdate q.id data rfl hhas
      · exact hcells q hq
    · rw [hne q hid]
      exact hcells q hq
  | delete r' id =>
    obtain rfl := Option.some.inj hresource
    rw [handle_deleted h.unreferring hgood]
    exact fun q hq => hcells q (List.mem_filter.mp hq).1
  | _ => cases hresource

theorem CodeColumn.bodyColumn (h : CodeColumn r f) : ∃ c, BodyColumn r f c ∧ c.type = .string := by
  obtain ⟨c, hc, hty, hdefault, -⟩ := h.column
  exact ⟨c, ⟨hc, hdefault, h.created, h.updated, h.unreferring, h.plain⟩, hty⟩

/-- A create request adds a row with the code of the body. -/
theorem CodeColumn.adds (h : CodeColumn r f) {body : Body}
    (hgood : (handle k (.create r body) db).1.Success) :
    ∃ data row, body = .json data ∧ row.cell f = textValue (bodyValue data f) ∧
      (handle k (.create r body) db).2 r.table = db r.table ++ [row] := by
  obtain ⟨c, hc, hty⟩ := h.bodyColumn
  have hadds := hc.adds hgood
  rwa [hty] at hadds

/-- An update request changes the code of its row where the body has one. -/
theorem CodeColumn.changes (h : CodeColumn r f) {id : ℕ} {body : Body}
    (hgood : (handle k (.update r id body) db).1.Success) :
    ∃ data row, body = .json data ∧ row ∈ db r.table ∧ row.id = id ∧
      ∃ g : Record → Record, (∀ q, q.id ≠ id → g q = q) ∧
        (g row).cell f = (if data.has f then textValue (bodyValue data f) else row.cell f) ∧
        (handle k (.update r id body) db).2 r.table = (db r.table).map g := by
  obtain ⟨c, hc, hty⟩ := h.bodyColumn
  have hchanges := hc.changes hgood
  rwa [hty] at hchanges

/-- A request for another resource leaves the rows. -/
theorem CodeColumn.other (h : CodeColumn r f) (k : Clock) (request : Request) (db : DB)
    (hother : request.resource ≠ some r) : (handle k request db).2 r.table = db r.table := by
  have hown : ∀ r' : Resource, r.table ∈ r'.tables → r' = r := by
    intro r' hr'
    have hrefs := h.unreferring
    unfold Resource.tables at hr'
    split_ifs at hr' with hcourseware
    · rcases List.mem_pair.mp hr' with ht | ht <;> rw [ht] at hrefs <;>
        exact absurd hrefs (by decide)
    · exact (Resource.table_injective (List.mem_singleton.mp hr')).symm
  have halone : ∀ t ∈ [Table.user, .rolePermission, .systemDictionary, .researchTemplate],
      r.table ∉ [t] :=
    fun t ht hmem => h.alone (List.mem_singleton.mp hmem ▸ ht)
  refine handle_other k request db h.unreferring (fun hmem => ?_) fun id heq =>
    hother (by rw [heq]; rfl)
  cases request with
  | register body => exact halone .user (by decide) hmem
  | rolePermissions roleId body => exact halone .rolePermission (by decide) hmem
  | create r' body => exact hother (congrArg some (hown r' hmem))
  | update r' id body => exact hother (congrArg some (hown r' hmem))
  | delete r' id => cases hmem
  | importDictionaries file => exact halone .systemDictionary (by decide) hmem
  | importTemplates file => exact halone .researchTemplate (by decide) hmem

end Columns

/-- What the links have in common: the codes of the parent are unique. -/
structure CodeLink.Sound (link : CodeLink) : Prop where
  child : CodeColumn link.child link.field
  parent : CodeColumn link.parent link.field
  distinct : link.child ≠ link.parent
  unique : ∃ c, link.parent.table.column link.field = some c ∧ c.unique = true ∧ c.nullable = false

theorem codeLinks_sound : ∀ link ∈ codeLinks, link.Sound := by
  intro link hlink
  rcases List.mem_pair.mp hlink with rfl | rfl
  · exact ⟨codeColumn_level, codeColumn_type, by decide, _, rfl, rfl, rfl⟩
  · exact ⟨codeColumn_clause, codeColumn_standard, by decide, _, rfl, rfl, rfl⟩

section Links

variable {link : CodeLink} {k : Clock} {request : Request} {db : DB}

/-- Rows of the parent with one code are one row. -/
theorem CodeLink.Sound.same (h : link.Sound) (hv : Valid db) {p q : Record}
    (hp : p ∈ db link.parent.table)
    (hq : q ∈ db link.parent.table) (heq : p.cell link.field = q.cell link.field) : p = q := by
  obtain ⟨c, hc, hunique, hnull⟩ := h.unique
  have hmem := Table.mem_of_column hc
  have hfield := Table.column_field hc
  have hne := hv.notNull _ c hmem hnull p hp
  rw [← hfield] at heq
  exact List.inj_on_of_nodup_map (hv.keys _) hp hq (hv.unique _ c hmem hunique p hp q hq hne heq)

theorem Request.resource_of_retires {p : Record} (h : request.Retires link p) :
    request.resource = some link.parent := by
  cases request with
  | update r id body =>
    cases body with
    | malformed => cases h
    | json data => rw [← h.1]; rfl
  | delete r id => rw [← h.1]; rfl
  | _ => cases h

/-- A request for the child that names codes of the parent keeps the link. -/
theorem child_step (h : link.Sound) (hv : Valid db) (hholds : link.Holds db)
    (hgood : (handle k request db).1.Success)
    (hnames : request.Names link db) (hresource : request.resource = some link.child) :
    link.Holds (handle k request db).2 := by
  have hparent : (handle k request db).2 link.parent.table = db link.parent.table :=
    h.parent.other k request db fun heq => h.distinct (Option.some.inj (hresource.symm.trans heq))
  unfold CodeLink.Holds
  rw [hparent]
  obtain ⟨c, hc, hty⟩ := h.child.bodyColumn
  refine hc.keeps hv (P := fun v => ∃ p ∈ db link.parent.table, p.cell link.field = v) hholds hgood
    hresource ?_ ?_
  · rintro data rfl
    rw [hty]
    exact hnames rfl
  · rintro id data rfl hhas
    rw [hty]
    exact hnames rfl hhas

/-- A request for the parent keeps the link iff the codes it takes out of use are not used. -/
theorem parent_step (h : link.Sound) (hv : Valid db) (hholds : link.Holds db)
    (hgood : (handle k request db).1.Success) (hresource : request.resource = some link.parent) :
    link.Holds (handle k request db).2 ↔ request.RetiresUnused link db := by
  have hchild : (handle k request db).2 link.child.table = db link.child.table :=
    h.child.other k request db fun heq => h.distinct (Option.some.inj (heq.symm.trans hresource))
  unfold CodeLink.Holds
  rw [hchild]
  cases request with
  | create r body =>
    obtain rfl := Option.some.inj hresource
    obtain ⟨data, row, rfl, -, hrows⟩ := h.parent.adds hgood
    rw [hrows]
    refine iff_of_true (fun c hc => ?_) (fun p _ hretires => nomatch hretires)
    obtain ⟨p, hp, hcode⟩ := hholds c hc
    exact ⟨p, List.mem_append_left _ hp, hcode⟩
  | update r id body =>
    obtain rfl := Option.some.inj hresource
    obtain ⟨data, row, rfl, hrow, rfl, g, hne, hcell, hrows⟩ := h.parent.changes hgood
    rw [hrows]
    constructor
    · rintro hkept p hp ⟨-, hid, hhas, hnew⟩ c hc heq
      obtain rfl := List.inj_on_of_nodup_map (hv.keys _) hrow hp hid
      obtain ⟨q', hq', hcode⟩ := hkept c hc
      obtain ⟨q, hq, rfl⟩ := List.mem_map.mp hq'
      by_cases hid : q.id = row.id
      · obtain rfl := List.inj_on_of_nodup_map (hv.keys _) hq hrow hid
        rw [hcell, if_pos hhas] at hcode
        exact hnew (hcode.trans heq)
      · rw [hne q hid] at hcode
        exact hid (congrArg Row.id (h.same hv hq hrow (hcode.trans heq)))
    · intro hunused c hc
      obtain ⟨p, hp, hcode⟩ := hholds c hc
      refine ⟨g p, List.mem_map_of_mem hp, ?_⟩
      by_cases hid : p.id = row.id
      · obtain rfl := List.inj_on_of_nodup_map (hv.keys _) hp hrow hid
        rw [hcell]
        split_ifs with hhas
        · by_contra hnew
          exact hunused p hp ⟨rfl, rfl, hhas, fun heq => hnew (heq.trans hcode)⟩ c hc hcode.symm
        · exact hcode
      · rw [hne p hid]
        exact hcode
  | delete r id =>
    obtain rfl := Option.some.inj hresource
    rw [handle_deleted h.parent.unreferring hgood]
    constructor
    · rintro hkept p hp ⟨-, rfl⟩ c hc heq
      obtain ⟨q, hq, hcode⟩ := hkept c hc
      obtain ⟨hq, hqid⟩ := List.mem_filter.mp hq
      have hsame := h.same hv hq hp (hcode.trans heq)
      rw [hsame] at hqid
      simp at hqid
    · intro hunused c hc
      obtain ⟨p, hp, hcode⟩ := hholds c hc
      refine ⟨p, List.mem_filter.mpr ⟨hp, decide_eq_true fun hid => ?_⟩, hcode⟩
      exact hunused p hp ⟨rfl, hid.symm⟩ c hc hcode.symm
  | _ => cases hresource

/-- **One request** that is carried out keeps a link iff the codes it takes out of use are not
    used. -/
theorem link_step_iff (h : link.Sound) (hv : Valid db) (hholds : link.Holds db)
    (hgood : (handle k request db).1.Success) (hnames : request.Names link db) :
    link.Holds (handle k request db).2 ↔ request.RetiresUnused link db := by
  by_cases hparent : request.resource = some link.parent
  · exact parent_step h hv hholds hgood hparent
  have hunused : request.RetiresUnused link db := fun p _ hretires =>
    absurd (Request.resource_of_retires hretires) hparent
  refine iff_of_true ?_ hunused
  by_cases hchild : request.resource = some link.child
  · exact child_step h hv hholds hgood hnames hchild
  · unfold CodeLink.Holds
    rw [h.parent.other k request db hparent, h.child.other k request db hchild]
    exact hholds

end Links

/-! ## Runs -/

/-- A property of every state of a run. -/
def Throughout (P : DB → Prop) : DB → List (Clock × Request) → Prop
  | db, [] => P db
  | db, (k, request) :: run => P db ∧ Throughout P (handle k request db).2 run

theorem Throughout.first {P : DB → Prop} {db : DB} {run : List (Clock × Request)}
    (h : Throughout P db run) : P db := by
  cases run with
  | nil => exact h
  | cons step run => exact h.1

/-- The requests that give a code to a level or to a clause name one that exists at that moment. -/
def AllNameCodes : DB → List (Clock × Request) → Prop :=
  Along id fun db request => ∀ link ∈ codeLinks, request.Names link db

/-- The requests take no code out of use that a level or a clause holds. -/
def AllRetireUnused : DB → List (Clock × Request) → Prop :=
  Along id fun db request => ∀ link ∈ codeLinks, request.RetiresUnused link db

/-- **Codes stay linked.** In a run whose levels and clauses are given existing codes, every
    level holds the code of a type and every clause the `standard_id` of a standard in every
    state, iff they do at first and no request that is carried out deletes or renames a code
    that is held. -/
theorem codes_linked_iff (db : DB) (hv : Valid db) (run : List (Clock × Request))
    (hnames : AllNameCodes db run) :
    Throughout CodesLinked db run ↔ CodesLinked db ∧ AllRetireUnused db run := by
  induction run generalizing db with
  | nil => exact (and_iff_left trivial).symm
  | cons step run ih =>
    obtain ⟨k, request⟩ := step
    obtain ⟨hname, hnames⟩ := hnames
    have hrest := ih (handle k request db).2 (handle_valid hv) hnames
    show CodesLinked db ∧ Throughout CodesLinked (handle k request db).2 run ↔
      CodesLinked db ∧ ((handle k request db).1.Success → ∀ link ∈ codeLinks,
        request.RetiresUnused link db) ∧
        AllRetireUnused (handle k request db).2 run
    refine and_congr_right fun hlinked => ?_
    have hstep : CodesLinked (handle k request db).2 ↔
        ((handle k request db).1.Success → ∀ link ∈ codeLinks, request.RetiresUnused link db) := by
      rcases handle_cases k request db with ⟨hbad, hsame⟩ | ⟨hgood, -⟩
      · rw [hsame]
        exact iff_of_true hlinked fun h => absurd h hbad
      · have hlink : ∀ link ∈ codeLinks, link.Holds (handle k request db).2 ↔
            request.RetiresUnused link db :=
          fun link hmem =>
            link_step_iff (codeLinks_sound link hmem) hv (hlinked link hmem) hgood
              (hname hgood link hmem)
        exact (forall₂_congr hlink).trans ⟨fun h _ => h, fun h => h hgood⟩
    rw [hrest, hstep]

/-- A type. -/
def typeOne : Request := .create .evaluationType (.json (.dict
  [(.evaluationTypeId, .str "T1"), (.evaluationType, .str "电子病历")]))

/-- A level of the type. -/
def levelOne : Request := .create .level (.json (.dict
  [(.evaluationTypeId, .str "T1"), (.evaluationLevel, .str "五级")]))

/-- The type gets another code. -/
def renameType : Request :=
  .update .evaluationType 1 (.json (.dict [(.evaluationTypeId, .str "T2")]))

/-- A type and a level of it are created, the level is deleted, and then the type. -/
theorem codes_linked_iff_deleted :
    Throughout CodesLinked (fun _ => [])
      [(.epoch, typeOne), (.epoch, levelOne), (.epoch, .delete .level 1),
        (.epoch, .delete .evaluationType 1)] := by
  have hnames : AllNameCodes (fun _ => [])
      [(.epoch, typeOne), (.epoch, levelOne), (.epoch, .delete .level 1),
        (.epoch, .delete .evaluationType 1)] :=
    ⟨by decide +kernel, by decide +kernel, by decide +kernel, by decide +kernel, trivial⟩
  have hunused : AllRetireUnused (fun _ => [])
      [(.epoch, typeOne), (.epoch, levelOne), (.epoch, .delete .level 1),
        (.epoch, .delete .evaluationType 1)] :=
    ⟨by decide +kernel, by decide +kernel, by decide +kernel, by decide +kernel, trivial⟩
  exact (codes_linked_iff (fun _ => []) valid_empty _ hnames).mpr ⟨by decide, hunused⟩

/-- A type that gets another code leaves its level behind. -/
theorem renamed_type_codes_break :
    AllNameCodes (fun _ => []) [(.epoch, typeOne), (.epoch, levelOne), (.epoch, renameType)] ∧
      (handle .epoch renameType (afterRequests .epoch [typeOne, levelOne] fun _ => [])).1.Success ∧
      ¬ Throughout CodesLinked (fun _ => []) [(.epoch, typeOne), (.epoch, levelOne),
        (.epoch, renameType)] := by
  refine ⟨⟨by decide +kernel, by decide +kernel, by decide +kernel, trivial⟩, by decide +kernel, ?_⟩
  rintro ⟨-, -, -, hlinked⟩
  revert hlinked
  show ¬ CodesLinked _
  decide +kernel

end ProjectEvaluation.Backend
