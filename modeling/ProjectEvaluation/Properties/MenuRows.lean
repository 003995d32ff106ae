import ProjectEvaluation.Lib.UndoLog
import ProjectEvaluation.Properties.MenuTree
import ProjectEvaluation.Properties.StoredRows

/-!
# The menus as linked nodes

Each row of the menus is a node with the id of its parent.

Results:
* `insert_nodes`, `setCells_nodes`, `erase_nodes`: what the operations of the session do to
  the nodes.
* `menu_put_back`, `menu_created_again`: a menu whose members are sent back is stored as it was.
-/

namespace ProjectEvaluation.Backend

open Python Relational Transaction UndoLog

/-! ## Nodes -/

/-- The id in a cell. -/
def parentOf : Value → Option ℕ
  | .int n => if 0 ≤ n then some n.toNat else none
  | _ => none

/-- The cell with an id, or NULL. -/
def parentCell (parent : Option ℕ) : Value := parent.elim .null fun p => .int p

@[simp] theorem parentOf_parentCell (parent : Option ℕ) :
    parentOf (parentCell parent) = parent := by
  cases parent with
  | none => rfl
  | some p =>
    show (if (0 : ℤ) ≤ p then some (p : ℤ).toNat else none) = some p
    rw [if_pos (by omega), Int.toNat_natCast]

theorem parentOf_eq_some {v : Value} {p : ℕ} : parentOf v = some p ↔ v = .int p := by
  constructor
  · intro h
    cases v with
    | int n =>
      have h : (if 0 ≤ n then some n.toNat else none) = some p := h
      split_ifs at h
      have hp : n.toNat = p := Option.some.inj h
      exact congrArg Value.int (by omega)
    | _ => cases h
  · rintro rfl
    exact parentOf_parentCell (some p)

/-- The columns of a menu apart from its parent. -/
def menuColumns : List Field := [.name, .path, .icon, .order, .visible]

/-- A menu as a node. -/
def menuNode (menu : Record) : Node (List Value) where
  id := menu.id
  parent := parentOf (menu.cell .parentId)
  data := menuColumns.map menu.cell

/-- The menus of a database as nodes. -/
def menuNodes (db : DB) : Set (Node (List Value)) := {x | ∃ menu ∈ db .menu, menuNode menu = x}

theorem mem_menuNodes {db : DB} {menu : Record} (h : menu ∈ db .menu) :
    menuNode menu ∈ menuNodes db :=
  ⟨menu, h, rfl⟩

theorem mem_menuIds {db : DB} {id : ℕ} : id ∈ ids (menuNodes db) ↔ ∃ menu ∈ db .menu,
    menu.id = id := by
  constructor
  · rintro ⟨_, ⟨menu, hmenu, rfl⟩, rfl⟩
    exact ⟨menu, hmenu, rfl⟩
  · rintro ⟨menu, hmenu, rfl⟩
    exact mem_ids (mem_menuNodes hmenu)

/-- The cell for the parent is an id or NULL. -/
def PlainParent (menu : Record) : Prop := menu.cell .parentId = parentCell (menuNode menu).parent

theorem plainParent_of {menu : Record} {parent : Option ℕ}
    (h : menu.cell .parentId = parentCell parent) :
    PlainParent menu ∧ (menuNode menu).parent = parent := by
  have hparent : (menuNode menu).parent = parent := by
    rw [menuNode, h, parentOf_parentCell]
  refine ⟨?_, hparent⟩
  rw [PlainParent, hparent]
  exact h

/-- Menus with the same columns are the same nodes. -/
theorem menuNode_congr {menu menu' : Record} (hid : menu'.id = menu.id)
    (hcells : ∀ f ∈ menuFields, menu'.cell f = menu.cell f) : menuNode menu' = menuNode menu := by
  refine Node.ext hid ?_ (List.map_congr_left fun f hf => hcells f ?_)
  · rw [menuNode, menuNode, hcells .parentId (by decide)]
  · revert hf
    revert f
    decide

/-- The parents of the menus exist, and so do the menus of the permissions. -/
structure MenusIntact (db : DB) : Prop where
  parents : ∀ menu ∈ db .menu, menu.cell .parentId = .null ∨ ∃ p ∈ db .menu,
    menu.cell .parentId = .int p.id
  permissions : ∀ q ∈ db .rolePermission, ∃ p ∈ db .menu, q.cell .menuId = .int p.id

theorem MenusIntact.plain {db : DB} (h : MenusIntact db) {menu : Record} (hmenu : menu ∈ db .menu) :
    PlainParent menu := by
  rcases h.parents menu hmenu with hcell | ⟨p, -, hcell⟩
  · exact (plainParent_of (show _ = parentCell none from hcell)).1
  · exact (plainParent_of (show _ = parentCell (some p.id) from hcell)).1

theorem MenusIntact.linked {db : DB} (h : MenusIntact db) (hkeys : UniqueKeys db) :
    UndoLog.Linked (menuNodes db) where
  unique := by
    rintro _ ⟨menu, hmenu, rfl⟩ _ ⟨menu', hmenu', rfl⟩ hid
    rw [List.inj_on_of_nodup_map (hkeys .menu) hmenu hmenu' hid]
  closed := by
    rintro _ ⟨menu, hmenu, rfl⟩ p hp
    have hcell : menu.cell .parentId = .int p := parentOf_eq_some.mp hp
    rcases h.parents menu hmenu with hnull | ⟨q, hq, hcell'⟩
    · cases hnull.symm.trans hcell
    · have hid : (q.id : ℤ) = p := Value.int.inj (hcell'.symm.trans hcell)
      exact mem_menuIds.mpr ⟨q, hq, by omega⟩

/-! ## Operations -/

theorem insert_nodes (db : DB) (menu : Record) :
    menuNodes (insert db .menu menu) = Insert.insert (menuNode menu) (menuNodes db) := by
  ext x
  constructor
  · rintro ⟨q, hq, rfl⟩
    rcases mem_insert.mp hq with hq | ⟨-, rfl⟩
    · exact Or.inr (mem_menuNodes hq)
    · exact Or.inl rfl
  · rintro (rfl | ⟨q, hq, rfl⟩)
    · exact mem_menuNodes (mem_insert.mpr (Or.inr ⟨rfl, rfl⟩))
    · exact mem_menuNodes (mem_insert.mpr (Or.inl hq))

theorem setCells_nodes {db : DB} (hkeys : UniqueKeys db) {id : ℕ} {menu : Record}
    (hfind : find (db .menu) id = some menu)
    (values : List (Field × Value)) :
    menuNodes (setCells db .menu id values) =
      replace (menuNode (assignCells menu values)) (menuNodes db) := by
  obtain rfl := find_id hfind
  have honly : ∀ r ∈ db .menu, r.id = menu.id → r = menu := fun r hr hid =>
    List.inj_on_of_nodup_map (hkeys .menu) hr (mem_of_find hfind) hid
  ext x
  constructor
  · rintro ⟨_, hq, rfl⟩
    obtain ⟨r, hr, rfl⟩ := mem_setCells.mp hq
    by_cases hid : r.id = menu.id
    · rw [if_pos hid, honly r hr hid]
      exact Or.inl rfl
    · rw [if_neg hid]
      exact Or.inr ⟨mem_menuNodes hr, hid⟩
  · rintro (rfl | ⟨⟨r, hr, rfl⟩, hid⟩)
    · exact ⟨_, mem_setCells.mpr ⟨menu, mem_of_find hfind, (if_pos rfl).symm⟩, rfl⟩
    · exact ⟨r, mem_setCells.mpr ⟨r, hr, (if_neg hid).symm⟩, rfl⟩

/-- A menu without a parent that goes. -/
theorem menuNode_detach (id : ℕ) (menu : Record) :
    menuNode (detach schema .menu id .menu menu) = (menuNode menu).unlink id := by
  have hcell : ∀ f, (detach schema .menu id .menu menu).cell f =
      if f = .parentId ∧ menu.cell .parentId = .int id then .null else menu.cell f := by
    intro f
    show (if Nullified schema .menu id .menu menu f then Value.null else menu.cell f) = _
    simp only [nullified_menu]
  refine Node.ext rfl ?_ (List.map_congr_left fun f hf => ?_)
  · show parentOf ((detach schema .menu id .menu menu).cell .parentId) =
      if parentOf (menu.cell .parentId) = some id then none else parentOf (menu.cell .parentId)
    rw [hcell]
    by_cases hparent : menu.cell .parentId = .int id
    · rw [if_pos ⟨rfl, hparent⟩, if_pos (parentOf_eq_some.mpr hparent)]
      rfl
    · rw [if_neg fun h => hparent h.2, if_neg fun h => hparent (parentOf_eq_some.mp h)]
  · rw [hcell, if_neg]
    rintro ⟨rfl, -⟩
    exact absurd hf (by decide)

theorem erase_nodes (db : DB) (id : ℕ) : menuNodes (erase schema db .menu id) = remove id
    (menuNodes db) := by
  ext x
  constructor
  · rintro ⟨_, hq, rfl⟩
    obtain ⟨r, hr, hrem, rfl⟩ := (mem_erase schema).mp hq
    exact ⟨menuNode r, mem_menuNodes hr, fun hid => hrem (removed_menu.mpr hid),
      (menuNode_detach id r).symm⟩
  · rintro ⟨_, ⟨r, hr, rfl⟩, hid, rfl⟩
    exact ⟨_, (mem_erase schema).mpr ⟨r, hr, fun hrem => hid (removed_menu.mp hrem), rfl⟩,
      menuNode_detach id r⟩

theorem erase_plain {db : DB} {id : ℕ} (h : ∀ menu ∈ db .menu, PlainParent menu) :
    ∀ menu ∈ erase schema db .menu id .menu, PlainParent menu := by
  intro _ hmenu
  obtain ⟨r, hr, -, rfl⟩ := (mem_erase schema).mp hmenu
  have hcell : (detach schema .menu id .menu r).cell .parentId =
      if r.cell .parentId = .int id then .null else r.cell .parentId := by
    show (if Nullified schema .menu id .menu r .parentId then Value.null else r.cell .parentId) = _
    simp only [nullified_menu, true_and]
  by_cases hparent : r.cell .parentId = .int id
  · rw [if_pos hparent] at hcell
    exact (plainParent_of (show _ = parentCell none from hcell)).1
  · rw [if_neg hparent, h r hr] at hcell
    exact (plainParent_of hcell).1

/-! ## Permissions -/

/-- The foreign key of a permission. -/
def permissionKey : Reference Table Field :=
  { table := .rolePermission, column := .menuId, target := .menu, onDelete := .setNull }

/-- A menu with permissions stays. -/
theorem menu_blocked_iff {db : DB} {id : ℕ} :
    Blocked schema db .menu id ↔ ∃ q ∈ db .rolePermission, q.cell .menuId = .int id := by
  have hkey : ∀ ref ∈ foreignKeys, schema.nullable ref.table ref.column = false →
      ref.target = .menu →
      ref.table = .rolePermission ∧ ref.column = .menuId := by decide
  have hmem : permissionKey ∈ foreignKeys :=
    (mem_tableForeignKeys (t := .rolePermission).mp (List.mem_of_getElem? (i := 1) rfl)).1
  have hremoved : ∀ r, ¬ Removed schema .menu id .rolePermission r := by
    have hno : ∀ ref ∈ foreignKeys, ref.table = .rolePermission → ref.onDelete ≠ .removeRow := by
      decide
    rintro r (⟨htable, -⟩ | ⟨ref, href, htable, -, hremove, -⟩)
    · cases htable
    · exact hno ref href htable hremove
  constructor
  · rintro ⟨ref, href, hnull, r, hr, -, ref', href', htable, hcolumn, htarget, -, hcell⟩
    have hsame : ref.target = .menu :=
      (schema.one_target ref href ref' href' htable.symm hcolumn.symm).trans htarget
    obtain ⟨ht, hc⟩ := hkey ref href hnull hsame
    rw [ht] at hr
    rw [hc] at hcell
    exact ⟨r, hr, hcell⟩
  · rintro ⟨q, hq, hcell⟩
    exact ⟨permissionKey, hmem, by decide, q, hq, hremoved q, permissionKey, hmem, rfl, rfl,
      rfl, rfl, hcell⟩

/-- The permissions stay as they are. -/
theorem erase_permissions {db : DB} {id : ℕ} (h : ¬ Blocked schema db .menu id) :
    erase schema db .menu id .rolePermission = db .rolePermission := by
  have hkey : ∀ ref ∈ foreignKeys, ref.table = .rolePermission → ref.onDelete = .setNull ∧
      (ref.target = .menu → ref.column = .menuId) := by decide
  have hkept : ∀ r, ¬ Removed schema .menu id .rolePermission r := by
    rintro r (⟨htable, -⟩ | ⟨ref, href, htable, -, hremove, -⟩)
    · cases htable
    · cases hremove.symm.trans (hkey ref href htable).1
  have hsame : ∀ r ∈ db .rolePermission, detach schema .menu id .rolePermission r = r := by
    intro r hr
    have hcells : ∀ f, ¬ Nullified schema .menu id .rolePermission r f := by
      rintro f ⟨ref, href, htable, rfl, htarget, -, hcell⟩
      rw [(hkey ref href htable).2 htarget] at hcell
      exact h (menu_blocked_iff.mpr ⟨r, hr, hcell⟩)
    show ({ r with
      cell := fun f => if Nullified schema .menu id .rolePermission r f then .null else r.cell f
      } : Record) = r
    simp only [hcells, if_false]
  show ((db .rolePermission).filter fun r => ¬ Removed schema .menu id .rolePermission r).map _ = _
  simp only [hkept, not_false_eq_true, decide_true, List.filter_true]
  rw [List.map_congr_left hsame, List.map_id']

/-! ## Requests -/

/-- **POST.** -/
theorem menu_added {k : Clock} {data : Json} {db : DB}
    (hgood : (handle k (.create .menu (.json data)) db).1.Success) :
    ∃ attrs menu, construct data menuSources = .ok attrs ∧ Built k .menu attrs menu ∧
      (handle k (.create .menu (.json data)) db).2 = insert db .menu menu ∧
        menu.id = nextId (db .menu) ∧
      menu.cell .parentId = namedParent data ∧
      (handle k (.create .menu (.json data)) db).1.body =
        .dict [(.id, .int menu.id), (.message, .str "菜单添加成功")] := by
  have hrun : (run (createHandler k .menu (fun data _ => (construct data menuSources).map .inr)
      (answerId "菜单添加成功")
      (.json data)) db).1.Success := hgood
  obtain ⟨row, _, hid, hreply⟩ := create_answers (fun _ h => absurd h map_inr_inl) hrun
  rcases handle_create k .menu (.json data) db with ⟨hbad, -⟩ |
    ⟨-, _, attrs, w, hbody, hattrs, hins, -, hsame⟩
  · exact absurd hgood hbad
  cases hbody
  have hparent : (newRow k .menu attrs db).cell .parentId = namedParent data :=
    (built_key (built_newRow hins) parentKey_mem).trans (attrs_key hattrs parentKey_mem)
  have hinsert : w = insert db .menu (newRow k .menu attrs db) := (insertRow_eq_ok.mp hins).2.2
  refine ⟨attrs, newRow k .menu attrs db, hattrs, built_newRow hins,
    (hsame (by decide)).trans hinsert, rfl, hparent, ?_⟩
  refine (Except.ok.inj hreply).symm.trans ?_
  rw [hid]
  rfl

/-- **PUT.** -/
theorem menu_updated {k : Clock} {id : ℕ} {data : Json} {db : DB}
    (hgood : (handle k (.update .menu id (.json data)) db).1.Success) :
    ∃ menu, find (db .menu) id = some menu ∧
      (handle k (.update .menu id (.json data)) db).2 =
        setCells db .menu id (updateValues .menu (menuFields.map (keep data menu))) ∧
      (assignCells menu (updateValues .menu (menuFields.map (keep data menu)))).cell .parentId =
        (if data.has .parentId then namedParent data else menu.cell .parentId) ∧
      ∀ f ∈ menuFields, ∀ j, data.get f = .ok (some j) → ∀ c, Table.menu.column f = some c →
        bindJson c.type j =
          .ok
            ((assignCells menu (updateValues .menu (menuFields.map (keep data menu)))).cell f) := by
  rcases handle_update k .menu id (.json data) db with
    ⟨hbad, -⟩ | ⟨-, menu, _, assignments, ops, w, -, hfind, hbody, hassign, hops, hall, -, hsame⟩
  · exact absurd hgood hbad
  cases hbody
  have hassignments : assignments = menuFields.map (keep data menu) := (Except.ok.inj hassign).symm
  obtain ⟨hw, hbinds⟩ := updateOps_eq hops hall
  have hparent := updated_parent hassign hops hall
  have hcell := fun f v => updated_cell (f := f) (v := v) hassign fun a ha =>
    (hbinds a ha).imp fun x hx => ⟨hx.1, fun v hv c hc => (hx.2 v hv c hc).imp fun w hw => hw.1⟩
  subst hassignments
  refine ⟨menu, hfind, (hsame fun h => nomatch h.1).trans hw, hparent, fun f hf j hj c hc => ?_⟩
  refine hcell f (.json j) ?_ hc
  have hkeep : keep data menu f = (f, .ok (some (.json j))) := by
    rw [keep, hj]
    rfl
  exact hkeep ▸ List.mem_map_of_mem hf

/-- **DELETE.** -/
theorem menu_deleted {k : Clock} {id : ℕ} {db : DB}
    (hgood : (handle k (.delete .menu id) db).1.Success) :
    (∃ menu, find (db .menu) id = some menu) ∧ ¬ Blocked schema db .menu id ∧
      (handle k (.delete .menu id) db).2 = erase schema db .menu id := by
  rcases handle_delete k .menu id db with ⟨hbad, -⟩ | ⟨-, menu, others, -, hfind, hothers, hall⟩
  · exact absurd hgood hbad
  cases hothers
  obtain ⟨hunblocked, hdb⟩ := deleteRow_eq_ok.mp ((applyAll_singleton _ _ _).symm.trans hall)
  exact ⟨⟨menu, hfind⟩, hunblocked, hdb⟩

/-- A menu that exists and has no permissions can be deleted. -/
theorem menu_delete_succeeds {k : Clock} {id : ℕ} {db : DB} {menu : Record} (hid : id < 2 ^ 63)
    (hfind : find (db .menu) id = some menu) (hunblocked : ¬ Blocked schema db .menu id) :
    (handle k (.delete .menu id) db).1.Success := by
  have hrun : handle k (.delete .menu id) db =
      run (deleteHandler .menu "菜单不存在" "菜单删除成功" (fun _ _ => .ok []) id) db := rfl
  rw [hrun, delete_succeeds hid hfind hunblocked]
  exact (by norm_num : 200 < 400)

/-! ## Menus that are sent back -/

/-- The cells of a row are what the columns of the menus store. -/
def Storable (menu : Record) : Prop :=
  ∀ c ∈ Table.menu.columns, Canonical c.type (menu.cell c.field) ∧
    (c.nullable = false → menu.cell c.field ≠ .null)

theorem Valid.storable {db : DB} (h : Valid db) {menu : Record} (hmenu : menu ∈ db .menu) :
    Storable menu :=
  fun c hc =>
    ⟨h.canonical .menu c hc menu hmenu, fun hnull => h.notNull .menu c hc hnull menu hmenu⟩

/-- The members of a menu are in an object. -/
def Names (data : Json) (menu : Record) : Prop :=
  ∀ f ∈ menuFields, data.get f = .ok (some (shown menu f))

theorem shown_menu (menu : Record) : ∀ f ∈ menuFields, shown menu f = (menu.cell f).toJson := by
  have hid : ∀ f ∈ menuFields, f ≠ .id := by decide
  exact fun f hf => if_neg (hid f hf)

theorem Storable.bind {menu : Record} (h : Storable menu) {c : Column}
    (hc : c ∈ Table.menu.columns) :
    bindJson c.type (shown menu c.field) = .ok (menu.cell c.field) := by
  have hplain : ∀ c ∈ Table.menu.columns, c.type.plain = true ∧ c.field ∈ menuFields := by decide
  rw [shown_menu menu c.field (hplain c hc).2]
  exact bindJson_toJson (hplain c hc).1 (h c hc).1

/-- **A PUT of the members of a menu** brings its cells back. -/
theorem menu_put_back {k : Clock} {id : ℕ} {data : Json} {db : DB} {row menu : Record}
    (hid : id < 2 ^ 63)
    (hfind : find (db .menu) id = some row) (hmenu : Storable menu) (hdata : Names data menu) :
    (handle k (.update .menu id (.json data)) db).1.Success ∧
      ∃ values, (handle k (.update .menu id (.json data)) db).2 = setCells db .menu id values ∧
        ∀ f ∈ menuFields, (assignCells row values).cell f = menu.cell f := by
  have hcolumn : ∀ f ∈ menuFields, ∃ c ∈ Table.menu.columns, c.field = f := by decide
  have hunique : ∀ c ∈ Table.menu.columns, c.unique = false := by decide
  have hgood : (run (updateHandler .menu "菜单不存在"
      (fun data menu _ => .ok (.inr (menuFields.map (keep data menu)))) (answerDone "菜单更新成功") id
      (.json data)) db).1.Success := by
    refine update_succeeds hid hfind rfl (fun a ha => ?_) fun _ _ => ⟨_, rfl⟩
    obtain ⟨f, hf, rfl⟩ := List.mem_map.mp ha
    obtain ⟨c, hc, rfl⟩ := hcolumn f hf
    refine Or.inr ⟨.json (shown menu c.field), c, ?_, Table.column_of_mem hc, menu.cell c.field,
      hmenu.bind hc, ?_, hunique c hc⟩
    · show (data.get c.field).map _ = _
      rw [hdata c.field hf]
      rfl
    · intro hnull
      by_contra hnot
      exact (hmenu c hc).2 (by simpa using hnot) hnull
  refine ⟨hgood, ?_⟩
  obtain ⟨row', hfind', hdb, -, hcells⟩ := menu_updated (k := k) hgood
  cases hfind.symm.trans hfind'
  refine ⟨_, hdb, fun f hf => ?_⟩
  obtain ⟨c, hc, rfl⟩ := hcolumn f hf
  exact (Except.ok.inj ((hmenu.bind hc).symm.trans
    (hcells c.field hf _ (hdata c.field hf) c (Table.column_of_mem hc)))).symm

/-- The attributes `add_menu` makes of the members of a menu. -/
theorem construct_menu {data : Json} {menu : Record} (h : Names data menu) :
    construct data menuSources = .ok (menuFields.map fun f => (f, .json (shown menu f))) := by
  have hitem : ∀ f ∈ menuFields, data.item f = .ok (shown menu f) :=
    fun f hf => Json.item_of_get (h f hf)
  have hget : ∀ f ∈ menuFields, ∀ d, data.getD f d = .ok (shown menu f) :=
    fun f hf d => Json.getD_of_get (h f hf)
  simp only [menuSources, construct, Source.eval, hitem .name (by decide), hitem .path (by decide),
    hget .icon (by decide), hget .parentId (by decide), hget .order (by decide),
    hget .visible (by decide)]
  rfl

/-- **A POST of the members of a menu** stores them again, unless the order or the visibility is
    NULL: a new menu gets the default for it. -/
theorem menu_created_again {k : Clock} {data : Json} {db : DB} {menu : Record}
    (hid : nextId (db .menu) < 2 ^ 63)
    (hmenu : Storable menu) (horder : menu.cell .order ≠ .null)
    (hvisible : menu.cell .visible ≠ .null)
    (hdata : Names data menu) :
    (handle k (.create .menu (.json data)) db).1.Success ∧
      ∃ row, (handle k (.create .menu (.json data)) db).2 = insert db .menu row ∧
        row.id = nextId (db .menu) ∧
        ∀ f ∈ menuFields, row.cell f = menu.cell f := by
  have hattrs := construct_menu hdata
  have hcolumn : ∀ f ∈ menuFields, ∃ c ∈ Table.menu.columns, c.field = f := by decide
  have hunique : ∀ c ∈ Table.menu.columns, c.unique = false ∧ c.field ∈ menuFields := by decide
  have hdefault : ∀ c ∈ Table.menu.columns, c.nullable = false ∨ c.default = none ∨
      c.field = .order ∨
      c.field = .visible := by decide
  have hlookup : ∀ f ∈ menuFields,
      (menuFields.map fun f => (f, Attr.json (shown menu f))).lookup f =
      some (.json (shown menu f)) := by
    intro f hf
    refine lookup_of_mem ?_ (List.mem_map_of_mem hf)
    rw [List.map_map]
    show (menuFields.map fun f => f).Nodup
    rw [List.map_id']
    decide
  have hinitial : ∀ c ∈ Table.menu.columns,
      c.initial k (menuFields.map fun f => (f, .json (shown menu f))) =
      .ok (menu.cell c.field) := by
    intro c hc
    have hf := (hunique c hc).2
    have hgiven : c.default = none ∨ (Attr.json (shown menu c.field)).isNone = false := by
      by_cases hnull : menu.cell c.field = .null
      · -- a member that is `null` counts as not given
        rcases hdefault c hc with h | h | h | h
        · exact absurd hnull ((hmenu c hc).2 h)
        · exact Or.inl h
        · exact absurd (h ▸ hnull) horder
        · exact absurd (h ▸ hnull) hvisible
      · right
        rw [shown_menu menu c.field hf]
        cases hcell : menu.cell c.field <;> first | exact absurd hcell hnull | rfl
    exact (Column.initial_eq_bind k (hlookup c.field hf) hgiven).trans (hmenu.bind hc)
  have hprepare : (construct data menuSources).map Sum.inr =
      (.ok (.inr (menuFields.map fun f => (f, .json (shown menu f)))) :
        Except Exn (Response ⊕ List (Field × Attr))) := by
    rw [hattrs]
    rfl
  have hgood : (run (createHandler k .menu (fun data _ => (construct data menuSources).map .inr)
      (answerId "菜单添加成功") (.json data)) db).1.Success := by
    refine create_succeeds hprepare hid (fun c hc => ?_) fun _ _ => ⟨_, rfl⟩
    refine ⟨menu.cell c.field, hinitial c hc, fun hnull => ?_, (hunique c hc).1⟩
    by_contra hnot
    exact (hmenu c hc).2 (by simpa using hnot) hnull
  refine ⟨hgood, ?_⟩
  obtain ⟨attrs, row, hattrs', hbuilt, hdb, hrow, -⟩ := menu_added (k := k) hgood
  cases hattrs.symm.trans hattrs'
  refine ⟨row, hdb, hrow, fun f hf => ?_⟩
  obtain ⟨c, hc, rfl⟩ := hcolumn f hf
  exact (Except.ok.inj ((hinitial c hc).symm.trans (hbuilt c hc))).symm

end ProjectEvaluation.Backend
