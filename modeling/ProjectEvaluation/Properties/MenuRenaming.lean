import ProjectEvaluation.Pages.MenuManagement
import ProjectEvaluation.Properties.MenuRows
import ProjectEvaluation.Properties.RolePermissions

/-!
# The menu tree up to a renaming of ids

Results:
* `findMenu_row`: what the page finds in the tree is a row of the menus.
* `sameTree_of_nodes`: menus that are the same nodes up to a renaming are the same tree up to a
  renaming.
-/

namespace ProjectEvaluation.Pages.MenuManagement

open Python Relational Forest Backend UndoLog

/-! ## Trees up to a renaming -/

/-- A menu in an answer. -/
def itemIn (menu : Json) : MenuItem where
  id := idOf menu
  name := member menu .name
  path := member menu .path
  icon := member menu .icon
  parentId := member menu .parentId
  order := member menu .order
  visible := member menu .visible

mutual

/-- The menus in an answer, down the lists under `children`. -/
def menusIn : Json → List MenuItem
  | .list menus => menusInList menus
  | .dict entries => itemIn (.dict entries) :: menusInEntries entries
  | _ => []

/-- The menus of a list. -/
def menusInList : List Json → List MenuItem
  | [] => []
  | menu :: menus => menusIn menu ++ menusInList menus

/-- The menus below a menu. -/
def menusInEntries : List (Field × Json) → List MenuItem
  | [] => []
  | entry :: entries => menusInEntry entry ++ menusInEntries entries

/-- The menus in an entry of a menu. -/
def menusInEntry : Field × Json → List MenuItem
  | (.children, j) => menusIn j
  | _ => []

end


/-- A menu with other ids. -/
def renameItem (ρ : ℤ → ℤ) (menu : MenuItem) : MenuItem where
  id := ρ menu.id
  name := menu.name
  path := menu.path
  icon := menu.icon
  parentId :=
    match menu.parentId with
    | .int p => .int (ρ p)
    | parentId => parentId
  order := menu.order
  visible := menu.visible

/-- Two answers of `get_menus` are the same tree up to a renaming of ids: the same names, paths,
    icons, orders, visibilities and parents. -/
def SameTree (menus menus' : Json) : Prop :=
  ∃ ρ : ℤ → ℤ, Set.InjOn ρ {id | ∃ menu ∈ menusIn menus, menu.id = id} ∧
    (menusIn menus').Perm ((menusIn menus).map (renameItem ρ))

/-! ## The menus of an answer -/

theorem member_menuObject (menu : Record) (children : List Json) :
    ∀ f ∈ Field.id :: menuFields, member (menuObject menu children) f = shown menu f := by
  intro f hf
  simp only [menuFields, List.mem_cons, List.not_mem_nil, or_false] at hf
  rcases hf with rfl | rfl | rfl | rfl | rfl | rfl | rfl <;> rfl

theorem idOf_menuObject (menu : Record) (children : List Json) :
    idOf (menuObject menu children) = menu.id :=
  rfl

theorem menusInList_eq (menus : List Json) : menusInList menus = menus.flatMap menusIn := by
  induction menus with
  | nil => simp [menusInList]
  | cons menu menus ih => rw [menusInList, ih, List.flatMap_cons]

theorem menusIn_menuObject (menu : Record) (children : List Json) :
    menusIn (menuObject menu children) = itemOf menu :: children.flatMap menusIn := by
  have hitem : itemIn (menuObject menu children) = itemOf menu := rfl
  rw [← hitem]
  simp [menuObject, menusIn, menusInEntries, menusInEntry, menusInList_eq]

mutual

theorem menusIn_fold : ∀ t : RoseTree Record, menusIn (t.fold menuObject) = t.nodes.map itemOf
  | .node menu ts => by
    rw [RoseTree.fold, menusIn_menuObject, RoseTree.nodes, List.map_cons, menusIn_foldAll ts]

theorem menusIn_foldAll : ∀ ts : List (RoseTree Record),
    (RoseTree.foldAll menuObject ts).flatMap menusIn = (RoseTree.nodesAll ts).map itemOf
  | [] => rfl
  | t :: ts => by
    rw [RoseTree.foldAll, List.flatMap_cons, menusIn_fold t, menusIn_foldAll ts, RoseTree.nodesAll,
      List.map_append]

end

/-- **The answer of `get_menus`** has the menus that are grounded, each once. -/
theorem menusIn_getMenus {db : DB} (hkeys : UniqueKeys db) :
    ∃ menus : List Record, menusIn (getMenus db).body = menus.map itemOf ∧ menus.Nodup ∧
      ∀ menu, menu ∈ menus ↔ MenuGrounded db menu := by
  obtain ⟨ts, hforest, hnodup, hmem⟩ := forest_spec (hkeys .menu).of_map (oneParent (hkeys .menu))
  refine ⟨ts.flatMap RoseTree.nodes, ?_, hnodup, hmem⟩
  rw [getMenus_eq hforest]
  show menusIn (.list (ts.map (RoseTree.fold menuObject))) = _
  rw [menusIn, menusInList_eq, ← RoseTree.foldAll_eq, menusIn_foldAll, RoseTree.nodesAll_eq]

mutual

theorem findInChildren_fold {menuId : ℕ} {found : Json} : ∀ t : RoseTree Record,
    findInChildren menuId (t.fold menuObject) = some found →
      ∃ menu ∈ t.nodes, ∃ children, found = menuObject menu children ∧ menu.id = menuId
  | .node menu ts, h => by
    rw [RoseTree.fold] at h
    have hchildren : findInChildren menuId (menuObject menu (RoseTree.foldAll menuObject ts)) =
        findMenuById menuId (RoseTree.foldAll menuObject ts) := by
      simp only [menuObject, List.map_cons, List.map_nil, List.cons_append, List.nil_append,
        findInChildren, findInEntries, findInEntry]
      cases findMenuById menuId (RoseTree.foldAll menuObject ts) <;> rfl
    rw [hchildren] at h
    obtain ⟨q, hq, hfound⟩ := findMenuById_foldAll ts h
    exact ⟨q, by rw [RoseTree.nodes]; exact List.mem_cons_of_mem menu hq, hfound⟩

theorem findMenuById_foldAll {menuId : ℕ} {found : Json} : ∀ ts : List (RoseTree Record),
    findMenuById menuId (RoseTree.foldAll menuObject ts) = some found →
      ∃ menu ∈ RoseTree.nodesAll ts, ∃ children, found = menuObject menu children ∧ menu.id = menuId
  | [], h => by
    rw [RoseTree.foldAll, findMenuById] at h
    cases h
  | t :: ts, h => by
    rw [RoseTree.foldAll, findMenuById] at h
    rw [RoseTree.nodesAll]
    by_cases hid : hasId menuId (t.fold menuObject) = true
    · rw [if_pos hid] at h
      cases t with
      | node menu ts' =>
        rw [RoseTree.fold] at h hid
        have hid : ((menu.id : ℤ) == (menuId : ℤ)) = true := hid
        have hmenu : menu.id = menuId := by
          have hint := beq_iff_eq.mp hid
          omega
        refine ⟨menu, List.mem_append_left _ ?_, _, (Option.some.inj h).symm, hmenu⟩
        rw [RoseTree.nodes]
        exact List.mem_cons_self
    · rw [if_neg hid] at h
      cases hchildren : findInChildren menuId (t.fold menuObject) with
      | some found' =>
        rw [hchildren] at h
        obtain ⟨q, hq, hfound⟩ := findInChildren_fold t hchildren
        obtain rfl := Option.some.inj h
        exact ⟨q, List.mem_append_left _ hq, hfound⟩
      | none =>
        rw [hchildren] at h
        obtain ⟨q, hq, hfound⟩ := findMenuById_foldAll ts h
        exact ⟨q, List.mem_append_right _ hq, hfound⟩

end

/-- **A menu that is found** in the answer of `get_menus` is a row. -/
theorem findMenu_row {db : DB} (hkeys : UniqueKeys db) {menuId : ℕ} {found : Json}
    (h : findMenu menuId (getMenus db).body = some found) :
    ∃ menu ∈ db .menu, ∃ children, found = menuObject menu children ∧ menu.id = menuId := by
  obtain ⟨ts, hforest, -, hmem⟩ := forest_spec (hkeys .menu).of_map (oneParent (hkeys .menu))
  rw [getMenus_eq hforest, ← RoseTree.foldAll_eq] at h
  obtain ⟨menu, hmenu, hfound⟩ := findMenuById_foldAll ts h
  rw [RoseTree.nodesAll_eq] at hmenu
  exact ⟨menu, ((hmem menu).mp hmenu).mem, hfound⟩

/-! ## From nodes to trees -/

section Trees

variable {db db' : DB} {ρ : ℕ → ℕ}

/-- Rows that are the same node up to a renaming. -/
def Renamed (ρ : ℕ → ℕ) (db db' : DB) (menu menu' : Record) : Prop :=
  menu ∈ db .menu ∧ menu' ∈ db' .menu ∧ menuNode menu' = (menuNode menu).rename ρ

theorem Renamed.parent {menu menu' : Record} (h : Renamed ρ db db' menu menu') :
    (menuNode menu').parent = (menuNode menu).parent.map ρ := congrArg Node.parent h.2.2

theorem Renamed.id {menu menu' : Record} (h : Renamed ρ db db' menu menu') : menu'.id = ρ menu.id :=
  congrArg Node.id h.2.2

theorem exists_renamed (h : SameUpTo ρ (menuNodes db) (menuNodes db')) {menu : Record}
    (hmenu : menu ∈ db .menu) :
    ∃ menu', Renamed ρ db db' menu menu' := by
  have hmem : (menuNode menu).rename ρ ∈ menuNodes db' := by
    rw [h.image]
    exact ⟨menuNode menu, mem_menuNodes hmenu, rfl⟩
  obtain ⟨menu', hmenu', hnode⟩ := hmem
  exact ⟨menu', hmenu, hmenu', hnode⟩

theorem exists_original (h : SameUpTo ρ (menuNodes db) (menuNodes db')) {menu' : Record}
    (hmenu' : menu' ∈ db' .menu) :
    ∃ menu, Renamed ρ db db' menu menu' := by
  have hmem := mem_menuNodes hmenu'
  rw [h.image] at hmem
  obtain ⟨_, ⟨menu, hmenu, rfl⟩, hnode⟩ := hmem
  exact ⟨menu, hmenu, hmenu', hnode.symm⟩

/-- The parent of a row as a node. -/
theorem parent_eq {menu : Record} (h : PlainParent menu) :
    (isRoot menu = true ↔ (menuNode menu).parent = none) ∧
      ∀ p : Record, isParent p menu = true ↔ (menuNode menu).parent = some p.id := by
  refine ⟨⟨fun hroot => ?_, fun hnone => ?_⟩, fun p => ⟨fun hparent => ?_, fun hsome => ?_⟩⟩
  · rw [menuNode, beq_iff_eq.mp hroot]
    rfl
  · rw [PlainParent, hnone] at h
    exact isRoot_of h
  · exact parentOf_eq_some.mpr (beq_iff_eq.mp hparent)
  · rw [PlainParent, hsome] at h
    exact isParent_of h

/-- **Renamed rows are grounded together.** -/
theorem renamed_grounded (hplain : ∀ menu ∈ db .menu, PlainParent menu)
    (hplain' : ∀ menu ∈ db' .menu, PlainParent menu)
    (hlinked : UndoLog.Linked (menuNodes db)) (h : SameUpTo ρ (menuNodes db) (menuNodes db'))
    {menu menu' : Record}
    (hrow : Renamed ρ db db' menu menu') : MenuGrounded db menu ↔ MenuGrounded db' menu' := by
  constructor
  · refine Grounded.simulate (R := Renamed ρ db db') (fun a b hab _ hroot => ⟨hab.2.1, ?_⟩)
      (fun p a b hab he => ?_) hrow
    · rw [(parent_eq (hplain' b hab.2.1)).1, hab.parent, (parent_eq (hplain a hab.1)).1.mp hroot]
      rfl
    · obtain ⟨q, hpq⟩ := exists_renamed h he.1
      refine ⟨q, hpq, hpq.2.1, hab.2.1, ?_⟩
      rw [(parent_eq (hplain' b hab.2.1)).2, hab.parent,
        ((parent_eq (hplain a hab.1)).2 p).mp he.2.2, hpq.id]
      rfl
  · refine Grounded.simulate (R := fun b a => Renamed ρ db db' a b)
      (fun b a hab _ hroot => ⟨hab.1, ?_⟩)
      (fun q b a hab he => ?_) hrow
    · rw [(parent_eq (hplain a hab.1)).1]
      have hnone := (parent_eq (hplain' b hab.2.1)).1.mp hroot
      rw [hab.parent] at hnone
      exact Option.map_eq_none_iff.mp hnone
    · have hsome := ((parent_eq (hplain' b hab.2.1)).2 q).mp he.2.2
      rw [hab.parent] at hsome
      obtain ⟨m, hm, hmq⟩ := Option.map_eq_some_iff.mp hsome
      obtain ⟨p, hpq⟩ := exists_original h he.1
      have hclosed : m ∈ ids (menuNodes db) := hlinked.closed _ (mem_menuNodes hab.1) m hm
      have hpm : p.id = m :=
        h.injOn (mem_ids (mem_menuNodes hpq.1)) hclosed (hpq.id.symm.trans hmq.symm)
      refine ⟨p, hpq, hpq.1, hab.1, ?_⟩
      rw [(parent_eq (hplain a hab.1)).2, hm, hpm]

/-- A renaming of the ids in an answer. -/
def newId (ρ : ℕ → ℕ) (id : ℤ) : ℤ := ρ id.toNat

theorem renamed_item (hplain : ∀ menu ∈ db .menu, PlainParent menu)
    (hplain' : ∀ menu ∈ db' .menu, PlainParent menu)
    {menu menu' : Record} (h : Renamed ρ db db' menu menu') :
    itemOf menu' = renameItem (newId ρ) (itemOf menu) := by
  have hcells : ∀ f ∈ menuColumns, menu'.cell f = menu.cell f :=
    List.map_eq_map_iff.mp (congrArg Node.data h.2.2)
  have hshown : ∀ f ∈ menuColumns, shown menu' f = shown menu f := by
    have hid : ∀ f ∈ menuColumns, f ≠ .id := by decide
    intro f hf
    rw [shown, shown, if_neg (hid f hf), if_neg (hid f hf), hcells f hf]
  have hparent : shown menu' .parentId = (renameItem (newId ρ) (itemOf menu)).parentId := by
    have hcell := hplain menu h.1
    have hcell' := hplain' menu' h.2.1
    rw [PlainParent] at hcell hcell'
    rw [h.parent] at hcell'
    show (menu'.cell .parentId).toJson = match (menu.cell .parentId).toJson with
      | .int p => .int (newId ρ p)
      | parentId => parentId
    rw [hcell', hcell]
    cases (menuNode menu).parent <;> rfl
  have hid : ((menu'.id : ℕ) : ℤ) = newId ρ menu.id := by
    rw [h.id]
    rfl
  unfold itemOf
  rw [hid, hshown .name (by decide), hshown .path (by decide), hshown .icon (by decide), hparent,
    hshown .order (by decide), hshown .visible (by decide)]
  rfl

/-- **The same nodes up to a renaming** are the same tree up to a renaming. -/
theorem sameTree_of_nodes (hkeys : UniqueKeys db) (hkeys' : UniqueKeys db')
    (hplain : ∀ menu ∈ db .menu, PlainParent menu) (hplain' : ∀ menu ∈ db' .menu, PlainParent menu)
    (hlinked : UndoLog.Linked (menuNodes db)) (h : SameUpTo ρ (menuNodes db) (menuNodes db')) :
    SameTree (getMenus db).body (getMenus db').body := by
  obtain ⟨menus, hmenus, hnodup, hmem⟩ := menusIn_getMenus hkeys
  obtain ⟨menus', hmenus', hnodup', hmem'⟩ := menusIn_getMenus hkeys'
  have hitems : ∀ {db : DB} {menus : List Record}, UniqueKeys db → menus.Nodup →
      (∀ menu, menu ∈ menus ↔ MenuGrounded db menu) →
        (menus.map fun menu => (menu.id : ℤ)).Nodup := by
    intro db menus hkeys hnodup hmem
    refine hnodup.map_on fun a ha b hb hid => ?_
    exact List.inj_on_of_nodup_map (hkeys .menu) ((hmem a).mp ha).mem
      ((hmem b).mp hb).mem (by omega)
  have hinj : Set.InjOn (newId ρ) {id | ∃ menu ∈ menus.map itemOf, menu.id = id} := by
    rintro _ ⟨_, hx, rfl⟩ _ ⟨_, hy, rfl⟩ hab
    obtain ⟨a, ha, rfl⟩ := List.mem_map.mp hx
    obtain ⟨b, hb, rfl⟩ := List.mem_map.mp hy
    have hab : ((ρ a.id : ℕ) : ℤ) = ρ b.id := hab
    have hid : a.id = b.id := h.injOn (mem_ids (mem_menuNodes ((hmem a).mp ha).mem))
      (mem_ids (mem_menuNodes ((hmem b).mp hb).mem)) (Int.ofNat_inj.mp hab)
    exact congrArg (fun id : ℕ => (id : ℤ)) hid
  refine ⟨newId ρ, hmenus ▸ hinj, ?_⟩
  rw [hmenus, hmenus']
  refine (List.perm_ext_iff_of_nodup ?_ ?_).mpr fun x => ?_
  · refine List.Nodup.of_map MenuItem.id ?_
    rw [List.map_map]
    exact hitems hkeys' hnodup' hmem'
  · refine List.Nodup.of_map MenuItem.id ?_
    rw [List.map_map, List.map_map]
    refine List.Nodup.map_on (fun a ha b hb hab => ?_) hnodup
    have hid : (a.id : ℤ) = b.id :=
      hinj ⟨_, List.mem_map_of_mem ha, rfl⟩ ⟨_, List.mem_map_of_mem hb, rfl⟩ hab
    exact List.inj_on_of_nodup_map (hkeys .menu) ((hmem a).mp ha).mem
      ((hmem b).mp hb).mem (by omega)
  · constructor
    · intro hx
      obtain ⟨b, hb, rfl⟩ := List.mem_map.mp hx
      obtain ⟨a, hab⟩ := exists_original h ((hmem' b).mp hb).mem
      have ha : a ∈ menus :=
        (hmem a).mpr ((renamed_grounded hplain hplain' hlinked h hab).mpr ((hmem' b).mp hb))
      exact List.mem_map.mpr ⟨itemOf a, List.mem_map_of_mem ha,
        (renamed_item hplain hplain' hab).symm⟩
    · intro hx
      obtain ⟨_, hitem, rfl⟩ := List.mem_map.mp hx
      obtain ⟨a, ha, rfl⟩ := List.mem_map.mp hitem
      obtain ⟨b, hab⟩ := exists_renamed h ((hmem a).mp ha).mem
      have hb : b ∈ menus' :=
        (hmem' b).mpr ((renamed_grounded hplain hplain' hlinked h hab).mp ((hmem a).mp ha))
      exact List.mem_map.mpr ⟨b, hb, renamed_item hplain hplain' hab⟩

end Trees

end ProjectEvaluation.Pages.MenuManagement
