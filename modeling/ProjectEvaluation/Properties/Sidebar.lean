import ProjectEvaluation.Pages.Layout
import ProjectEvaluation.Properties.RolePermissions

/-!
# The sidebar

Menus have an order and can be hidden.

Results:
* `sidebar_iff`: the sidebar shows the visible menus, in their order, iff every menu that
`get_menus` lists is visible and the rows of the menus with the same parent are in their order. -/

namespace ProjectEvaluation.Backend

open Python Relational Forest Pages

/-! ## What the sidebar should show -/

/-- The number of an order field. -/
def orderNumber : Json → Option ℚ
  | .int n => some n
  | .float (.finite x) => some x.value
  | _ => none

/-- Two menus are in the order of their order fields. -/
def Precedes (a b : MenuItem) : Prop := ∃ x ∈ orderNumber a.order, ∃ y ∈ orderNumber b.order, x ≤ y

/-- Siblings are in their order, at the top and below every menu. -/
def Ascending (menus : List (RoseTree MenuItem)) : Prop :=
  (menus.map RoseTree.top).Pairwise Precedes ∧ ∀ t ∈ menus,
    Locally (fun _ children => children.Pairwise Precedes) t

/-- The menus of some items. -/
def itemMenus (items : List (RoseTree SidebarItem)) : List (RoseTree MenuItem) :=
  items.map (RoseTree.map SidebarItem.menu)

/-- The sidebar for a tree of menus: the ways from its top down are the ways of the tree on which
    every menu is visible, no menu is shown twice, siblings are in their order, and every item shows
    its menu. -/
structure Sidebar (menus : List (RoseTree MenuItem))
    (items : List (RoseTree SidebarItem)) : Prop where
  exactly : ∀ menuPath, Way (itemMenus items) menuPath ↔ Way menus menuPath ∧ ∀ menu ∈ menuPath,
    menu.visible = .bool true
  once : (menuIds (itemMenus items)).Nodup
  ascending : Ascending (itemMenus items)
  shows : ∀ item ∈ items.flatMap RoseTree.nodes,
    item.key = item.menu.path ∧ item.label = item.menu.name

/-! ## What it shows -/

theorem itemMenus_generated (menus : List (RoseTree MenuItem)) :
    itemMenus (generateMenuItems menus) = menus := by
  rw [itemMenus, generateMenuItems_eq, List.map_map]
  refine (List.map_congr_left fun t _ => ?_).trans (List.map_id menus)
  rw [Function.comp_apply, RoseTree.map_map]
  exact t.map_id

theorem shows_generated (menus : List (RoseTree MenuItem)) :
    ∀ item ∈ (generateMenuItems menus).flatMap RoseTree.nodes,
      item.key = item.menu.path ∧ item.label = item.menu.name := by
  intro item hitem
  rw [generateMenuItems_eq, List.flatMap_map] at hitem
  obtain ⟨t, -, hitem⟩ := List.mem_flatMap.mp hitem
  rw [RoseTree.nodes_map] at hitem
  obtain ⟨menu, -, rfl⟩ := List.mem_map.mp hitem
  exact ⟨rfl, rfl⟩

/-- **The sidebar of a tree** is what it should be iff all menus of the tree are visible and in
    their order. -/
theorem sidebar_generated_iff {menus : List (RoseTree MenuItem)} (honce : (menuIds menus).Nodup) :
    Sidebar menus (generateMenuItems menus) ↔
      (∀ menu ∈ menus.flatMap RoseTree.nodes, menu.visible = .bool true) ∧ Ascending menus := by
  have hmenus := itemMenus_generated menus
  constructor
  · rintro ⟨hexactly, -, hascending, -⟩
    rw [hmenus] at hexactly hascending
    exact ⟨forall_way_iff.mp fun menuPath hway => ((hexactly menuPath).mp hway).2, hascending⟩
  · rintro ⟨hvisible, hascending⟩
    refine ⟨fun menuPath => ?_, hmenus.symm ▸ honce, hmenus.symm ▸ hascending,
      shows_generated menus⟩
    rw [hmenus, iff_self_and]
    exact forall_way_iff.mpr hvisible menuPath

/-! ## The rows of the menus -/

theorem object_injective (a b : MenuItem) (xs ys : List Json) (h : a.object xs = b.object ys) :
    a = b ∧ xs = ys := by
  cases a
  cases b
  simp only [MenuItem.object, Json.dict.injEq, List.cons.injEq, Prod.mk.injEq, true_and, and_true,
    Json.int.injEq, Json.list.injEq] at h
  obtain ⟨rfl, rfl, rfl, rfl, rfl, rfl, rfl, rfl⟩ := h
  exact ⟨rfl, rfl⟩

/-- The tree can be read off the answer. -/
theorem menusBody_injective {menus menus' : List (RoseTree MenuItem)}
    (h : menusBody menus = menusBody menus') :
    menus = menus' := by
  have hlist := Json.list.inj h
  rw [← RoseTree.foldAll_eq, ← RoseTree.foldAll_eq] at hlist
  exact RoseTree.foldAll_injective object_injective menus menus' hlist

/-- Two rows are in the order of their order fields. -/
def InOrder (a b : Record) : Prop := Precedes (itemOf a) (itemOf b)

/-- Every menu that is listed is visible, and the rows of the menus with the same parent, or with
    none, are in their order. -/
structure Displayable (db : DB) : Prop where
  visible : ∀ menu, MenuGrounded db menu → menu.cell .visible = .bool true
  roots : ((db .menu).filter isRoot).Pairwise InOrder
  children : ∀ menu, MenuGrounded db menu → (menuChildren db menu).Pairwise InOrder

theorem shown_visible (menu : Record) : shown menu .visible = .bool true ↔
    menu.cell .visible = .bool true := by
  have hshown : shown menu .visible = (menu.cell .visible).toJson := rfl
  rw [hshown]
  cases menu.cell .visible <;> simp [Value.toJson]

/-- The nodes of the trees on the page are the menus that are listed. -/
theorem items_grounded {db : DB} {ts : List (RoseTree Record)}
    (hgrounded : ∀ menu, menu ∈ ts.flatMap RoseTree.nodes ↔ MenuGrounded db menu)
    (P : MenuItem → Prop) :
    (∀ item ∈ (ts.map (RoseTree.map itemOf)).flatMap RoseTree.nodes, P item) ↔
      ∀ menu, MenuGrounded db menu → P (itemOf menu) := by
  have hnodes : (ts.map (RoseTree.map itemOf)).flatMap RoseTree.nodes =
      (ts.flatMap RoseTree.nodes).map itemOf := by
    rw [List.flatMap_map, List.map_flatMap]
    exact congrArg (ts.flatMap ·) (funext (RoseTree.nodes_map itemOf))
  rw [hnodes, List.forall_mem_map]
  exact forall_congr' fun menu => imp_congr_left (hgrounded menu)

/-- The trees are in order iff the rows are. -/
theorem ascending_iff {db : DB} {ts : List (RoseTree Record)}
    (hroots : ts.map RoseTree.top = (db .menu).filter isRoot)
    (hplaced : ∀ t ∈ ts, Unfolds (db .menu) isParent t)
    (hgrounded : ∀ menu, menu ∈ ts.flatMap RoseTree.nodes ↔ MenuGrounded db menu) :
    Ascending (ts.map (RoseTree.map itemOf)) ↔
      ((db .menu).filter isRoot).Pairwise InOrder ∧
        ∀ menu, MenuGrounded db menu → (menuChildren db menu).Pairwise InOrder := by
  have htops : (ts.map (RoseTree.map itemOf)).map RoseTree.top =
      ((db .menu).filter isRoot).map itemOf := by
    rw [← hroots, List.map_map, List.map_map]
    exact List.map_congr_left fun t _ => t.top_map itemOf
  rw [Ascending, htops, List.pairwise_map, List.forall_mem_map]
  refine and_congr Iff.rfl ?_
  have hbelow : ∀ t ∈ ts, Locally (fun _ children => children.Pairwise Precedes) (t.map itemOf) ↔
      ∀ menu ∈ t.nodes, (menuChildren db menu).Pairwise InOrder := by
    intro t ht
    rw [(hplaced t ht).locally_map_iff itemOf]
    exact forall₂_congr fun menu _ => List.pairwise_map
  constructor
  · intro hlocally menu hmenu
    obtain ⟨t, ht, hnode⟩ := List.mem_flatMap.mp ((hgrounded menu).mpr hmenu)
    exact (hbelow t ht).mp (hlocally t ht) menu hnode
  · intro hrows t ht
    refine (hbelow t ht).mpr fun menu hnode => hrows menu ?_
    exact (hgrounded menu).mp (List.mem_flatMap.mpr ⟨t, ht, hnode⟩)

/-- **The sidebar** shows the visible menus in their order iff the rows of the menus are
    displayable: it shows every menu, and in the order of the rows. -/
theorem sidebar_iff {db : DB} (hkeys : ((db .menu).map Row.id).Nodup)
    {menus : List (RoseTree MenuItem)}
    (hmenus : getMenus db = { status := 200, body := menusBody menus }) :
    Sidebar menus (generateMenuItems menus) ↔ Displayable db := by
  obtain ⟨ts, hforest, hnodup, hgrounded⟩ := forest_spec hkeys.of_map (oneParent hkeys)
  obtain ⟨hroots, hplaced⟩ := tops_of_mapM (fun _ _ ht => unfolds_of_build ht) hforest
  obtain ⟨hbody, hids⟩ := getMenus_items hforest
  obtain rfl : menus = ts.map (RoseTree.map itemOf) :=
    menusBody_injective (congrArg Response.body (hmenus.symm.trans hbody))
  have honce : (menuIds (ts.map (RoseTree.map itemOf))).Nodup := by
    rw [hids]
    refine hnodup.map_on fun a ha b hb hid => ?_
    exact List.inj_on_of_nodup_map hkeys ((hgrounded a).mp ha).mem
      ((hgrounded b).mp hb).mem (by omega)
  rw [sidebar_generated_iff honce, items_grounded hgrounded fun item => item.visible = .bool true,
    ascending_iff hroots hplaced hgrounded]
  constructor
  · rintro ⟨hvisible, hrootRows, hchildRows⟩
    exact ⟨fun menu hmenu => (shown_visible menu).mp (hvisible menu hmenu), hrootRows, hchildRows⟩
  · rintro ⟨hvisible, hrootRows, hchildRows⟩
    exact ⟨fun menu hmenu => (shown_visible menu).mpr (hvisible menu hmenu), hrootRows, hchildRows⟩

/-- The row of a menu that is in the sidebar. -/
def menuRecord (id : ℕ) (name path : String) (parentId : Value) (order : ℤ)
    (visible : Bool) : Record :=
  record id [(.name, .text name), (.path, .text path), (.parentId, parentId), (.order, .int order),
    (.visible, .bool visible)]

/-- A menu with two menus below it, in their order. -/
def orderedMenus : DB := DB.ofRows
  [(.menu, menuRecord 1 "系统" "/system" .null 1 true),
   (.menu, menuRecord 2 "用户" "/system/user" (.int 1) 1 true),
   (.menu, menuRecord 3 "角色" "/system/role" (.int 1) 2 true)]

/-- The menus of the answer. -/
def orderedTree : List (RoseTree MenuItem) :=
  [.node (itemOf (menuRecord 1 "系统" "/system" .null 1 true))
    [.node (itemOf (menuRecord 2 "用户" "/system/user" (.int 1) 1 true)) [],
     .node (itemOf (menuRecord 3 "角色" "/system/role" (.int 1) 2 true)) []]]

theorem inOrder_records {id id' : ℕ} {name path name' path' : String} {parentId parentId' : Value}
    {order order' : ℤ}
    {visible visible' : Bool} (h : order ≤ order') :
    InOrder (menuRecord id name path parentId order visible)
      (menuRecord id' name' path' parentId' order' visible') :=
  ⟨order, rfl, order', rfl, by exact_mod_cast h⟩

/-- The sidebar shows them as they should be. -/
theorem sidebar_iff_ordered : Sidebar orderedTree (generateMenuItems orderedTree) := by
  have hmenus : getMenus orderedMenus = { status := 200, body := menusBody orderedTree } := rfl
  have hvisible : ∀ menu ∈ orderedMenus .menu, menu.cell .visible = .bool true := by decide
  have hrows : (orderedMenus .menu).Pairwise InOrder := by
    refine .cons ?_ (.cons ?_ (List.pairwise_singleton _ _))
    · refine List.forall_mem_cons.mpr ⟨inOrder_records (by omega), ?_⟩
      exact List.forall_mem_singleton.mpr (inOrder_records (by omega))
    · exact List.forall_mem_singleton.mpr (inOrder_records (by omega))
  exact (sidebar_iff (by decide) hmenus).mpr
    ⟨fun menu hmenu => hvisible menu hmenu.mem, hrows.filter _, fun menu _ => hrows.filter _⟩

/-- A menu that is hidden, with a menu below it. -/
def hiddenMenu : DB := DB.ofRows
  [(.menu, menuRecord 1 "系统" "/system" .null 1 false),
   (.menu, menuRecord 2 "用户" "/system/user" (.int 1) 1 true)]

def hiddenTree : List (RoseTree MenuItem) :=
  [.node (itemOf (menuRecord 1 "系统" "/system" .null 1 false))
    [.node (itemOf (menuRecord 2 "用户" "/system/user" (.int 1) 1 true)) []]]

/-- Two menus whose order is not that of their rows. -/
def swappedMenus : DB := DB.ofRows
  [(.menu, menuRecord 1 "系统" "/system" .null 2 true),
   (.menu, menuRecord 2 "研究" "/research" .null 1 true)]

def swappedTree : List (RoseTree MenuItem) :=
  [.node (itemOf (menuRecord 1 "系统" "/system" .null 2 true)) [],
   .node (itemOf (menuRecord 2 "研究" "/research" .null 1 true)) []]

/-- The sidebar shows the hidden menu, and the two menus in the order of their rows. -/
theorem hidden_menu_shown :
    (getMenus hiddenMenu = { status := 200, body := menusBody hiddenTree } ∧
        ¬ Sidebar hiddenTree (generateMenuItems hiddenTree)) ∧
      getMenus swappedMenus = { status := 200, body := menusBody swappedTree } ∧
        ¬ Sidebar swappedTree (generateMenuItems swappedTree) := by
  refine ⟨⟨rfl, fun h => ?_⟩, rfl, fun h => ?_⟩
  · have hway : Way (itemMenus (generateMenuItems hiddenTree))
        [itemOf (menuRecord 1 "系统" "/system" .null 1 false)] :=
      (itemMenus_generated hiddenTree).symm ▸ .stop List.mem_cons_self
    have hvisible := ((h.exactly _).mp hway).2 _ (List.mem_singleton_self _)
    have hhidden : (itemOf (menuRecord 1 "系统" "/system" .null 1 false)).visible = .bool false := rfl
    rw [hhidden] at hvisible
    exact absurd (Json.bool.inj hvisible) (by decide)
  · have hascending := h.ascending.1
    rw [itemMenus_generated] at hascending
    obtain ⟨x, hx, y, hy, hle⟩ := List.rel_of_pairwise_cons hascending (List.mem_singleton_self _)
    have hx : some (2 : ℚ) = some x := hx
    have hy : some (1 : ℚ) = some y := hy
    rw [← Option.some.inj hx, ← Option.some.inj hy] at hle
    norm_num at hle

end ProjectEvaluation.Backend
