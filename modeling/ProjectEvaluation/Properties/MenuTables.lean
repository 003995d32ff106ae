import ProjectEvaluation.Pages.MenuManagement
import ProjectEvaluation.Pages.MenuTable

/-!
# The table, the search and the walk

Three recursions over one tree of menus.

Results:
* `findMenuById_objects`: the search in the tree is the one in its JSON.
* `recursions_agree`: the rows of the table are the nodes of the tree, each once and with its
parent, and the search and the walk know these nodes and no others. -/

namespace ProjectEvaluation.Pages.MenuTable

open Python Forest
open Backend (hasId)

/-! ## Trees as JSON -/

mutual

/-- A node as JSON; `children` is left out where it is missing. -/
def MenuNode.object : MenuNode → Json
  | .node menu none =>
    .dict [(.id, .int menu.id), (.name, menu.name), (.path, menu.path), (.icon, menu.icon),
      (.parentId, menu.parentId), (.order, menu.order), (.visible, menu.visible)]
  | .node menu (some children) => menu.object (objects children)

/-- Some nodes as JSON. -/
def objects : List MenuNode → List Json
  | [] => []
  | menu :: menuList => menu.object :: objects menuList

end

/-- What an object has as its id. -/
theorem hasId_object (menuId : ℕ) (menu : MenuItem) (children : Option (List MenuNode)) :
    hasId menuId (MenuNode.node menu children).object = decide (menu.id = menuId) := by
  cases children <;> rw [MenuNode.object] <;> exact Bool.beq_eq_decide_eq menu.id menuId

mutual

theorem findInChildren_object (menuId : ℕ) (menu : MenuItem) : ∀ children : Option (List MenuNode),
    MenuManagement.findInChildren menuId (MenuNode.node menu children).object =
      (findInChildren menuId children).map MenuNode.object
  | none => rfl
  | some children => by
    rw [MenuNode.object, findInChildren]
    have hfind : MenuManagement.findInChildren menuId (menu.object (objects children)) =
        MenuManagement.findMenuById menuId (objects children) := by
      simp only [MenuItem.object, MenuManagement.findInChildren, MenuManagement.findInEntries,
        MenuManagement.findInEntry]
      cases MenuManagement.findMenuById menuId (objects children) <;> rfl
    rw [hfind, findMenuById_objects menuId children]
    split_ifs with hlength
    · rfl
    · rw [List.length_eq_zero_iff.mp (Nat.eq_zero_of_not_pos hlength), findMenuById]

/-- **The search in the JSON of a tree** finds the JSON of what the search in the tree finds. -/
theorem findMenuById_objects (menuId : ℕ) : ∀ menuList : List MenuNode,
    MenuManagement.findMenuById menuId (objects menuList) =
    (findMenuById menuId menuList).map MenuNode.object
  | [] => rfl
  | .node menu children :: menuList => by
    rw [objects, MenuManagement.findMenuById, hasId_object,
      findInChildren_object menuId menu children, findMenuById_objects menuId menuList,
      findMenuById, findInMenu]
    by_cases hid : menu.id = menuId
    · rw [if_pos (decide_eq_true hid), if_pos hid]
      rfl
    · rw [if_neg (by simpa using hid), if_neg hid]
      cases findInChildren menuId children <;> rfl

end

/-! ## Trees without missing children -/

mutual

/-- A node as the tree of the menu it stands for: missing children are no children. -/
def MenuNode.tree : MenuNode → RoseTree MenuItem
  | .node menu children => .node menu (treesBelow children)

/-- The trees below a menu. -/
def treesBelow : Option (List MenuNode) → List (RoseTree MenuItem)
  | none => []
  | some children => trees children

/-- The trees of some nodes. -/
def trees : List MenuNode → List (RoseTree MenuItem)
  | [] => []
  | menu :: menuList => menu.tree :: trees menuList

end

mutual

theorem nodes_tree : ∀ menu : MenuNode, menu.tree.nodes = menu.depthFirst.map MenuNode.item
  | .node menu children => by
    rw [MenuNode.tree, RoseTree.nodes, MenuNode.depthFirst, List.map_cons,
      nodes_treesBelow children]
    rfl

theorem nodes_treesBelow : ∀ children : Option (List MenuNode),
    RoseTree.nodesAll (treesBelow children) = (depthFirstChildren children).map MenuNode.item
  | none => rfl
  | some children => by rw [treesBelow, depthFirstChildren, nodes_trees children]

theorem nodes_trees : ∀ menuList : List MenuNode,
    RoseTree.nodesAll (trees menuList) = (depthFirst menuList).map MenuNode.item
  | [] => rfl
  | menu :: menuList => by
    rw [trees, RoseTree.nodesAll, depthFirst, List.map_append, nodes_tree menu,
      nodes_trees menuList]

end

/-! ## Parents -/

/-- The parent of a node: none at the top, or the menu whose child it is. -/
def ParentIn (menus : List MenuNode) (parent : Option MenuItem) (node : MenuNode) : Prop :=
  (parent = none ∧ node ∈ menus) ∨ ∃ p ∈ depthFirst menus, parent = some p.item ∧ node ∈ p.childList

mutual

theorem mem_withParents_node (top : Option MenuItem) (entry : Option MenuItem × MenuNode) :
    ∀ menu : MenuNode, entry ∈ menu.withParents top ↔
      (entry.1 = top ∧ entry.2 = menu) ∨ ∃ p ∈ menu.depthFirst,
        entry.1 = some p.item ∧ entry.2 ∈ p.childList
  | .node menu children => by
    rw [MenuNode.withParents, List.mem_cons, mem_withParents_children menu entry children,
      MenuNode.depthFirst, Prod.ext_iff]
    refine or_congr_right ?_
    rw [List.exists_mem_cons_iff]
    rfl

theorem mem_withParents_children (menu : MenuItem) (entry : Option MenuItem × MenuNode) :
    ∀ children : Option (List MenuNode), entry ∈ withParentsChildren menu children ↔
      (entry.1 = some menu ∧ entry.2 ∈ children.getD []) ∨
        ∃ p ∈ depthFirstChildren children, entry.1 = some p.item ∧ entry.2 ∈ p.childList
  | none => by simp [withParentsChildren, depthFirstChildren]
  | some children => by
    rw [withParentsChildren, depthFirstChildren]
    exact mem_withParents (some menu) entry children

theorem mem_withParents (top : Option MenuItem) (entry : Option MenuItem × MenuNode) :
    ∀ menuList : List MenuNode, entry ∈ withParents top menuList ↔
      (entry.1 = top ∧ entry.2 ∈ menuList) ∨ ∃ p ∈ depthFirst menuList,
        entry.1 = some p.item ∧ entry.2 ∈ p.childList
  | [] => by simp [withParents, depthFirst]
  | menu :: menuList => by
    rw [withParents, List.mem_append, mem_withParents_node top entry menu,
      mem_withParents top entry menuList, depthFirst, List.mem_cons]
    simp only [List.mem_append, or_and_right, exists_or, and_or_left]
    exact or_or_or_comm

end

/-! ## The rows of the table -/

/-- The row of a node: what the menu says, and the name of its parent or the text for none. -/
structure RowOf (menus : List MenuNode) (node : MenuNode) (row : TableRow) : Prop where
  key : row.key = node.item.id
  name : row.name = node.item.name
  path : row.path = node.item.path
  icon : row.icon = node.item.icon
  order : row.order = node.item.order
  visible : row.visible = if isTrue node.item.visible then "是" else "否"
  placed : ∃ parent, ParentIn menus parent node
  parent : ∀ parent, ParentIn menus parent node → row.parent = parent.elim (.str "无") MenuItem.name

/-- The ids of a tree, in depth-first order. -/
def treeIds (menus : List MenuNode) : List ℤ := (depthFirst menus).map fun node => node.item.id

/-- The keys of the table. -/
def tableKeys (menus : List MenuNode) : List ℤ := (buildTableData (.str "") menus).map TableRow.key

theorem tableKeys_eq (menus : List MenuNode) : tableKeys menus = treeIds menus := by
  have hrows := buildTableData_eq none menus
  rw [tableKeys, treeIds, ← withParents_nodes none menus, List.map_map]
  exact (congrArg (List.map TableRow.key) hrows).trans List.map_map

/-- Every node has one parent. -/
theorem parent_unique {menus : List MenuNode} (hids : (treeIds menus).Nodup)
    {parent parent' : Option MenuItem}
    {node : MenuNode} (h : ParentIn menus parent node) (h' : ParentIn menus parent' node) :
    parent = parent' := by
  have hnodup : ((withParents none menus).map fun entry => entry.2.item.id).Nodup := by
    rw [treeIds, ← withParents_nodes none menus, List.map_map] at hids
    exact hids
  have hmem := (mem_withParents none (parent, node) menus).mpr h
  have hmem' := (mem_withParents none (parent', node) menus).mpr h'
  exact congrArg Prod.fst (List.inj_on_of_nodup_map hnodup hmem hmem' rfl)

/-- The name of the parent in a row. -/
theorem shown_parent {menus : List MenuNode}
    (hnames : ∀ node ∈ depthFirst menus, ∃ name, name ≠ "" ∧ node.item.name = .str name)
    {parent : Option MenuItem} {node : MenuNode} (h : ParentIn menus parent node) :
    (if isTrue (parentName parent) then parentName parent else .str "无") =
      parent.elim (.str "无") MenuItem.name := by
  rcases h with ⟨rfl, -⟩ | ⟨p, hp, rfl, -⟩
  · rfl
  · obtain ⟨name, hne, hname⟩ := hnames p hp
    have htrue : isTrue p.item.name = true := by
      rw [hname]
      exact decide_eq_true hne
    exact if_pos htrue

/-- **The rows of the table** are those of the nodes, in depth-first order. -/
theorem rows_of_nodes {menus : List MenuNode} (hids : (treeIds menus).Nodup)
    (hnames : ∀ node ∈ depthFirst menus, ∃ name, name ≠ "" ∧ node.item.name = .str name) :
    List.Forall₂ (RowOf menus) (depthFirst menus) (buildTableData (.str "") menus) := by
  have hrows : buildTableData (.str "") menus = (withParents none menus).map rowOf :=
    buildTableData_eq none menus
  rw [hrows, ← withParents_nodes none menus, List.forall₂_map_left_iff, List.forall₂_map_right_iff,
    List.forall₂_same]
  intro entry hentry
  have hparent : ParentIn menus entry.1 entry.2 := (mem_withParents none entry menus).mp hentry
  refine ⟨rfl, rfl, rfl, rfl, rfl, rfl, ⟨entry.1, hparent⟩, fun parent h => ?_⟩
  rw [parent_unique hids h hparent]
  exact shown_parent hnames hparent

/-! ## The three recursions -/

theorem find_unique {menus : List MenuNode} (hids : (treeIds menus).Nodup) {node : MenuNode}
    (hnode : node ∈ depthFirst menus) : findMenuById node.item.id menus = some node := by
  rw [findMenuById_eq]
  cases hfind : (depthFirst menus).find? fun other => other.item.id = node.item.id with
  | none =>
    have hno := List.find?_eq_none.mp hfind node hnode
    simp at hno
  | some other =>
    have hid : other.item.id = node.item.id := by simpa using List.find?_some hfind
    rw [List.inj_on_of_nodup_map hids (List.mem_of_find?_eq_some hfind) hnode hid]

/-- **The recursions agree.** In a tree with distinct ids and non-empty names, the table has a row
    for each node in depth-first order, with the name of its parent; the search finds the node of
    every id of the table and nothing else; and the walk collects the keys of the table. -/
theorem recursions_agree {menus : List MenuNode} (hids : (treeIds menus).Nodup)
    (hnames : ∀ node ∈ depthFirst menus, ∃ name, name ≠ "" ∧ node.item.name = .str name) :
    List.Forall₂ (RowOf menus) (depthFirst menus) (buildTableData (.str "") menus) ∧
      (tableKeys menus).Nodup ∧
      (∀ id ∈ tableKeys menus, ∃ node ∈ depthFirst menus,
        node.item.id = id ∧ findMenuById id menus = some node) ∧
      (∀ id, id ∉ tableKeys menus → findMenuById id menus = none) ∧
      collectMenuIds [] menus = tableKeys menus := by
  refine ⟨rows_of_nodes hids hnames, tableKeys_eq menus ▸ hids, fun id hid => ?_,
    fun id hid => ?_, ?_⟩
  · rw [tableKeys_eq, treeIds] at hid
    obtain ⟨node, hnode, rfl⟩ := List.mem_map.mp hid
    exact ⟨node, hnode, rfl, find_unique hids hnode⟩
  · rw [findMenuById_eq, List.find?_eq_none]
    intro node hnode hfound
    rw [tableKeys_eq] at hid
    exact hid (List.mem_map.mpr ⟨node, hnode, by simpa using hfound⟩)
  · rw [tableKeys_eq, collectMenuIds_eq]
    exact foldl_addId hids

/-- A menu with a name at its place in a tree. -/
def namedMenu (id : ℤ) (name : String) (parentId : Json) : MenuItem where
  id := id
  name := .str name
  path := .str "/system"
  icon := .null
  parentId := parentId
  order := .int 1
  visible := .bool true

/-- Three menus; one has no `children`, and one has an empty list. -/
def threeNodes : List MenuNode :=
  [.node (namedMenu 1 "系统设置" .null)
    (some [.node (namedMenu 2 "用户管理" (.int 1)) none,
      .node (namedMenu 3 "角色授权" (.int 1)) (some [])])]

/-- The recursions agree on the three menus. -/
theorem recursions_agree_three :
    List.Forall₂ (RowOf threeNodes) (depthFirst threeNodes) (buildTableData (.str "") threeNodes) ∧
      (tableKeys threeNodes).Nodup ∧
      (∀ id ∈ tableKeys threeNodes, ∃ node ∈ depthFirst threeNodes, node.item.id = id ∧
        findMenuById id threeNodes = some node) ∧
      (∀ id, id ∉ tableKeys threeNodes → findMenuById id threeNodes = none) ∧
      collectMenuIds [] threeNodes = tableKeys threeNodes := by
  refine recursions_agree (by decide) fun node hnode => ?_
  have hthree : node.item.name ∈ (depthFirst threeNodes).map fun node => node.item.name :=
    List.mem_map_of_mem hnode
  simp only [List.mem_cons, threeNodes, depthFirst, MenuNode.depthFirst, depthFirstChildren,
    List.map_cons, List.map_nil, List.append_nil, List.cons_append, List.nil_append, MenuNode.item,
    namedMenu, List.not_mem_nil, or_false] at hthree
  rcases hthree with hname | hname | hname
  · exact ⟨"系统设置", by decide, hname⟩
  · exact ⟨"用户管理", by decide, hname⟩
  · exact ⟨"角色授权", by decide, hname⟩

end ProjectEvaluation.Pages.MenuTable
