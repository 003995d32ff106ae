import ProjectEvaluation.Pages.Role

/-!
# The recursions over a tree of menus

`buildTableData` and `findMenuById` of `Menu.jsx` and `collectMenuIds` of `Role.jsx`, on trees in
which a menu may come without `children`.

Results:
* `buildTableData_eq`: there is a row for each menu, in depth-first order.
* `findMenuById_eq`: the search finds the first menu with the id in this order.
* `collectMenuIds_eq`: the walk collects the ids in this order. -/

namespace ProjectEvaluation.Pages.MenuTable

open Python

/-- A menu with its `children`, which may be missing. -/
inductive MenuNode
  | node (menu : MenuItem) (children : Option (List MenuNode))

/-- The menu of a node. -/
def MenuNode.item : MenuNode → MenuItem
  | .node menu _ => menu

/-- The children of a node: none where they are missing. -/
def MenuNode.childList : MenuNode → List MenuNode
  | .node _ children => children.getD []

/-! ## The table of `Menu.jsx` -/

/-- The truth of a value in JavaScript. -/
def isTrue : Json → Bool
  | .null => false
  | .bool b => b
  | .int n => n ≠ 0
  | .float .nan => false
  | .float (.finite x) => x.value ≠ 0
  | .float (.inf _) => true
  | .str s => s ≠ ""
  | .list _ => true
  | .dict _ => true

/-- A row of the table (`Menu.jsx`, lines 257–265). -/
structure TableRow where
  key : ℤ
  name : Json
  path : Json
  icon : Json
  parent : Json
  order : Json
  visible : String

/-- The row of a menu (`Menu.jsx`, lines 257–265). -/
def tableRow (parentName : Json) (menu : MenuItem) : TableRow where
  key := menu.id
  name := menu.name
  path := menu.path
  icon := menu.icon
  parent := if isTrue parentName then parentName else .str "无"
  order := menu.order
  visible := if isTrue menu.visible then "是" else "否"

mutual

/-- The body of the loop of `buildTableData` (`Menu.jsx`, lines 256–269). -/
def addRows (parentName : Json) : MenuNode → List TableRow
  | .node menu children => tableRow parentName menu :: addChildren menu.name children

/-- The rows of the children of a menu, where it has any (`Menu.jsx`, lines 266–268). -/
def addChildren (parentName : Json) : Option (List MenuNode) → List TableRow
  | none => []
  | some children => if 0 < children.length then buildTableData parentName children else []

/-- `buildTableData`, with the default `''` for the name of the parent (`Menu.jsx`, lines 254–271).
    -/
def buildTableData (parentName : Json) : List MenuNode → List TableRow
  | [] => []
  | menu :: menuList => addRows parentName menu ++ buildTableData parentName menuList

end

/-! ## The search of `Menu.jsx` -/

mutual

/-- The body of the loop of `findMenuById` (`Menu.jsx`, lines 163–173). -/
def findInMenu (menuId : ℤ) : MenuNode → Option MenuNode
  | .node menu children => if menu.id = menuId then some (.node menu children)
      else findInChildren menuId children

/-- The search in the children of a menu, where it has any (`Menu.jsx`, lines 167–172). -/
def findInChildren (menuId : ℤ) : Option (List MenuNode) → Option MenuNode
  | none => none
  | some children => if 0 < children.length then findMenuById menuId children else none

/-- `findMenuById` (`Menu.jsx`, lines 162–175); `none` is `null`. -/
def findMenuById (menuId : ℤ) : List MenuNode → Option MenuNode
  | [] => none
  | menu :: menuList =>
    match findInMenu menuId menu with
    | some found => some found
    | none => findMenuById menuId menuList

end

/-! ## The walk of `Role.jsx` -/

mutual

/-- The body of the loop of `collectMenuIds` (`Role.jsx`, lines 86–91). -/
def collectMenu (allMenuIds : List ℤ) : MenuNode → List ℤ
  | .node menu children => collectChildren (addId allMenuIds menu.id) children

/-- The walk over the children of a menu, where it has `children` (`Role.jsx`, lines 88–90). -/
def collectChildren (allMenuIds : List ℤ) : Option (List MenuNode) → List ℤ
  | none => allMenuIds
  | some children => collectMenuIds allMenuIds children

/-- `collectMenuIds` (`Role.jsx`, lines 85–92). -/
def collectMenuIds (allMenuIds : List ℤ) : List MenuNode → List ℤ
  | [] => allMenuIds
  | menu :: menuList => collectMenuIds (collectMenu allMenuIds menu) menuList

end

/-! ## Depth-first order -/

mutual

/-- A node and what is below it, in depth-first order. -/
def MenuNode.depthFirst : MenuNode → List MenuNode
  | .node menu children => .node menu children :: depthFirstChildren children

/-- What is below a menu. -/
def depthFirstChildren : Option (List MenuNode) → List MenuNode
  | none => []
  | some children => depthFirst children

/-- The nodes of a tree, in depth-first order. -/
def depthFirst : List MenuNode → List MenuNode
  | [] => []
  | menu :: menuList => menu.depthFirst ++ depthFirst menuList

end

mutual

/-- The nodes with their parents, in depth-first order. -/
def MenuNode.withParents (parent : Option MenuItem) : MenuNode → List (Option MenuItem × MenuNode)
  | .node menu children => (parent, .node menu children) :: withParentsChildren menu children

/-- The nodes below a menu. -/
def withParentsChildren (menu : MenuItem) :
    Option (List MenuNode) → List (Option MenuItem × MenuNode)
  | none => []
  | some children => withParents (some menu) children

/-- The nodes of a tree that is below some menu, or at the top. -/
def withParents (parent : Option MenuItem) : List MenuNode → List (Option MenuItem × MenuNode)
  | [] => []
  | menu :: menuList => menu.withParents parent ++ withParents parent menuList

end

/-- What `buildTableData` gets as the name of the parent. -/
def parentName (parent : Option MenuItem) : Json := parent.elim (.str "") MenuItem.name

/-- The row of a node. -/
def rowOf (entry : Option MenuItem × MenuNode) : TableRow :=
  tableRow (parentName entry.1) entry.2.item

mutual

theorem addRows_eq (parent : Option MenuItem) :
    ∀ menu : MenuNode, addRows (parentName parent) menu = (menu.withParents parent).map rowOf
  | .node menu children => by
    rw [addRows, MenuNode.withParents, List.map_cons, addChildren_eq menu children]
    rfl

theorem addChildren_eq (menu : MenuItem) :
    ∀ children : Option (List MenuNode),
      addChildren menu.name children = (withParentsChildren menu children).map rowOf
  | none => by rw [addChildren, withParentsChildren, List.map_nil]
  | some children => by
    rw [addChildren, withParentsChildren, ← buildTableData_eq (some menu) children]
    split_ifs with hlength
    · rfl
    · rw [List.length_eq_zero_iff.mp (Nat.eq_zero_of_not_pos hlength), buildTableData]

/-- **The rows** are those of the nodes, each with its parent, in depth-first order. -/
theorem buildTableData_eq (parent : Option MenuItem) :
    ∀ menuList : List MenuNode,
      buildTableData (parentName parent) menuList = (withParents parent menuList).map rowOf
  | [] => by rw [buildTableData, withParents, List.map_nil]
  | menu :: menuList => by
    rw [buildTableData, withParents, List.map_append, addRows_eq parent menu,
      buildTableData_eq parent menuList]

end

mutual

theorem withParents_node (parent : Option MenuItem) :
    ∀ menu : MenuNode, (menu.withParents parent).map Prod.snd = menu.depthFirst
  | .node menu children => by
    rw [MenuNode.withParents, MenuNode.depthFirst, List.map_cons,
      withParents_children menu children]

theorem withParents_children (menu : MenuItem) : ∀ children : Option (List MenuNode),
    (withParentsChildren menu children).map Prod.snd = depthFirstChildren children
  | none => by rw [withParentsChildren, depthFirstChildren, List.map_nil]
  | some children => by
    rw [withParentsChildren, depthFirstChildren, withParents_nodes (some menu) children]

theorem withParents_nodes (parent : Option MenuItem) :
    ∀ menuList : List MenuNode, (withParents parent menuList).map Prod.snd = depthFirst menuList
  | [] => by rw [withParents, depthFirst, List.map_nil]
  | menu :: menuList => by
    rw [withParents, depthFirst, List.map_append, withParents_node parent menu,
      withParents_nodes parent menuList]

end

mutual

theorem findInMenu_eq (menuId : ℤ) :
    ∀ menu : MenuNode, findInMenu menuId menu = menu.depthFirst.find? fun node =>
      node.item.id = menuId
  | .node menu children => by
    rw [findInMenu, MenuNode.depthFirst, List.find?_cons, findInChildren_eq menuId children]
    by_cases hid : menu.id = menuId
    · rw [if_pos hid]
      simp [MenuNode.item, hid]
    · rw [if_neg hid]
      simp [MenuNode.item, hid]

theorem findInChildren_eq (menuId : ℤ) : ∀ children : Option (List MenuNode),
    findInChildren menuId children = (depthFirstChildren children).find? fun node =>
      node.item.id = menuId
  | none => by rw [findInChildren, depthFirstChildren, List.find?_nil]
  | some children => by
    rw [findInChildren, depthFirstChildren, ← findMenuById_eq menuId children]
    split_ifs with hlength
    · rfl
    · rw [List.length_eq_zero_iff.mp (Nat.eq_zero_of_not_pos hlength), findMenuById]

/-- **The search** finds the first node with the id in depth-first order. -/
theorem findMenuById_eq (menuId : ℤ) : ∀ menuList : List MenuNode,
    findMenuById menuId menuList = (depthFirst menuList).find? fun node => node.item.id = menuId
  | [] => by rw [findMenuById, depthFirst, List.find?_nil]
  | menu :: menuList => by
    rw [findMenuById, depthFirst, List.find?_append, ← findInMenu_eq menuId menu,
      ← findMenuById_eq menuId menuList]
    cases findInMenu menuId menu with
    | none => rfl
    | some found => rfl

end

mutual

theorem collectMenu_eq (ids : List ℤ) :
    ∀ menu : MenuNode, collectMenu ids menu =
      (menu.depthFirst.map fun node => node.item.id).foldl addId ids
  | .node menu children => by
    rw [collectMenu, MenuNode.depthFirst, List.map_cons, List.foldl_cons,
      collectChildren_eq _ children]
    rfl

theorem collectChildren_eq (ids : List ℤ) : ∀ children : Option (List MenuNode),
    collectChildren ids children =
    ((depthFirstChildren children).map fun node => node.item.id).foldl addId ids
  | none => by rw [collectChildren, depthFirstChildren, List.map_nil, List.foldl_nil]
  | some children => by rw [collectChildren, depthFirstChildren, collectMenuIds_eq ids children]

/-- **The walk** adds the ids in depth-first order. -/
theorem collectMenuIds_eq (ids : List ℤ) : ∀ menuList : List MenuNode,
    collectMenuIds ids menuList =
    ((depthFirst menuList).map fun node => node.item.id).foldl addId ids
  | [] => by rw [collectMenuIds, depthFirst, List.map_nil, List.foldl_nil]
  | menu :: menuList => by
    rw [collectMenuIds, depthFirst, List.map_append, List.foldl_append, collectMenu_eq ids menu,
      collectMenuIds_eq _ menuList]

end

end ProjectEvaluation.Pages.MenuTable
