import ProjectEvaluation.Pages.Menus

/-!
# `Layout.jsx`: the sidebar

Results:
* `generateMenuItems_eq`: there is an item for each menu of the tree, in its place.
-/

namespace ProjectEvaluation.Pages

open Python Forest

/-- What `renderMenuIcon` shows (`Layout.jsx`, lines 238–270): an image, or an icon of `iconMap`. -/
inductive MenuIcon
  | image (src : String)
  | named (name : String)
  deriving DecidableEq

/-- The names of `iconMap` (`Layout.jsx`, lines 217–235). -/
def iconNames : List String :=
  ["todo", "notification", "research", "implementation", "learning", "project", "list", "training",
   "courseware", "system", "user", "role", "skin", "dict", "menu", "standard"]

/-- `icon.startsWith(start)`. -/
def startsWith (icon start : String) : Bool := start.toList.isPrefixOf icon.toList

/-- `renderMenuIcon` (`Layout.jsx`, lines 238–270). -/
def renderMenuIcon : Json → Option MenuIcon
  | .str icon =>
    if icon = "" then none
    else if startsWith icon "data:image" then some (.image icon)
    else if startsWith icon "http" then some (.image icon)
    else if icon ∈ iconNames then some (.named icon)
    else none
  | _ => none

/-- An item of the sidebar (`Layout.jsx`, lines 276–287). `menu` is not part of it: the menu that it
    was made for. -/
structure SidebarItem where
  menu : MenuItem
  key : Json
  label : Json
  icon : Option MenuIcon

/-- The item of a menu (`Layout.jsx`, lines 275–287). -/
def sidebarItem (menu : MenuItem) : SidebarItem where
  menu
  key := menu.path
  label := menu.name
  icon := renderMenuIcon menu.icon

mutual

/-- The item of a menu and those below it (`Layout.jsx`, lines 274–288); without children it has no
    `children`. -/
def generateMenuItem : RoseTree MenuItem → RoseTree SidebarItem
  | .node menu children =>
    if 0 < children.length then .node (sidebarItem menu) (generateMenuItems children)
    else .node (sidebarItem menu) []

/-- `generateMenuItems` (`Layout.jsx`, lines 273–289). -/
def generateMenuItems : List (RoseTree MenuItem) → List (RoseTree SidebarItem)
  | [] => []
  | menu :: menuList => generateMenuItem menu :: generateMenuItems menuList

end

mutual

theorem generateMenuItem_eq :
    ∀ menu : RoseTree MenuItem, generateMenuItem menu = menu.map sidebarItem
  | .node menu children => by
    rw [generateMenuItem, RoseTree.map_node, generateMenuItems_eq children]
    split_ifs with hlength
    · rfl
    · rw [List.length_eq_zero_iff.mp (Nat.eq_zero_of_not_pos hlength), List.map_nil]

/-- **The items are those of the menus**, all of them and in their order. -/
theorem generateMenuItems_eq : ∀ menuList : List (RoseTree MenuItem),
    generateMenuItems menuList = menuList.map (RoseTree.map sidebarItem)
  | [] => by rw [generateMenuItems, List.map_nil]
  | menu :: menuList => by
    rw [generateMenuItems, List.map_cons, generateMenuItem_eq menu, generateMenuItems_eq menuList]

end

end ProjectEvaluation.Pages
