import ProjectEvaluation.Lib.Forest
import ProjectEvaluation.Python.Json

/-!
# The menus in the pages

`GET /api/menus` answers with a list of trees; the pages walk them.
-/

namespace ProjectEvaluation.Pages

open Python Forest

/-- A menu as `get_menus` answers it, apart from its children. -/
structure MenuItem where
  id : ℤ
  name : Json
  path : Json
  icon : Json
  parentId : Json
  order : Json
  visible : Json

/-- A menu with its children. -/
def MenuItem.object (menu : MenuItem) (children : List Json) : Json :=
  .dict [(.id, .int menu.id), (.name, menu.name), (.path, menu.path), (.icon, menu.icon),
    (.parentId, menu.parentId), (.order, menu.order), (.visible, menu.visible),
    (.children, .list children)]

/-- The answer of `get_menus` with some menus. -/
def menusBody (menus : List (RoseTree MenuItem)) : Json :=
  .list (menus.map (RoseTree.fold MenuItem.object))

/-- The ids of some menus, from the top down. -/
def menuIds (menus : List (RoseTree MenuItem)) : List ℤ :=
  (menus.flatMap RoseTree.nodes).map MenuItem.id

end ProjectEvaluation.Pages
