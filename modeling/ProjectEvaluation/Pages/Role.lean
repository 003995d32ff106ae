import ProjectEvaluation.JavaScript.Text
import ProjectEvaluation.Pages.Menus

/-!
# `Role.jsx`

The permissions of a role in a tree of check boxes.

Results:
* `newPermissions_eq`: a change of the check boxes makes a permission for each menu of the
  tree.
-/

namespace ProjectEvaluation.Pages

open Python Forest JavaScript

/-- An entry of a list of permissions (`Role.jsx`, lines 99–102). -/
structure Permission where
  menuId : ℤ
  canAccess : Bool
  deriving DecidableEq

/-- An entry as JSON. -/
def Permission.json (p : Permission) : Json :=
  .dict [(.menuId, .int p.menuId), (.canAccess, .bool p.canAccess)]

/-- The state of the page (`Role.jsx`, lines 10–15). -/
structure RolePage where
  menus : List (RoseTree MenuItem)
  selectedRole : Option ℕ
  permissions : List Json
  isModalVisible : Bool

/-- `handleEditRole` (lines 53–57); it sends `GET /api/role-permissions/<role>`. -/
def RolePage.handleEditRole (page : RolePage) (role : ℕ) : RolePage :=
  { page with selectedRole := some role, isModalVisible := true }

/-- `setPermissions(response.data)` (`Role.jsx`, lines 38–45). -/
def RolePage.setPermissions (page : RolePage) (permissions : List Json) : RolePage :=
  { page with permissions }

/-- `setIsModalVisible(false)` (`Role.jsx`, line 116). -/
def RolePage.close (page : RolePage) : RolePage := { page with isModalVisible := false }

/-! ## Check boxes -/

/-- `allMenuIds.add(id)`: a set keeps the order of its first insertions. -/
def addId (allMenuIds : List ℤ) (id : ℤ) : List ℤ :=
  if id ∈ allMenuIds then allMenuIds else allMenuIds ++ [id]

mutual

/-- The body of the loop of `collectMenuIds` (`Role.jsx`, lines 86–91). -/
def collectMenuId (allMenuIds : List ℤ) : RoseTree MenuItem → List ℤ
  | .node menu children => collectMenuIds (addId allMenuIds menu.id) children

/-- `collectMenuIds` (`Role.jsx`, lines 85–92). -/
def collectMenuIds (allMenuIds : List ℤ) : List (RoseTree MenuItem) → List ℤ
  | [] => allMenuIds
  | menu :: menuList => collectMenuIds (collectMenuId allMenuIds menu) menuList

end

/-- The permissions for some keys of the check boxes (`Role.jsx`, lines 96–102). -/
def newPermissions (menus : List (RoseTree MenuItem)) (checkedKeys : List String) :
    List Permission :=
  let checkedIds := checkedKeys.map parseInt
  (collectMenuIds [] menus).map fun menuId => ⟨menuId, checkedIds.contains (some menuId)⟩

/-- `handlePermissionChange` (`Role.jsx`, lines 74–106); `none` for keys that are no array. -/
def RolePage.handlePermissionChange (page : RolePage) : Option (List String) → RolePage
  | none => page
  | some checkedKeys =>
    page.setPermissions ((newPermissions page.menus checkedKeys).map Permission.json)

/-- The keys of the boxes that are checked. -/
def checkedKeys (permissions : List Permission) : List String :=
  (permissions.filter Permission.canAccess).map fun p => toString p.menuId

/-- `checkedKeys={permissions.filter(p => p.can_access).map(p => p.menu_id.toString())}` (`Role.jsx`
    line 188). The ids of menus are integers. -/
def displayedKeys (permissions : List Json) : List String :=
  permissions.filterMap fun p =>
    match p.item .canAccess, p.item .menuId with
    | .ok access, .ok (.int menuId) => if access.truthy then some (toString menuId) else none
    | _, _ => none

/-- What the `Tree` component passes to `onCheck`, from its nodes, its checked keys and the key of
    the box that is clicked (`Role.jsx`, line 185). -/
abbrev OnCheck := List (RoseTree MenuItem) → List String → String → List String

/-- The list after a click on a box. -/
def checkBox (onCheck : OnCheck) (menus : List (RoseTree MenuItem)) (permissions : List Json)
    (key : String) :
    List Json :=
  (newPermissions menus (onCheck menus (displayedKeys permissions) key)).map Permission.json

/-- `handleSavePermissions` (`Role.jsx`, lines 109–122): the role and the list of the POST. -/
def RolePage.handleSavePermissions (page : RolePage) : Option (ℕ × List Json) :=
  page.selectedRole.map fun role => (role, page.permissions)

/-! ## What the walk collects -/

mutual

theorem collectMenuId_eq (ids : List ℤ) :
    ∀ t : RoseTree MenuItem, collectMenuId ids t = (t.nodes.map MenuItem.id).foldl addId ids
  | .node menu children => by
    rw [collectMenuId, collectMenuIds_eq, RoseTree.nodes, List.map_cons, List.foldl_cons]

theorem collectMenuIds_eq (ids : List ℤ) :
    ∀ ts : List (RoseTree MenuItem),
      collectMenuIds ids ts = ((RoseTree.nodesAll ts).map MenuItem.id).foldl addId ids
  | [] => rfl
  | t :: ts => by
    rw [collectMenuIds, collectMenuIds_eq, collectMenuId_eq, RoseTree.nodesAll, List.map_append,
      List.foldl_append]

end

/-- Ids that are new are added in their order. -/
theorem foldl_addId {ids new : List ℤ} (h : (ids ++ new).Nodup) :
    new.foldl addId ids = ids ++ new := by
  induction new generalizing ids with
  | nil => exact (List.append_nil ids).symm
  | cons id new ih =>
    have hid : id ∉ ids :=
      fun hmem => (List.nodup_append.mp h).2.2 id hmem id List.mem_cons_self rfl
    have hsplit : ids ++ id :: new = (ids ++ [id]) ++ new := by
      rw [List.append_assoc, List.singleton_append]
    rw [List.foldl_cons, addId, if_neg hid, ih (hsplit ▸ h), hsplit]

theorem collectMenuIds_of_nodup {menus : List (RoseTree MenuItem)} (h : (menuIds menus).Nodup) :
    collectMenuIds [] menus = menuIds menus := by
  rw [collectMenuIds_eq, RoseTree.nodesAll_eq]
  exact foldl_addId h

/-- **A permission for each menu** of the tree, granted where its key is checked. -/
theorem newPermissions_eq {menus : List (RoseTree MenuItem)} (h : (menuIds menus).Nodup)
    (checked : List ℤ) :
    newPermissions menus (checked.map toString) = (menuIds menus).map fun id =>
      ⟨id, decide (id ∈ checked)⟩ := by
  have hids : (checked.map (toString : ℤ → String)).map parseInt = checked.map some := by
    rw [List.map_map]
    exact List.map_congr_left fun id _ => parseInt_toString id
  unfold newPermissions
  simp only [collectMenuIds_of_nodup h, hids]
  refine List.map_congr_left fun id _ => ?_
  congr 1
  rw [Bool.eq_iff_iff, List.contains_iff_mem, decide_eq_true_eq]
  simp

end ProjectEvaluation.Pages
