import ProjectEvaluation.Pages.Role
import ProjectEvaluation.Properties.Imports
import ProjectEvaluation.Properties.MenuTree

/-!
# Saving the permissions of a role

Results:
* `saved_permissions`: after a save the role has one permission for each menu of the tree,
  granted where its box is checked, and the other roles have what they had.
-/

namespace ProjectEvaluation.Backend

open Python Relational Transaction Forest Pages

/-! ## The tree in the page -/

/-- A menu as the page gets it. -/
def itemOf (menu : Record) : MenuItem where
  id := menu.id
  name := shown menu .name
  path := shown menu .path
  icon := shown menu .icon
  parentId := shown menu .parentId
  order := shown menu .order
  visible := shown menu .visible

/-- **The answer of `get_menus`** is a list of trees the page can walk. -/
theorem getMenus_items {db : DB} {ts : List (RoseTree Record)}
    (h : forest (db .menu) isRoot isParent = some ts) :
    getMenus db = { status := 200, body := menusBody (ts.map (RoseTree.map itemOf)) } ∧
      menuIds (ts.map (RoseTree.map itemOf)) = (ts.flatMap RoseTree.nodes).map fun menu =>
        (menu.id : ℤ) := by
  constructor
  · rw [getMenus_eq h, menusBody, List.map_map]
    congr 2
    exact List.map_congr_left fun t _ => (RoseTree.fold_map itemOf MenuItem.object t).symm
  · rw [menuIds, List.flatMap_map]
    simp only [RoseTree.nodes_map]
    rw [← List.map_flatMap, List.map_map]
    rfl

/-! ## The rows of the permissions -/

/-- The attributes of the row of a permission. -/
def permissionAttrs (roleId : ℕ) (p : Permission) : List (Field × Attr) :=
  [(.roleId, .json (.int roleId)), (.menuId, .json (.int p.menuId)),
    (.canAccess, .json (.bool p.canAccess))]

theorem newPermission_json (k : Clock) (roleId : ℕ) (p : Permission) :
    newPermission k roleId p.json =
      .ok (some (.insert k .rolePermission (permissionAttrs roleId p))) :=
      rfl

theorem stagedOps_permissions (k : Clock) (roleId : ℕ) (entries : List Permission) :
    stagedOps ((entries.map Permission.json).map (newPermission k roleId)) =
      .ok ((entries.map (permissionAttrs roleId)).map (.insert k .rolePermission)) := by
  rw [stagedOps_eq_ok]
  constructor
  · intro x hx
    rw [List.map_map] at hx
    obtain ⟨p, -, rfl⟩ := List.mem_map.mp hx
    exact ⟨_, newPermission_json k roleId p⟩
  · simp only [List.map_map, List.filterMap_map]
    induction entries with
    | nil => rfl
    | cons p entries ih =>
      rw [List.map_cons, List.filterMap_cons, ih]
      rfl

/-- The row of a permission. -/
theorem cells_of_built {k : Clock} {roleId : ℕ} {p : Permission} {row : Record}
    (h : Built k .rolePermission (permissionAttrs roleId p) row) :
    row.cell .roleId = .int roleId ∧ object [.menuId, .canAccess] row = p.json := by
  have hrole : row.cell .roleId = .int roleId :=
    bindJson_int (h _ (List.mem_of_getElem? (i := 0) rfl))
  have hmenu : row.cell .menuId = .int p.menuId :=
    bindJson_int (h _ (List.mem_of_getElem? (i := 1) rfl))
  have haccess : row.cell .canAccess = .bool p.canAccess :=
    (Except.ok.inj (h _ (List.mem_of_getElem? (i := 2) rfl))).symm
  refine ⟨hrole, ?_⟩
  simp only [object, List.map_cons, List.map_nil, shown, hmenu, haccess]
  rfl

/-- The permission rows of the other roles. -/
def otherRoles (roleId : ℕ) (db : DB) : List Record :=
  (db .rolePermission).filter fun row => row.cell .roleId ≠ .int roleId

/-- The permission rows of a role. -/
def ownRows (roleId : ℕ) (db : DB) : List Record :=
  (db .rolePermission).filter fun row => row.cell .roleId = .int roleId

theorem getRolePermissions_eq {roleId : ℕ} (h : inInt64 roleId = true) (db : DB) :
    getRolePermissions roleId db =
      { status := 200
        body := .list ((ownRows roleId db).map (object [.menuId, .canAccess])) } := by
  have hbind : bindJson .integer (.int roleId) = .ok (.int roleId) := by simp [bindJson, h]
  have hrows : ((db .rolePermission).filter fun r => Value.int roleId ≠ .null ∧
      r.cell .roleId = .int roleId) =
      ownRows roleId db := by
    refine List.filter_congr fun r _ => ?_
    simp
  have hfilter : filterBy .rolePermission .roleId (.int roleId) db =
      .ok ((db .rolePermission).filter fun r => Value.int roleId ≠ .null ∧
        r.cell .roleId = .int roleId) :=
    filterBy_of_bind (c := required .roleId .integer |>.to .role) rfl (by simp) hbind
  rw [getRolePermissions, hfilter, hrows]

/-- **A save** replaces the permissions of the role and leaves those of the others. -/
theorem updateRolePermissions_entries {k : Clock} {roleId : ℕ} {entries : List Permission} {db : DB}
    {out : Response × DB}
    (hout : run (updateRolePermissions k roleId (.json (.list (entries.map Permission.json)))) db =
      out)
    (h : out.1.Success) :
    getRolePermissions roleId out.2 =
      { status := 200, body := .list (entries.map Permission.json) } ∧
      otherRoles roleId out.2 = otherRoles roleId db := by
  rcases updateRolePermissions_cases hout with ⟨hbad, -⟩ |
    ⟨-, data, perms, ops, hbody, hiter, hops, hall⟩
  · exact absurd h hbad
  cases hbody
  obtain rfl : perms = entries.map Permission.json := (Except.ok.inj hiter).symm
  rw [stagedOps_permissions] at hops
  cases hops
  rw [applyAll_cons, bind_eq_ok] at hall
  obtain ⟨w, hdelete, hinsert⟩ := hall
  obtain ⟨hrange, rfl⟩ := deleteWhere_eq_ok.mp hdelete
  obtain ⟨new, hnew, hbuilt, -⟩ := insertAll_new hinsert
  rw [removeWhere, Function.update_self] at hnew
  rw [List.forall₂_map_left_iff] at hbuilt
  have hcells : ∀ row ∈ new, row.cell .roleId = .int roleId := by
    intro row hrow
    obtain ⟨p, -, hbuilt⟩ := exists_of_forall₂ hbuilt.flip row hrow
    exact (cells_of_built hbuilt).1
  have hown : ownRows roleId out.2 = new := by
    rw [ownRows, hnew, List.filter_append, List.filter_filter]
    have hold : ((db .rolePermission).filter fun row =>
        decide (row.cell .roleId = .int roleId) && !(row.cell .roleId == .int roleId)) = [] := by
      rw [List.filter_eq_nil_iff]
      intro row _
      by_cases hrole : row.cell .roleId = .int roleId <;> simp [hrole]
    rw [hold, List.nil_append, List.filter_eq_self]
    exact fun row hrow => decide_eq_true (hcells row hrow)
  constructor
  · have hshown : new.map (object [.menuId, .canAccess]) = entries.map Permission.json := by
      rw [← List.forall₂_eq_eq_eq, List.forall₂_map_left_iff, List.forall₂_map_right_iff]
      exact hbuilt.flip.imp fun row p hrow => (cells_of_built hrow).2
    rw [getRolePermissions_eq hrange, hown, hshown]
  · have hnone : (new.filter fun row => decide (row.cell .roleId ≠ .int roleId)) = [] := by
      rw [List.filter_eq_nil_iff]
      intro row hrow
      simp [hcells row hrow]
    rw [otherRoles, otherRoles, hnew, List.filter_append, hnone, List.append_nil,
      List.filter_filter]
    refine List.filter_congr fun row _ => ?_
    by_cases hrole : row.cell .roleId = .int roleId <;> simp [hrole]

/-- **The permissions of a role** after a save. Whatever the table held, the role has one
    permission for each menu of the tree and no other, granted exactly where the box of the
    menu is checked; the boxes of the dialog that is opened next are those; and the other
    roles have the rows they had. -/
theorem saved_permissions (k : Clock) (db : DB) (roleId : ℕ) (page : RolePage)
    (hids : (menuIds page.menus).Nodup)
    (checked : List ℤ) (posted : List Json)
    (hpost : (page.handlePermissionChange (some (checked.map toString))).handleSavePermissions =
      some (roleId, posted))
    (hsaved : (run (updateRolePermissions k roleId (.json (.list posted))) db).1.Success) :
    (∃ entries : List Permission,
      getRolePermissions roleId (run (updateRolePermissions k roleId (.json (.list posted))) db).2 =
          { status := 200, body := .list (entries.map Permission.json) } ∧
        entries.map Permission.menuId = menuIds page.menus ∧
        (∀ p ∈ entries, p.canAccess = true ↔ p.menuId ∈ checked) ∧
        checkedKeys entries = ((menuIds page.menus).filter (· ∈ checked)).map toString) ∧
      otherRoles roleId (run (updateRolePermissions k roleId (.json (.list posted))) db).2 =
        otherRoles roleId db := by
  have hposted : posted = (newPermissions page.menus (checked.map toString)).map
      Permission.json := by
    unfold RolePage.handleSavePermissions at hpost
    obtain ⟨role, -, hpair⟩ := Option.map_eq_some_iff.mp hpost
    exact (Prod.ext_iff.mp hpair).2.symm
  subst hposted
  obtain ⟨hown, hothers⟩ := updateRolePermissions_entries rfl hsaved
  refine ⟨⟨_, hown, ?_, ?_, ?_⟩, hothers⟩
  · rw [newPermissions_eq hids, List.map_map]
    exact List.map_id _
  · rw [newPermissions_eq hids]
    intro p hp
    obtain ⟨id, -, rfl⟩ := List.mem_map.mp hp
    exact decide_eq_true_iff
  · rw [newPermissions_eq hids, checkedKeys, List.filter_map, List.map_map]
    rfl

/-- A page with two menus, the second below the first, that is open for a role. -/
def twoMenus : RolePage where
  menus := [.node ⟨1, .str "系统", .str "/system", .null, .null, .int 0, .bool true⟩
    [.node ⟨2, .str "角色", .str "/role", .null, .int 1, .int 0, .bool true⟩ []]]
  selectedRole := some 7
  permissions := []
  isModalVisible := true

/-- A save with the second box checked. -/
theorem saved_permissions_two :
    (∃ entries : List Permission,
      getRolePermissions 7 (run (updateRolePermissions .epoch 7 (.json (.list
          ((newPermissions twoMenus.menus ["2"]).map Permission.json)))) fun _ => []).2 =
          { status := 200, body := .list (entries.map Permission.json) } ∧
        entries.map Permission.menuId = menuIds twoMenus.menus ∧
        (∀ p ∈ entries, p.canAccess = true ↔ p.menuId ∈ [2]) ∧
        checkedKeys entries = ((menuIds twoMenus.menus).filter (· ∈ [2])).map toString) ∧
      otherRoles 7 (run (updateRolePermissions .epoch 7 (.json (.list
          ((newPermissions twoMenus.menus ["2"]).map Permission.json)))) fun _ =>
            []).2 =
            otherRoles
            7
            (fun _ => []) :=
  saved_permissions .epoch (fun _ => []) 7 twoMenus (by decide) [2] _ rfl (by decide +kernel)

end ProjectEvaluation.Backend
