import ProjectEvaluation.Backend.Handlers

/-!
# `routes.py`: registration, menus, role permissions, skins, users

Results:
* `run_updateRolePermissions`, `updateRolePermissions_cases`: what the role
  permissions handler does.
-/

namespace ProjectEvaluation.Backend

open Python Relational Transaction

/-! ## Registration -/

/-- The constructor arguments of a user (`routes.py`, lines 26–32 and 209–215). -/
def userSources : List Source :=
  [.item .username, .item .password, .item .name, .item .email, .item .roleId]

/-- `register` and `create_user` refuse a username or an email in use (`routes.py`, lines 22–25 and
    205–208). -/
def prepareUser (data : Json) (db : DB) : Except Exn (Response ⊕ List (Field × Attr)) :=
  refuseIf (taken .user .username data db) "用户名已存在" <|
    refuseIf (taken .user .email data db) "邮箱已存在" <| (construct data userSources).map .inr

/-- `POST /api/register` (`routes.py`, lines 19–35). -/
def register (k : Clock) : Body → Handler := createHandler k .user prepareUser (answerDone "注册成功")

/-! ## Menus -/

/-- `menu.children`: the backref of the foreign key `parent_id`. -/
def menuChildren (db : DB) (menu : Record) : List Record :=
  (db .menu).filter fun child => child.cell .parentId == .int menu.id

/-- The dictionary `format_menu` returns (`routes.py`, lines 48–57). -/
def menuObject (menu : Record) (children : List Json) : Json :=
  .dict ([.id, .name, .path, .icon, .parentId, .order, .visible].map (fun f => (f, shown menu f)) ++
    [(.children, .list children)])

/-- `format_menu`, to a given depth of the recursion (`routes.py`, lines 47–57). -/
def formatMenu (db : DB) : ℕ → Record → Option Json
  | 0, _ => none
  | n + 1, menu => ((menuChildren db menu).mapM (formatMenu db n)).map (menuObject menu)

/-- `GET /api/menus` (`routes.py`, lines 44–58). The recursion may go as deep as there are menus;
    the fixed limit of the Python interpreter is not modelled. -/
def getMenus (db : DB) : Response :=
  match filterBy .menu .parentId .null db with
  | .error e => uncaught e
  | .ok menus =>
    match menus.mapM (formatMenu db (db .menu).length) with
    | some items => { status := 200, body := .list items }
    | none => uncaught .recursionError

/-- The constructor arguments of `add_menu` (`routes.py`, lines 64–71). -/
def menuSources : List Source :=
  [.item .name, .item .path, .get .icon .null, .get .parentId .null, .get .order (.int 0),
   .get .visible (.bool true)]

/-- The attributes of a menu. -/
def menuFields : List Field := [.name, .path, .icon, .parentId, .order, .visible]

/-- `POST /api/menus` (`routes.py`, lines 61–74). -/
def addMenu (k : Clock) : Body → Handler :=
  createHandler k .menu (fun data _ => (construct data menuSources).map .inr) (answerId "菜单添加成功")

/-- `PUT /api/menus/<int:menu_id>` (`routes.py`, lines 77–90). -/
def updateMenu : ℕ → Body → Handler :=
  updateHandler .menu "菜单不存在"
    (fun data menu _ => .ok (.inr (menuFields.map (keep data menu)))) (answerDone "菜单更新成功")

/-- `DELETE /api/menus/<int:menu_id>` (`routes.py`, lines 93–100). -/
def deleteMenu : ℕ → Handler := deleteHandler .menu "菜单不存在" "菜单删除成功" fun _ _ => .ok []

/-! ## Role permissions -/

/-- `GET /api/role-permissions/<int:role_id>` (`routes.py`, lines 103–106). -/
def getRolePermissions (roleId : ℕ) (db : DB) : Response :=
  match filterBy .rolePermission .roleId (.int roleId) db with
  | .ok permissions =>
    { status := 200, body := .list (permissions.map (object [.menuId, .canAccess])) }
  | .error e => uncaught e

/-- The permission an entry of the body asks for (`routes.py`, lines 116–120). -/
def newPermission (k : Clock) (roleId : ℕ) (perm : Json) : Except Exn (Option Op) := do
  let menu ← perm.item .menuId
  let access ← perm.item .canAccess
  return some (.insert k .rolePermission
    [(.roleId, .json (.int roleId)), (.menuId, .json menu), (.canAccess, .json access)])

/-- `POST /api/role-permissions/<int:role_id>` (`routes.py`, lines 109–123): the bulk delete comes
    first, before the entries of the body are looked at. -/
def updateRolePermissions (k : Clock) (roleId : ℕ) (body : Body) : Handler := do
  let data ← ofResult body.getJson
  execute applyOp (.deleteWhere .rolePermission .roleId roleId)
  let perms ← ofResult data.iter
  stageAll (perms.map (newPermission k roleId))
  commit applyOp
  pure { status := 200, body := done "权限更新成功" }

/-- The operations of the entries of a permission request. -/
theorem newPermission_inserts {k : Clock} {roleId : ℕ} {perms : List Json} {ops : List Op}
    (h : stagedOps (perms.map (newPermission k roleId)) = .ok ops) :
    ∀ o ∈ ops, ∃ attrs, o = .insert k .rolePermission attrs ∧
      attrs.lookup .roleId = some (.json (.int roleId)) := by
  intro o ho
  obtain ⟨-, rfl⟩ := stagedOps_eq_ok.mp h
  obtain ⟨x, hx, hjoin⟩ := List.mem_filterMap.mp ho
  obtain ⟨perm, -, rfl⟩ := List.mem_map.mp hx
  unfold newPermission at hjoin
  cases hmenu : perm.item .menuId with
  | error e => rw [hmenu] at hjoin; cases hjoin
  | ok menu =>
    cases haccess : perm.item .canAccess with
    | error e => rw [hmenu, haccess] at hjoin; cases hjoin
    | ok access => rw [hmenu, haccess] at hjoin; cases hjoin; exact ⟨_, rfl, rfl⟩

/-- **What `updateRolePermissions` does.** -/
theorem run_updateRolePermissions (k : Clock) (roleId : ℕ) (body : Body) (db : DB) :
    run (updateRolePermissions k roleId body) db =
      match body.getJson.bind fun data =>
        (applyOp (.deleteWhere .rolePermission .roleId roleId) db).bind fun w =>
          data.iter.bind fun perms =>
            (stagedOps (perms.map (newPermission k roleId))).bind fun ops =>
              applyAll applyOp ops w with
      | .error e => (uncaught e, db)
      | .ok db' => ({ status := 200, body := done "权限更新成功" }, db') := by
  unfold run serve updateRolePermissions
  cases body with
  | malformed => simp [exec_bind, Body.getJson, Except.bind]
  | json data =>
    cases hdel : applyOp (.deleteWhere .rolePermission .roleId roleId) db with
    | error e => simp [exec_bind, Body.getJson, exec_execute_init, hdel, Except.bind]
    | ok w =>
      cases hiter : data.iter with
      | error e => simp [exec_bind, Body.getJson, exec_execute_init, hdel, hiter, Except.bind]
      | ok perms =>
        rcases exec_stageAll (perms.map (newPermission k roleId))
            { committed := db, work := w, pending := [] } with ⟨e, p, hops, hexec⟩ |
              ⟨ops, hops, hexec⟩
        · simp [exec_bind, Body.getJson, exec_execute_init, hdel, hiter, hops, hexec, Except.bind]
        · cases hall : applyAll applyOp ops w <;>
            simp [exec_bind, exec_map, Body.getJson, exec_execute_init, hdel, hiter, hops, hexec,
              exec_commit, hall, Except.bind]

/-- **The runs of `updateRolePermissions`.** It refuses, or it deletes the old
    permissions of the role and inserts one for each entry of the body. -/
theorem updateRolePermissions_cases {k : Clock} {roleId : ℕ} {body : Body} {db : DB}
    {out : Response × DB}
    (hout : run (updateRolePermissions k roleId body) db = out) :
    Runs db out fun db' =>
      ∃ data perms ops, body = .json data ∧ data.iter = .ok perms ∧
        stagedOps (perms.map (newPermission k roleId)) = .ok ops ∧
        applyAll applyOp (.deleteWhere .rolePermission .roleId roleId :: ops) db = .ok db' := by
  rw [run_updateRolePermissions] at hout
  split at hout
  · subst hout; exact Or.inl ⟨uncaught_not_success _, rfl⟩
  · rename_i db' h
    subst hout
    simp only [bind_eq_ok] at h
    obtain ⟨data, hbody, w, hdel, perms, hiter, ops, hops, hall⟩ := h
    cases body with
    | malformed => cases hbody
    | json _ =>
      cases hbody
      refine Or.inr ⟨(by norm_num : 200 < 400), data, perms, ops, rfl, hiter, hops, ?_⟩
      rw [applyAll_cons, hdel]
      exact hall

/-! ## Skins -/

/-- The constructor arguments of `add_skin` (`routes.py`, lines 135–140). -/
def skinSources : List Source :=
  [.item .name, .item .type, .item .config, .get .isDefault (.bool false)]

/-- The attributes of a skin. -/
def skinFields : List Field := [.name, .type, .config, .isDefault]

/-- `GET /api/skins` (`routes.py`, lines 126–129). -/
def getSkins (db : DB) : Response :=
  { status := 200, body := .list ((db .systemSkin).map (object (.id :: skinFields))) }

/-- `POST /api/skins` (`routes.py`, lines 132–143). -/
def addSkin (k : Clock) : Body → Handler :=
  createHandler k .systemSkin (fun data _ => (construct data skinSources).map .inr)
    (answerId "皮肤添加成功")

/-- `PUT /api/skins/<int:skin_id>` (`routes.py`, lines 146–157). -/
def updateSkin : ℕ → Body → Handler :=
  updateHandler .systemSkin "皮肤不存在"
    (fun data skin _ => .ok (.inr (skinFields.map (keep data skin)))) (answerDone "皮肤更新成功")

/-- `DELETE /api/skins/<int:skin_id>` (`routes.py`, lines 160–167). -/
def deleteSkin : ℕ → Handler := deleteHandler .systemSkin "皮肤不存在" "皮肤删除成功" fun _ _ => .ok []

/-! ## Users -/

/-- The attributes of a user that are shown (`routes.py`, lines 193–199): not the password. -/
def userFields : List Field := [.id, .username, .name, .email, .roleId]

/-- `GET /api/users/<int:user_id>` (`routes.py`, lines 188–199). -/
def getUser : ℕ → DB → Response := getHandler .user "用户不存在" (answer userFields)

/-- `POST /api/users` (`routes.py`, lines 202–224). -/
def createUser (k : Clock) : Body → Handler := createHandler k .user prepareUser (answer userFields)

/-- `if data.get('password'): user.password = data['password']` (`routes.py`, lines 238–239). -/
def newPassword (data : Json) : Assignment :=
  (.password, (data.get .password).map fun j => (j.filter Json.truthy).map .json)

/-- The assignments of `update_user` (`routes.py`, lines 237–242). -/
def userAssignments (data : Json) (user : Record) : List Assignment :=
  [keep data user .username, newPassword data, keep data user .name, keep data user .email,
   keep data user .roleId]

/-- `PUT /api/users/<int:user_id>` (`routes.py`, lines 227–250). -/
def updateUser : ℕ → Body → Handler :=
  updateHandler .user "用户不存在"
    (fun data user db =>
      refuseIf (takenByOther .user .username data user db) "用户名已存在" <|
        refuseIf (takenByOther .user .email data user db) "邮箱已存在" <|
          .ok (.inr (userAssignments data user)))
    (answer userFields)

/-- `DELETE /api/users/<int:user_id>` (`routes.py`, lines 253–260). -/
def deleteUser : ℕ → Handler := deleteHandler .user "用户不存在" "用户删除成功" fun _ _ => .ok []

end ProjectEvaluation.Backend
