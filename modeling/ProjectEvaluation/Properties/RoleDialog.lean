import ProjectEvaluation.Lib.Machine
import ProjectEvaluation.Pages.Role

/-!
# The dialog of the permissions of a role

The page of `Role.jsx` with its requests: the user opens roles, checks boxes and saves, and the
answers of `GET /api/role-permissions/<role>` arrive in any order or not at all.

Results:
* `saves_own`: where every save comes when the last answer was for the role that is open and boxes
  were checked for it only, every list that is posted to a role is the last answer for this role,
  changed by the boxes that were checked while it was open.
-/

namespace ProjectEvaluation.Pages

open Python Forest Machine

/-! ## Runs of the page -/

/-- A POST of permissions. -/
structure PermissionPost where
  role : ℕ
  permissions : List Json

/-- The page with its requests. The GET of each opening has the number of the opening. -/
structure RoleSession where
  page : RolePage
  loading : Bool
  opened : List ℕ
  inFlight : List ℕ
  posts : List PermissionPost

/-- What happens to the page. -/
inductive RoleEvent
  | loadMenus (menus : List (RoseTree MenuItem))
  | openRole (role : ℕ)
  | close
  | check (key : String)
  | save
  | saved (ok : Bool)
  | answer (i : ℕ) (permissions : List Json)
  | failure (i : ℕ)

/-- The page before anything happened. -/
def RoleSession.start : RoleSession where
  page := { menus := [], selectedRole := none, permissions := [], isModalVisible := false }
  loading := false
  opened := []
  inFlight := []
  posts := []

/-- One event (`Role.jsx` lines 38–122); the boxes and the buttons of the dialog are there while it
    is visible. -/
def RoleSession.step (onCheck : OnCheck) (s : RoleSession) : RoleEvent → Option RoleSession
  | .loadMenus menus => some { s with page := { s.page with menus } }
  | .openRole role =>
    some { s with
      page := s.page.handleEditRole role
      opened := s.opened ++ [role]
      inFlight := s.inFlight ++ [s.opened.length] }
  | .close => if s.page.isModalVisible then some { s with page := s.page.close } else none
  | .check key =>
    if s.page.isModalVisible then
      let keys := onCheck s.page.menus (displayedKeys s.page.permissions) key
      some { s with page := s.page.handlePermissionChange (some keys) }
    else none
  | .save =>
    if s.page.isModalVisible ∧ s.loading = false then
      s.page.handleSavePermissions.map fun (role, permissions) =>
        { s with loading := true, posts := s.posts ++ [⟨role, permissions⟩] }
    else none
  | .saved ok =>
    if s.loading then
      some { s with loading := false, page := if ok then s.page.close else s.page }
    else none
  | .answer i permissions =>
    if i ∈ s.inFlight then
      some { s with page := s.page.setPermissions permissions, inFlight := s.inFlight.erase i }
    else none
  | .failure i => if i ∈ s.inFlight then some { s with inFlight := s.inFlight.erase i } else none

/-! ## The order of the events -/

/-- The roles that were opened. -/
def openedRoles (past : List RoleEvent) : List ℕ :=
  past.filterMap fun
    | .openRole role => some role
    | _ => none

/-- The role that is open. -/
def currentRole (past : List RoleEvent) : Option ℕ := (openedRoles past).getLast?

/-- The menus that were loaded last. -/
def loadedMenus (past : List RoleEvent) : List (RoseTree MenuItem) :=
  ((past.filterMap fun
    | .loadMenus menus => some menus
    | _ => none).getLast?).getD []

def RoleEvent.isAnswer : RoleEvent → Bool
  | .answer _ _ => true
  | _ => false

/-- The roles that were open when boxes were checked. -/
def checkedRoles (past : List RoleEvent) : List RoleEvent → List ℕ
  | [] => []
  | .check key :: es => (currentRole past).toList ++ checkedRoles (past ++ [.check key]) es
  | e :: es => checkedRoles (past ++ [e]) es

/-- The last answer that arrived was for the role that is open, and boxes were checked
    since for this role only. -/
def SafeToSave (past : List RoleEvent) : Prop :=
  ∃ before i permissions after role, past = before ++ .answer i permissions :: after ∧
    (∀ e ∈ after, e.isAnswer = false) ∧ (openedRoles before)[i]? = some role ∧
    currentRole past = some role ∧
    ∀ r ∈ checkedRoles (before ++ [.answer i permissions]) after, r = role

/-! ## The list of a role -/

section Lists

variable (onCheck : OnCheck)

/-- The list of a role after one more event: an answer for the role, or a box that is checked
    while the role is open. -/
def ownStep (role : ℕ) (past : List RoleEvent) (own : Option (List Json)) :
    RoleEvent → Option (List Json)
  | .answer i permissions => if (openedRoles past)[i]? = some role then some permissions else own
  | .check key =>
    if currentRole past = some role then
      own.map fun permissions => checkBox onCheck (loadedMenus past) permissions key
    else own
  | _ => own

/-- `ownStep` of the events of a run, the last one first. -/
def ownReversed (role : ℕ) : List RoleEvent → Option (List Json)
  | [] => none
  | e :: past => ownStep onCheck role past.reverse (ownReversed role past) e

/-- **The list of a role**: the last answer for it, changed by the boxes that were checked while it
    was open. There is none before the first answer for the role. -/
def ownPermissions (role : ℕ) (past : List RoleEvent) : Option (List Json) :=
  ownReversed onCheck role past.reverse

theorem ownPermissions_append (role : ℕ) (past : List RoleEvent) (e : RoleEvent) :
    ownPermissions onCheck role (past ++ [e]) =
      ownStep onCheck role past (ownPermissions onCheck role past) e := by
  rw [ownPermissions, List.reverse_append, List.reverse_singleton, List.singleton_append,
    ownReversed, List.reverse_reverse, ownPermissions]

/-- What the POST of a save is to be. -/
def OwnPost (past : List RoleEvent) (post : PermissionPost) : Prop :=
  currentRole past = some post.role ∧ ownPermissions onCheck post.role past = some post.permissions

end Lists

/-! ## Events and state -/

theorem openedRoles_append (past es : List RoleEvent) :
    openedRoles (past ++ es) = openedRoles past ++ openedRoles es :=
  List.filterMap_append

theorem currentRole_append {past : List RoleEvent} {e : RoleEvent}
    (h : ∀ role, e ≠ .openRole role) :
    currentRole (past ++ [e]) = currentRole past := by
  have hnone : openedRoles [e] = [] := by
    cases e with
    | openRole role => exact absurd rfl (h role)
    | _ => rfl
  rw [currentRole, openedRoles_append, hnone, List.append_nil, currentRole]

theorem loadedMenus_append {past : List RoleEvent} {e : RoleEvent}
    (h : ∀ menus, e ≠ .loadMenus menus) :
    loadedMenus (past ++ [e]) = loadedMenus past := by
  cases e with
  | loadMenus menus => exact absurd rfl (h menus)
  | _ => simp [loadedMenus]

theorem checkedRoles_append (past es : List RoleEvent) (e : RoleEvent) :
    checkedRoles past (es ++ [e]) = checkedRoles past es ++ checkedRoles (past ++ es) [e] := by
  induction es generalizing past with
  | nil => simp [checkedRoles]
  | cons d es ih =>
    have hpast : past ++ d :: es = (past ++ [d]) ++ es := by
      rw [List.append_assoc, List.singleton_append]
    cases d with
    | check keys => simp only [List.cons_append, checkedRoles, ih, hpast, List.append_assoc]
    | _ => simp only [List.cons_append, checkedRoles, ih, hpast]

/-- The state of the page by the order of the events. -/
structure Linked (past : List RoleEvent) (s : RoleSession) : Prop where
  opened : s.opened = openedRoles past
  selected : s.page.selectedRole = currentRole past
  menus : s.page.menus = loadedMenus past

theorem linked_start : Linked [] .start := ⟨rfl, rfl, rfl⟩

variable {onCheck : OnCheck}

/-- An event that opens no role and loads no menus keeps what the state is linked by. -/
theorem Linked.same {past : List RoleEvent} {s s' : RoleSession} {e : RoleEvent} (h : Linked past s)
    (hopen : ∀ role, e ≠ .openRole role) (hload : ∀ menus, e ≠ .loadMenus menus)
    (hopened : s'.opened = s.opened) (hselected : s'.page.selectedRole = s.page.selectedRole)
    (hmenus : s'.page.menus = s.page.menus) : Linked (past ++ [e]) s' := by
  have hnone : openedRoles [e] = [] := by
    cases e with
    | openRole role => exact absurd rfl (hopen role)
    | _ => rfl
  refine ⟨?_, ?_, ?_⟩
  · rw [hopened, openedRoles_append, hnone, List.append_nil, h.opened]
  · rw [hselected, currentRole_append hopen, h.selected]
  · rw [hmenus, loadedMenus_append hload, h.menus]

/-- **One event** keeps the state and the events together. -/
theorem Linked.step {past : List RoleEvent} {s s' : RoleSession} {e : RoleEvent} (h : Linked past s)
    (hstep : s.step onCheck e = some s') : Linked (past ++ [e]) s' := by
  cases e with
  | loadMenus menus =>
    cases hstep
    refine ⟨?_, ?_, ?_⟩
    · rw [openedRoles_append, h.opened]
      exact (List.append_nil _).symm
    · rw [currentRole_append (by simp)]
      exact h.selected
    · simp [loadedMenus]
  | openRole role =>
    cases hstep
    refine ⟨?_, ?_, ?_⟩
    · rw [openedRoles_append, ← h.opened]
      rfl
    · rw [currentRole, openedRoles_append]
      exact (List.getLast?_concat).symm
    · rw [loadedMenus_append (by simp)]
      exact h.menus
  | close =>
    simp only [RoleSession.step] at hstep
    split_ifs at hstep
    cases hstep
    exact h.same (by simp) (by simp) rfl rfl rfl
  | check keys =>
    simp only [RoleSession.step] at hstep
    split_ifs at hstep
    cases hstep
    exact h.same (by simp) (by simp) rfl rfl rfl
  | save =>
    simp only [RoleSession.step] at hstep
    split_ifs at hstep
    obtain ⟨⟨role, permissions⟩, -, rfl⟩ := Option.map_eq_some_iff.mp hstep
    exact h.same (by simp) (by simp) rfl rfl rfl
  | saved ok =>
    simp only [RoleSession.step] at hstep
    split_ifs at hstep with hloading hok
    · cases hstep
      exact h.same (by simp) (by simp) rfl rfl rfl
    · cases hstep
      exact h.same (by simp) (by simp) rfl rfl rfl
  | answer i permissions =>
    simp only [RoleSession.step] at hstep
    split_ifs at hstep
    cases hstep
    exact h.same (by simp) (by simp) rfl rfl rfl
  | failure i =>
    simp only [RoleSession.step] at hstep
    split_ifs at hstep
    cases hstep
    exact h.same (by simp) (by simp) rfl rfl rfl

/-- The list of the page after an event that is no answer and no check. -/
theorem permissions_of_step {s s' : RoleSession} {e : RoleEvent}
    (hstep : s.step onCheck e = some s')
    (hanswer : e.isAnswer = false) (hcheck : ∀ key, e ≠ .check key) :
    s'.page.permissions = s.page.permissions := by
  cases e with
  | answer i permissions => cases hanswer
  | check key => exact absurd rfl (hcheck key)
  | save =>
    simp only [RoleSession.step] at hstep
    split_ifs at hstep
    obtain ⟨⟨role, permissions⟩, -, rfl⟩ := Option.map_eq_some_iff.mp hstep
    rfl
  | _ =>
    simp only [RoleSession.step] at hstep
    try split_ifs at hstep
    all_goals cases hstep; rfl

/-- After an answer for a role, and boxes checked for this role only, the list of the page is the
    list of the role. -/
def Tracked (onCheck : OnCheck) (past : List RoleEvent) (s : RoleSession) : Prop :=
  ∀ before i permissions after role, past = before ++ .answer i permissions :: after →
    (∀ e ∈ after, e.isAnswer = false) → (openedRoles before)[i]? = some role →
    (∀ r ∈ checkedRoles (before ++ [.answer i permissions]) after, r = role) →
    ownPermissions onCheck role past = some s.page.permissions

/-- **One event** keeps the list of the page tracked. -/
theorem Tracked.step {past : List RoleEvent} {s s' : RoleSession} {e : RoleEvent}
    (h : Tracked onCheck past s) (hlinked : Linked past s) (hstep : s.step onCheck e = some s') :
    Tracked onCheck (past ++ [e]) s' := by
  intro before i permissions after role hpast hafter hsource hchecks
  rw [ownPermissions_append]
  rcases List.eq_nil_or_concat after with rfl | ⟨after, d, rfl⟩
  · -- the event is the answer
    obtain ⟨rfl, hlast⟩ := List.append_inj' hpast rfl
    obtain rfl := (List.cons.inj hlast).1
    simp only [RoleSession.step] at hstep
    split_ifs at hstep
    cases hstep
    rw [ownStep, if_pos hsource]
    rfl
  · -- the answer came before
    rw [List.concat_eq_append] at hpast hafter hchecks
    rw [← List.cons_append, ← List.append_assoc] at hpast
    obtain ⟨rfl, hlast⟩ := List.append_inj' hpast rfl
    obtain rfl := (List.cons.inj hlast).1
    rw [checkedRoles_append] at hchecks
    have hown := h before i permissions after role rfl
      (fun e he => hafter e (List.mem_append_left _ he)) hsource
      (fun r hr => hchecks r (List.mem_append_left _ hr))
    have hanswer : e.isAnswer = false := hafter e (List.mem_append_right _ List.mem_cons_self)
    rw [hown]
    by_cases hcheck : ∃ key, e = .check key
    · obtain ⟨key, rfl⟩ := hcheck
      simp only [RoleSession.step] at hstep
      split_ifs at hstep
      cases hstep
      obtain ⟨r, hr⟩ : ∃ r, currentRole (before ++ .answer i permissions :: after) = some r := by
        have hmem := List.mem_of_getElem? hsource
        rw [← Option.ne_none_iff_exists', currentRole, ne_eq, List.getLast?_eq_none_iff,
          openedRoles_append]
        exact List.append_ne_nil_of_left_ne_nil (List.ne_nil_of_mem hmem) _
      have hrole : r = role := by
        refine hchecks r (List.mem_append_right _ ?_)
        rw [checkedRoles, List.append_assoc, List.singleton_append, hr]
        exact List.mem_cons_self
      rw [ownStep, if_pos (hr.trans (congrArg some hrole)), Option.map_some, ← hlinked.menus]
      rfl
    · have hsame := permissions_of_step hstep hanswer fun key hkey => hcheck ⟨key, hkey⟩
      rw [hsame]
      cases e with
      | answer i permissions => cases hanswer
      | check key => exact absurd ⟨key, rfl⟩ hcheck
      | _ => rfl

/-! ## Runs -/

theorem linked_of_exec {es : List RoleEvent} {s : RoleSession}
    (h : exec (RoleSession.step onCheck) .start es = some s) :
    Linked es s ∧ Tracked onCheck es s := by
  induction es using List.reverseRecOn generalizing s with
  | nil =>
    cases h
    exact ⟨linked_start, fun before i permissions after role hpast => by simp at hpast⟩
  | append_singleton es e ih =>
    obtain ⟨w, hw, hstep⟩ := exec_append_eq_some.mp h
    obtain ⟨w', hstep, hend⟩ := exec_cons_eq_some.mp hstep
    cases hend
    obtain ⟨hlinked, htracked⟩ := ih hw
    exact ⟨hlinked.step hstep, htracked.step hlinked hstep⟩

/-- The events before each save of a run. -/
def savesFrom (past : List RoleEvent) : List RoleEvent → List (List RoleEvent)
  | [] => []
  | .save :: es => past :: savesFrom (past ++ [.save]) es
  | e :: es => savesFrom (past ++ [e]) es

/-- The events before each save of a run, from its start. -/
def saves (es : List RoleEvent) : List (List RoleEvent) := savesFrom [] es

theorem savesFrom_append (past es : List RoleEvent) (e : RoleEvent) :
    savesFrom past (es ++ [e]) = savesFrom past es ++ savesFrom (past ++ es) [e] := by
  induction es generalizing past with
  | nil => simp [savesFrom]
  | cons d es ih =>
    have hpast : past ++ d :: es = (past ++ [d]) ++ es := by
      rw [List.append_assoc, List.singleton_append]
    cases d with
    | save => simp only [List.cons_append, savesFrom, ih, hpast]
    | _ => simp only [List.cons_append, savesFrom, ih, hpast]

theorem saves_append (es : List RoleEvent) (e : RoleEvent) :
    saves (es ++ [e]) = saves es ++ savesFrom es [e] := savesFrom_append [] es e

/-- The POSTs of a step. -/
theorem posts_of_step {s s' : RoleSession} {e : RoleEvent} (hstep : s.step onCheck e = some s') :
    (e ≠ .save ∧ s'.posts = s.posts) ∨
      (e = .save ∧ ∃ role, s.page.selectedRole = some role ∧
        s'.posts = s.posts ++ [⟨role, s.page.permissions⟩]) := by
  cases e with
  | save =>
    refine Or.inr ⟨rfl, ?_⟩
    simp only [RoleSession.step] at hstep
    split_ifs at hstep
    obtain ⟨⟨role, permissions⟩, hpost, rfl⟩ := Option.map_eq_some_iff.mp hstep
    obtain ⟨role', hrole, hpair⟩ := Option.map_eq_some_iff.mp hpost
    cases hpair
    exact ⟨role, hrole, rfl⟩
  | _ =>
    refine Or.inl ⟨by simp, ?_⟩
    simp only [RoleSession.step] at hstep
    try split_ifs at hstep
    all_goals cases hstep; rfl

/-- What a safe save posts is the role's own list. -/
theorem ownPost_of_safe {past : List RoleEvent} {s : RoleSession} (hlinked : Linked past s)
    (htracked : Tracked onCheck past s) (hsafe : SafeToSave past) {role : ℕ}
    (hrole : s.page.selectedRole = some role) :
    OwnPost onCheck past ⟨role, s.page.permissions⟩ := by
  obtain ⟨before, i, permissions, after, role', hpast, hafter, hsource, hcurrent, hchecks⟩ := hsafe
  have hselected : currentRole past = some role := hlinked.selected.symm.trans hrole
  obtain rfl : role = role' := Option.some.inj (hselected.symm.trans hcurrent)
  exact ⟨hselected, htracked before i permissions after role hpast hafter hsource hchecks⟩

/-- **Saves.** In every run of the page, whatever the order of the answers, in which every save
    comes when it is safe, every list that is posted is its role's own. -/
theorem saves_own (onCheck : OnCheck) (es : List RoleEvent) (s : RoleSession)
    (h : exec (RoleSession.step onCheck) .start es = some s)
    (hsafe : ∀ past ∈ saves es, SafeToSave past) :
    List.Forall₂ (OwnPost onCheck) (saves es) s.posts := by
  induction es using List.reverseRecOn generalizing s with
  | nil =>
    cases h
    exact List.Forall₂.nil
  | append_singleton es e ih =>
    obtain ⟨w, hw, hstep⟩ := exec_append_eq_some.mp h
    obtain ⟨w', hstep, hend⟩ := exec_cons_eq_some.mp hstep
    cases hend
    rw [saves_append] at hsafe ⊢
    have hbefore := ih w hw fun past hpast => hsafe past (List.mem_append_left _ hpast)
    rcases posts_of_step hstep with ⟨hother, hposts⟩ | ⟨rfl, role, hrole, hposts⟩
    · have hnone : savesFrom es [e] = [] := by
        cases e <;> first | exact absurd rfl hother | rfl
      rw [hposts, hnone, List.append_nil]
      exact hbefore
    · obtain ⟨hlinked, htracked⟩ := linked_of_exec hw
      have hlast : SafeToSave es := hsafe es (List.mem_append_right _ List.mem_cons_self)
      rw [hposts]
      exact List.rel_append hbefore
        (List.Forall₂.cons (ownPost_of_safe hlinked htracked hlast hrole) List.Forall₂.nil)

/-- A click turns a box over, as in a tree without children. -/
def turnOver : OnCheck := fun _ keys key =>
  if key ∈ keys then keys.filter (· ≠ key) else keys ++ [key]

/-- A second role is opened and saved before its answer arrives. -/
def hastySave : List RoleEvent :=
  [.openRole 1, .answer 0 [Permission.json ⟨1, true⟩], .close, .openRole 2, .save]

/-- The second role gets the permissions of the first; there was no answer for it. -/
theorem hasty_save_not_own :
    ∃ s, exec (RoleSession.step turnOver) .start hastySave = some s ∧
      s.posts = [⟨2, [Permission.json ⟨1, true⟩]⟩] ∧
      ¬ List.Forall₂ (OwnPost turnOver) (saves hastySave) s.posts := by
  refine ⟨_, rfl, rfl, fun hall => ?_⟩
  cases hall with
  | cons hown _ => cases hown.2

/-- A menu with an id. -/
def menuWithId (id : ℤ) : RoseTree MenuItem :=
  .node ⟨id, .null, .null, .null, .null, .null, .null⟩ []

/-- A role has a permission on the first of two menus; the second is granted after the answer. -/
def patientSave : List RoleEvent :=
  [.loadMenus [menuWithId 1, menuWithId 2], .openRole 1, .answer 0 [Permission.json ⟨1, true⟩],
    .check "2", .save]

/-- A role that is saved after its own answer. -/
theorem patient_save_own :
    ∃ s, exec (RoleSession.step turnOver) .start patientSave = some s ∧
      s.posts = [⟨1, [Permission.json ⟨1, true⟩, Permission.json ⟨2, true⟩]⟩] ∧
      List.Forall₂ (OwnPost turnOver) (saves patientSave) s.posts := by
  refine ⟨_, rfl, rfl, saves_own turnOver patientSave _ rfl fun past hpast => ?_⟩
  obtain rfl := List.mem_singleton.mp hpast
  refine ⟨[_, _], 0, _, [_], 1, rfl, ?_, rfl, rfl, ?_⟩
  · simp [RoleEvent.isAnswer]
  · simp [checkedRoles, currentRole, openedRoles]

end ProjectEvaluation.Pages
