import ProjectEvaluation.Pages.EvaluationProject
import ProjectEvaluation.Pages.Menus

/-!
# `Menu.jsx`: the menus and the undo button

The page keeps a history of its operations. Each entry has what it takes to undo the operation;
undoing is a request like any other.
-/

namespace ProjectEvaluation.Pages.MenuManagement

open Python Relational Backend

/-! ## The tree -/

mutual

/-- `findMenuById` (`Menu.jsx`, lines 162–175). -/
def findMenuById (menuId : ℕ) : List Json → Option Json
  | [] => none
  | menu :: menuList =>
    if hasId menuId menu then some menu
    else
      match findInChildren menuId menu with
      | some found => some found
      | none => findMenuById menuId menuList

/-- The search in the children of a menu. -/
def findInChildren (menuId : ℕ) : Json → Option Json
  | .dict entries => findInEntries menuId entries
  | _ => none

/-- The search in the member `children`. -/
def findInEntries (menuId : ℕ) : List (Field × Json) → Option Json
  | [] => none
  | entry :: entries =>
    match findInEntry menuId entry with
    | some found => some found
    | none => findInEntries menuId entries

/-- The search in one member of a menu. -/
def findInEntry (menuId : ℕ) : Field × Json → Option Json
  | (.children, .list menus) => findMenuById menuId menus
  | _ => none

end

/-- The menu with an id in the answer of `get_menus`. -/
def findMenu (menuId : ℕ) : Json → Option Json
  | .list menus => findMenuById menuId menus
  | _ => none

/-- The parents the form offers: none, or a menu of the tree. -/
def offered (menus : Json) : Option Json → Bool
  | none | some .null => true
  | some (.int n) => decide (0 ≤ n) && (findMenu n.toNat menus).isSome
  | _ => false

/-! ## The history -/

/-- What the form is filled in with (`Menu.jsx`, line 178); a field that is cleared is left out. -/
structure MenuValues where
  name : Option Json
  path : Option Json
  icon : Option Json
  parentId : Option Json
  order : Option Json
  visible : Option Json

/-- The body of a submission (`Menu.jsx`, lines 178–199). -/
def MenuValues.body (values : MenuValues) : Json :=
  .dict ([(.name, values.name), (.path, values.path), (.icon, values.icon),
    (.parentId, values.parentId), (.order, values.order), (.visible, values.visible)].filterMap
      fun entry => entry.2.map fun j => (entry.1, j))

/-- An entry of `history`, with the data that undoing needs (`Menu.jsx`, lines 14 and 20). -/
inductive HistoryEntry
  | add (id : ℕ)
  | update (id : ℕ) (oldData : Json)
  | delete (menu : Json)

/-- `oldData` (`Menu.jsx`, lines 184–192). -/
def oldData (editingMenu : Json) : Json :=
  .dict ([.id, .name, .path, .icon, .parentId, .order, .visible].map fun f =>
    (f, member editingMenu f))

/-- `addHistory` (`Menu.jsx`, lines 19–26): the last ten operations are kept. -/
def addHistory (history : List HistoryEntry) (entry : HistoryEntry) : List HistoryEntry :=
  if 10 < (history ++ [entry]).length then (history ++ [entry]).drop 1 else history ++ [entry]

/-- The request of `handleUndo` (`Menu.jsx`, lines 69–106). -/
def HistoryEntry.undo : HistoryEntry → Request
  | .add id => .delete .menu id
  | .update id oldData => .update .menu id (.json oldData)
  | .delete menu => .create .menu (.json menu)

/-! ## Operations -/

/-- The database, and the tree and the history in the page (`Menu.jsx`, lines 9–16). -/
structure MenuState where
  db : DB
  menus : Json
  history : List HistoryEntry

/-- The page is opened (`Menu.jsx`, lines 109–120). -/
def MenuState.open (db : DB) : MenuState where
  db := db
  menus := (getMenus db).body
  history := []

/-- The clicks of the user, each with the clocks at its time. -/
inductive MenuEvent
  | add (k : Clock) (values : MenuValues)
  | update (k : Clock) (id : ℕ) (values : MenuValues)
  | delete (k : Clock) (id : ℕ)
  | undo (k : Clock)

/-- A request that succeeds; then `fetchMenus`. -/
def MenuState.send (s : MenuState) (k : Clock) (request : Request)
    (history : Response → List HistoryEntry) :
    Option MenuState :=
  let (response, db) := handle k request s.db
  if response.Success then some { db, menus := (getMenus db).body, history := history response }
    else none

/-- `menu.icon.startsWith` fails for `null`, and the dialog stays closed (`Menu.jsx`, lines
    131–142). -/
def editable (menu : Json) : Bool :=
  match member menu .icon with
  | .str _ => true
  | _ => false

/-- A click after which all requests succeed (`Menu.jsx`, lines 69–212); `none` where it is not
    possible, or a request fails. -/
def MenuState.step (s : MenuState) : MenuEvent → Option MenuState
  | .add k values =>
    if offered s.menus values.parentId then
      s.send k (.create .menu (.json values.body)) fun response =>
        addHistory s.history (.add (idOf response.body))
    else none
  | .update k id values =>
    (findMenu id s.menus).bind fun editingMenu =>
      if editable editingMenu && offered s.menus values.parentId then
        s.send k (.update .menu (idOf editingMenu) (.json values.body)) fun _ =>
          addHistory s.history (.update (idOf editingMenu) (oldData editingMenu))
      else none
  | .delete k id =>
    (findMenu id s.menus).bind fun menuToDelete =>
      s.send k (.delete .menu id) fun _ => addHistory s.history (.delete menuToDelete)
  | .undo k =>
    s.history.getLast?.bind fun lastAction => s.send k lastAction.undo fun _ => s.history.dropLast

end ProjectEvaluation.Pages.MenuManagement
