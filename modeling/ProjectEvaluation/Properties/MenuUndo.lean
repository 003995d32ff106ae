import ProjectEvaluation.Lib.Machine
import ProjectEvaluation.Properties.MenuRenaming

/-!
# Undoing on the menu page

Results:
* `Reversible.undo`: undoing a change that left an entry in the history.
* `undo_restores`: operations that are undone leave the tree as it was.
-/

namespace ProjectEvaluation.Pages.MenuManagement

open Python Relational Transaction Backend UndoLog Machine

/-! ## What an entry of the history refers to -/

/-- The parent in an object. -/
def parentIn (menu : Json) : List ℕ :=
  match member menu .parentId with
  | .int n => [n.toNat]
  | _ => []

/-- The ids that undoing an entry relies on. -/
def HistoryEntry.refs : HistoryEntry → List ℕ
  | .add id => [id]
  | .update id oldData => id :: parentIn oldData
  | .delete menu => parentIn menu

/-- A menu that is put back under another id is not what an older entry refers to, no menu loses
    its parent with one that is deleted, and a new menu would not get the defaults instead. -/
def MenuEvent.Reversible (s : MenuState) : MenuEvent → Prop
  | .delete _ id => ∀ menu ∈ s.db .menu, menu.cell .parentId ≠ .int id ∧
      (menu.id = id → menu.cell .order ≠ .null ∧ menu.cell .visible ≠ .null)
  | .undo _ =>
    match s.history.getLast? with
    | some (.delete menu) => nextId (s.db .menu) < 2 ^ 63 ∧
        (nextId (s.db .menu) = idOf menu ∨ ∀ entry ∈ s.history.dropLast, idOf menu ∉ entry.refs)
    | _ => True
  | _ => True

instance (s : MenuState) (e : MenuEvent) : Decidable (e.Reversible s) := by
  cases e with
  | delete k id => unfold MenuEvent.Reversible; infer_instance
  | undo k =>
    simp only [MenuEvent.Reversible]
    split <;> infer_instance
  | _ => exact isTrue trivial

/-! ## Changes -/

/-- A change of the menus that can be undone, with the entry it leaves in the history. -/
inductive Change (db : DB) : HistoryEntry → DB → Prop
  | add (menu : Record) : menu.id = nextId (db .menu) →
      (menu.cell .parentId = .null ∨ ∃ p ∈ db .menu, menu.cell .parentId = .int p.id) →
      Change db (.add menu.id) (insert db .menu menu)
  | update (menu : Record) (children : List Json)
      (values : List (Field × Value)) : menu ∈ db .menu →
      ((assignCells menu values).cell .parentId = .null ∨
        ∃ p ∈ db .menu, (assignCells menu values).cell .parentId = .int p.id) →
      Change db (.update menu.id (oldData (menuObject menu children)))
        (setCells db .menu menu.id values)
  | delete (menu : Record) (children : List Json) : menu ∈ db .menu →
      ¬ Blocked schema db .menu menu.id →
      (∀ q ∈ db .menu, q.cell .parentId ≠ .int menu.id) → menu.cell .order ≠ .null →
        menu.cell .visible ≠ .null →
      Change db (.delete (menuObject menu children)) (erase schema db .menu menu.id)

theorem Change.permissions {db db' : DB} {entry : HistoryEntry} (h : Change db entry db') :
    db' .rolePermission = db .rolePermission := by
  cases h with
  | add menu _ _ => exact insert_other db menu (by decide)
  | update menu children values _ _ => exact setCells_other db menu.id values (by decide)
  | delete menu children _ hunblocked _ _ _ => exact erase_permissions hunblocked

/-- A change keeps the parents of the menus. -/
theorem Change.intact {db db' : DB} {entry : HistoryEntry} (h : Change db entry db')
    (hkeys : UniqueKeys db)
    (hdb : MenusIntact db) : MenusIntact db' := by
  have hpermissions := h.permissions
  cases h with
  | add menu hid hparent =>
    have hmore : ∀ p ∈ db .menu, p ∈ insert db .menu menu .menu :=
      fun p hp => mem_insert.mpr (Or.inl hp)
    constructor
    · intro q hq
      have hcell : q.cell .parentId = .null ∨ ∃ p ∈ db .menu, q.cell .parentId = .int p.id := by
        rcases mem_insert.mp hq with hq | ⟨-, rfl⟩
        · exact hdb.parents q hq
        · exact hparent
      exact hcell.imp_right fun ⟨p, hp, hcell⟩ => ⟨p, hmore p hp, hcell⟩
    · rw [hpermissions]
      intro q hq
      obtain ⟨p, hp, hcell⟩ := hdb.permissions q hq
      exact ⟨p, hmore p hp, hcell⟩
  | update menu children values hmenu hparent =>
    have hkept : ∀ p ∈ db .menu, ∃ p' ∈ setCells db .menu menu.id values .menu, p'.id = p.id := by
      intro p hp
      refine ⟨_, mem_setCells.mpr ⟨p, hp, rfl⟩, ?_⟩
      split_ifs <;> rfl
    constructor
    · intro q hq
      have hcell : q.cell .parentId = .null ∨ ∃ p ∈ db .menu, q.cell .parentId = .int p.id := by
        obtain ⟨r, hr, rfl⟩ := mem_setCells.mp hq
        by_cases hid : r.id = menu.id
        · rw [if_pos hid, List.inj_on_of_nodup_map (hkeys .menu) hr hmenu hid]
          exact hparent
        · rw [if_neg hid]
          exact hdb.parents r hr
      refine hcell.imp_right fun ⟨p, hp, hcell⟩ => ?_
      obtain ⟨p', hp', hid⟩ := hkept p hp
      exact ⟨p', hp', by rw [hid, hcell]⟩
    · rw [hpermissions]
      intro q hq
      obtain ⟨p, hp, hcell⟩ := hdb.permissions q hq
      obtain ⟨p', hp', hid⟩ := hkept p hp
      exact ⟨p', hp', by rw [hid, hcell]⟩
  | delete menu children hmenu hunblocked hleaf _ _ =>
    have hkept : ∀ p ∈ db .menu, p.id ≠ menu.id → ∃ p' ∈ erase schema db .menu menu.id .menu,
        p'.id = p.id :=
      fun p hp hne =>
        ⟨_, (mem_erase schema).mpr ⟨p, hp, fun hrem => hne (removed_menu.mp hrem), rfl⟩, rfl⟩
    constructor
    · intro _ hq
      obtain ⟨r, hr, -, rfl⟩ := (mem_erase schema).mp hq
      have hcell : (detach schema .menu menu.id .menu r).cell .parentId = r.cell .parentId :=
        if_neg fun hnull => hleaf r hr (nullified_menu.mp hnull).2
      rw [hcell]
      refine (hdb.parents r hr).imp_right fun ⟨p, hp, hparent⟩ => ?_
      obtain ⟨p', hp', hid⟩ := hkept p hp fun heq => hleaf r hr (heq ▸ hparent)
      exact ⟨p', hp', by rw [hid, hparent]⟩
    · rw [hpermissions]
      intro q hq
      obtain ⟨p, hp, hcell⟩ := hdb.permissions q hq
      obtain ⟨p', hp', hid⟩ :=
        hkept p hp fun heq => hunblocked (menu_blocked_iff.mpr ⟨q, hq, heq ▸ hcell⟩)
      exact ⟨p', hp', by rw [hid, hcell]⟩

/-! ## Undoing a change -/

/-- A request succeeds and leaves menus that are some nodes up to a renaming. -/
structure Restores (ρ : ℕ → ℕ) (A : Set (Node (List Value))) (db : DB)
    (out : Response × DB) : Prop where
  success : out.1.Success
  permissions : out.2 .rolePermission = db .rolePermission
  plain : ∀ menu ∈ out.2 .menu, PlainParent menu
  same : SameUpTo ρ A (menuNodes out.2)

/-- The id in a cell is what the entry refers to. -/
theorem mem_parentIn {menu : Record} (children : List Json) {p : ℕ}
    (h : p ∈ (menuNode menu).parent) :
    p ∈ parentIn (menuObject menu children) := by
  have hcell : menu.cell .parentId = .int p := parentOf_eq_some.mp h
  have hmember : member (menuObject menu children) .parentId = .int p := by
    rw [member_menuObject menu children .parentId (by decide),
      shown_menu menu .parentId (by decide), hcell]
    rfl
  rw [parentIn, hmember]
  exact List.mem_singleton.mpr rfl

theorem names_menuObject (menu : Record) (children : List Json) :
    Names (menuObject menu children) menu := by
  intro f hf
  simp only [menuFields, List.mem_cons, List.not_mem_nil, or_false] at hf
  rcases hf with rfl | rfl | rfl | rfl | rfl | rfl <;> rfl

theorem names_oldData (menu : Record) (children : List Json) :
    Names (oldData (menuObject menu children)) menu := by
  intro f hf
  simp only [menuFields, List.mem_cons, List.not_mem_nil, or_false] at hf
  rcases hf with rfl | rfl | rfl | rfl | rfl | rfl <;> rfl

/-- The parent of a node is kept by a renaming that keeps what the entry refers to. -/
theorem parent_fixed {ρ : ℕ → ℕ} {parent : Option ℕ} (h : ∀ p ∈ parent, ρ p = p) :
    parent.map ρ = parent := by
  cases parent with
  | none => rfl
  | some p => exact congrArg some (h p rfl)

/-- A node under an id that is kept has a row. -/
theorem find_renamed {ρ : ℕ → ℕ} {A : Set (Node (List Value))} {w : DB}
    (h : SameUpTo ρ A (menuNodes w))
    (hkeys : UniqueKeys w) {id : ℕ} (hid : id ∈ ids A) (hfixed : ρ id = id) :
    ∃ row, find (w .menu) id = some row := by
  obtain ⟨a, ha, rfl⟩ := hid
  have hmem : a.rename ρ ∈ menuNodes w := by
    rw [h.image]
    exact ⟨a, ha, rfl⟩
  obtain ⟨row, hrow, hnode⟩ := hmem
  have hrowid : row.id = a.id := (congrArg Node.id hnode).trans hfixed
  exact ⟨row, hrowid ▸ find_of_mem (hkeys .menu) hrow⟩

/-- **Undoing a change.** In a database with the menus that were there after the change, up to a
    renaming that keeps what the entry refers to, the request succeeds and leaves the menus that
    were there before, up to a renaming that keeps what the older entries refer to. -/
theorem Change.undo {k : Clock} {db db' w : DB} {entry : HistoryEntry} {ρ : ℕ → ℕ}
    (h : Change db entry db')
    (hdb : Valid db) (hintact : MenusIntact db) (hw : Valid w)
    (hplain : ∀ menu ∈ w .menu, PlainParent menu)
    (hpermissions : w .rolePermission = db' .rolePermission)
    (hsame : SameUpTo ρ (menuNodes db') (menuNodes w))
    (hfixed : ∀ id ∈ entry.refs, ρ id = id)
    (hroom : ∀ menu, entry = .delete menu → nextId (w .menu) < 2 ^ 63) :
    ∃ ρ', Restores ρ' (menuNodes db) w (handle k entry.undo w) ∧
      ∀ id, ρ id = id → (∀ menu, entry = .delete menu → idOf menu = id → nextId (w .menu) = id) →
        ρ' id = id := by
  have hlinked := hintact.linked hdb.keys
  rw [h.permissions] at hpermissions
  cases h with
  | add menu hid hparent =>
    rw [insert_nodes] at hsame
    have hfix : ρ menu.id = menu.id := hfixed menu.id List.mem_cons_self
    have hnew : menu.id ∉ ids (menuNodes db) := by
      rw [mem_menuIds]
      rintro ⟨q, hq, heq⟩
      have hlt := lt_nextId hq
      omega
    obtain ⟨row, hfind⟩ :=
      find_renamed hsame hw.keys (mem_ids (Set.mem_insert (menuNode menu) _)) hfix
    have hunblocked : ¬ Blocked schema w .menu menu.id := by
      rw [menu_blocked_iff, hpermissions]
      rintro ⟨q, hq, hcell⟩
      obtain ⟨p, hp, hcell'⟩ := hintact.permissions q hq
      have hpid : (p.id : ℤ) = menu.id := Value.int.inj (hcell'.symm.trans hcell)
      have hlt := lt_nextId hp
      omega
    have hrowid : row.id = menu.id := find_id hfind
    have hsmall : menu.id < 2 ^ 63 := hrowid ▸ hw.small .menu row (mem_of_find hfind)
    have hgood := menu_delete_succeeds (k := k) hsmall hfind hunblocked
    obtain ⟨-, -, hout⟩ := menu_deleted hgood
    refine ⟨ρ, ⟨hgood, ?_, ?_, ?_⟩, fun id hid _ => hid⟩
    · show (handle k (.delete .menu menu.id) w).2 .rolePermission = _
      rw [hout, erase_permissions hunblocked]
    · show ∀ q ∈ (handle k (.delete .menu menu.id) w).2 .menu, PlainParent q
      rw [hout]
      exact erase_plain hplain
    · show SameUpTo ρ _ (menuNodes (handle k (.delete .menu menu.id) w).2)
      rw [hout, erase_nodes]
      exact hsame.undo_add hlinked hnew hfix
  | update menu children values hmenu hparent =>
    rw [setCells_nodes hdb.keys (find_of_mem (hdb.keys .menu) hmenu)] at hsame
    have hfix : ρ menu.id = menu.id := hfixed menu.id List.mem_cons_self
    have hkept : (menuNode menu).parent.map ρ = (menuNode menu).parent :=
      parent_fixed fun p hp => hfixed p (List.mem_cons_of_mem _ (mem_parentIn children hp))
    have hmem : menu.id ∈ ids (menuNodes db) := mem_ids (mem_menuNodes hmenu)
    obtain ⟨row, hfind⟩ := find_renamed hsame hw.keys (by rw [ids_replace hmem]; exact hmem) hfix
    obtain ⟨hgood, values', hout, hcells⟩ :=
      menu_put_back (k := k) (hdb.small .menu menu hmenu) hfind
      (hdb.storable hmenu) (names_oldData menu children)
    have hrowid : row.id = menu.id := find_id hfind
    have hnode : menuNode (assignCells row values') = menuNode menu := menuNode_congr hrowid hcells
    refine ⟨ρ, ⟨hgood, ?_, ?_, ?_⟩, fun id hid _ => hid⟩
    · show (handle k (.update .menu menu.id (.json _)) w).2 .rolePermission = _
      rw [hout, setCells_other w menu.id values' (by decide)]
    · show ∀ q ∈ (handle k (.update .menu menu.id (.json _)) w).2 .menu, PlainParent q
      rw [hout]
      intro q hq
      obtain ⟨r, hr, rfl⟩ := mem_setCells.mp hq
      by_cases hid : r.id = menu.id
      · have hrow : r = row :=
          Option.some.inj ((hid ▸ find_of_mem (hw.keys .menu) hr).symm.trans hfind)
        rw [if_pos hid, hrow]
        exact (plainParent_of ((hcells .parentId (by decide)).trans (hintact.plain hmenu))).1
      · rw [if_neg hid]
        exact hplain r hr
    · show SameUpTo ρ _ (menuNodes (handle k (.update .menu menu.id (.json _)) w).2)
      rw [hout, setCells_nodes hw.keys hfind, hnode]
      exact hsame.undo_update hlinked (mem_menuNodes hmenu) rfl hfix hkept
  | delete menu children hmenu hunblocked hleaf horder hvisible =>
    rw [erase_nodes] at hsame
    have hkept : (menuNode menu).parent.map ρ = (menuNode menu).parent :=
      parent_fixed fun p hp => hfixed p (mem_parentIn children hp)
    have hnodeLeaf : ∀ b ∈ menuNodes db, b.parent ≠ some (menuNode menu).id := by
      rintro _ ⟨q, hq, rfl⟩ hparent
      exact hleaf q hq (parentOf_eq_some.mp hparent)
    obtain ⟨hgood, row, hout, hrow, hcells⟩ :=
      menu_created_again (k := k) (hroom _ rfl) (hdb.storable hmenu) horder
      hvisible (names_menuObject menu children)
    have hnode : menuNode row =
        ⟨nextId (w .menu), (menuNode menu).parent, (menuNode menu).data⟩ := by
      have hsameCells : menuNode { row with id := menu.id } = menuNode menu :=
        menuNode_congr rfl hcells
      exact Node.ext hrow (congrArg Node.parent hsameCells :) (congrArg Node.data hsameCells :)
    have hnew : nextId (w .menu) ∉ ids (menuNodes w) := by
      rw [mem_menuIds]
      rintro ⟨q, hq, heq⟩
      have hlt := lt_nextId hq
      omega
    refine ⟨Function.update ρ menu.id (nextId (w .menu)), ⟨hgood, ?_, ?_, ?_⟩,
      fun id hid hsameId => ?_⟩
    · show (handle k (.create .menu (.json _)) w).2 .rolePermission = _
      rw [hout, insert_other w row (by decide)]
    · show ∀ q ∈ (handle k (.create .menu (.json _)) w).2 .menu, PlainParent q
      rw [hout]
      intro q hq
      rcases mem_insert.mp hq with hq | ⟨-, rfl⟩
      · exact hplain q hq
      · exact (plainParent_of ((hcells .parentId (by decide)).trans (hintact.plain hmenu))).1
    · show SameUpTo _ _ (menuNodes (handle k (.create .menu (.json _)) w).2)
      rw [hout, insert_nodes, hnode]
      exact hsame.undo_remove hlinked (mem_menuNodes hmenu) hnodeLeaf hkept hnew
    · by_cases hmenuId : id = menu.id
      · rw [hmenuId, Function.update_self]
        exact hsameId _ rfl hmenuId.symm |>.trans hmenuId
      · rw [Function.update_of_ne hmenuId]
        exact hid

/-! ## Clicks -/

/-- An operation, other than undoing one. -/
def MenuEvent.operation : MenuEvent → Bool
  | .undo _ => false
  | _ => true

/-- The page shows the menus of a database in which the parents exist. -/
structure Sound (s : MenuState) : Prop where
  valid : Valid s.db
  intact : MenusIntact s.db
  menus : s.menus = (getMenus s.db).body

theorem send_eq_some {s s' : MenuState} {k : Clock} {request : Request}
    {history : Response → List HistoryEntry} :
    s.send k request history = some s' ↔ (handle k request s.db).1.Success ∧
      { db := (handle k request s.db).2, menus := (getMenus (handle k request s.db).2).body,
        history := history (handle k request s.db).1 } = s' := by
  show (if (handle k request s.db).1.Success then some _ else none) = some s' ↔ _
  by_cases hgood : (handle k request s.db).1.Success
  · rw [if_pos hgood, Option.some.injEq]
    exact ⟨fun h => ⟨hgood, h⟩, fun h => h.2⟩
  · rw [if_neg hgood]
    exact ⟨(nomatch ·), fun h => absurd h.1 hgood⟩

theorem body_parentId (values : MenuValues) : values.body.get .parentId = .ok values.parentId := by
  obtain ⟨name, path, icon, parentId, order, visible⟩ := values
  cases name <;> cases path <;> cases icon <;> cases parentId <;> cases order <;>
    cases visible <;> rfl

/-- A parent that the form offers is a menu. -/
theorem offered_parent {db : DB} (hdb : Valid db) {values : MenuValues}
    (h : offered (getMenus db).body values.parentId = true) :
    namedParent values.body = .null ∨ ∃ p ∈ db .menu, namedParent values.body = .int p.id := by
  have hvalue : bodyValue values.body .parentId = values.parentId.getD .null := by
    rw [bodyValue, Json.getD, body_parentId]
    rfl
  rw [namedParent, hvalue]
  cases hparent : values.parentId with
  | none => exact Or.inl rfl
  | some j =>
    rw [hparent] at h
    cases j with
    | null => exact Or.inl rfl
    | int n =>
      obtain ⟨hn, hfound⟩ := Bool.and_eq_true_iff.mp h
      obtain ⟨found, hfound⟩ := Option.isSome_iff_exists.mp hfound
      obtain ⟨p, hp, -, -, hid⟩ := findMenu_row hdb.keys hfound
      have hnonneg : 0 ≤ n := of_decide_eq_true hn
      have hpn : n = (p.id : ℤ) := by omega
      have hsmall := hdb.small .menu p hp
      refine Or.inr ⟨p, hp, keyValue_of_bind ?_⟩
      have hrange : inInt64 n = true := (inInt64_iff n).mpr (by omega)
      show bindJson .integer (.int n) = _
      rw [bindJson, if_pos hrange, hpn]
    | _ => cases h

/-- **An operation is a change** that can be undone. -/
theorem change_of_step {s s' : MenuState} {e : MenuEvent} (hs : Sound s)
    (hlength : s.history.length < 10)
    (he : e.operation = true) (hgood : e.Reversible s) (h : s.step e = some s') :
    ∃ entry, s'.history = s.history ++ [entry] ∧ Change s.db entry s'.db ∧ Valid s'.db ∧
      s'.menus = (getMenus s'.db).body := by
  have hadd : ∀ entry, addHistory s.history entry = s.history ++ [entry] := by
    intro entry
    rw [addHistory, if_neg]
    rw [List.length_append, List.length_singleton]
    omega
  cases e with
  | add k values =>
    simp only [MenuState.step] at h
    split_ifs at h with hoffered
    obtain ⟨hsuccess, rfl⟩ := send_eq_some.mp h
    obtain ⟨attrs, menu, -, -, hout, hid, hparent, hbody⟩ := menu_added hsuccess
    rw [hs.menus] at hoffered
    refine ⟨.add menu.id, ?_, ?_, handle_valid hs.valid, rfl⟩
    · show addHistory s.history (.add (idOf (handle k _ s.db).1.body)) = _
      rw [hbody, hadd]
      rfl
    · show Change s.db _ (handle k (.create .menu (.json values.body)) s.db).2
      rw [hout]
      exact .add menu hid (hparent ▸ offered_parent hs.valid hoffered)
  | update k id values =>
    simp only [MenuState.step] at h
    obtain ⟨editing, hfound, h⟩ := Option.bind_eq_some_iff.mp h
    split_ifs at h with hcond
    obtain ⟨-, hoffered⟩ := Bool.and_eq_true_iff.mp hcond
    rw [hs.menus] at hfound hoffered
    obtain ⟨menu, hmenu, children, rfl, hid⟩ := findMenu_row hs.valid.keys hfound
    obtain ⟨hsuccess, rfl⟩ := send_eq_some.mp h
    rw [idOf_menuObject] at hsuccess
    obtain ⟨row, hfind, hout, hparent, -⟩ := menu_updated hsuccess
    obtain rfl : menu = row :=
      Option.some.inj ((find_of_mem (hs.valid.keys .menu) hmenu).symm.trans hfind)
    refine ⟨.update menu.id (oldData (menuObject menu children)), hadd _, ?_,
      handle_valid hs.valid, rfl⟩
    show Change s.db _ (handle k (.update .menu menu.id (.json values.body)) s.db).2
    rw [hout]
    refine .update menu children _ hmenu ?_
    rw [hparent]
    by_cases hhas : values.body.has .parentId = true
    · rw [if_pos hhas]
      exact offered_parent hs.valid hoffered
    · rw [if_neg hhas]
      exact hs.intact.parents menu hmenu
  | delete k id =>
    simp only [MenuState.step] at h
    obtain ⟨found, hfound, h⟩ := Option.bind_eq_some_iff.mp h
    rw [hs.menus] at hfound
    obtain ⟨menu, hmenu, children, rfl, rfl⟩ := findMenu_row hs.valid.keys hfound
    obtain ⟨hsuccess, rfl⟩ := send_eq_some.mp h
    obtain ⟨-, hunblocked, hout⟩ := menu_deleted hsuccess
    obtain ⟨-, hcells⟩ := hgood menu hmenu
    obtain ⟨horder, hvisible⟩ := hcells rfl
    refine ⟨.delete (menuObject menu children), hadd _, ?_, handle_valid hs.valid, rfl⟩
    show Change s.db _ (handle k (.delete .menu menu.id) s.db).2
    rw [hout]
    exact .delete menu children hmenu hunblocked (fun q hq => (hgood q hq).1) horder hvisible
  | undo k => cases he

/-- The state `t` is the state `s` up to a renaming of ids that keeps what the history refers to. -/
structure Related (ρ : ℕ → ℕ) (s t : MenuState) : Prop where
  history : t.history = s.history
  permissions : t.db .rolePermission = s.db .rolePermission
  valid : Valid t.db
  plain : ∀ menu ∈ t.db .menu, PlainParent menu
  same : SameUpTo ρ (menuNodes s.db) (menuNodes t.db)
  fixed : ∀ entry ∈ s.history, ∀ id ∈ entry.refs, ρ id = id

theorem Sound.related {s : MenuState} (h : Sound s) : Related id s s where
  history := rfl
  permissions := rfl
  valid := h.valid
  plain _ hmenu := h.intact.plain hmenu
  same := .refl _
  fixed _ _ _ _ := rfl

theorem step_undo {t : MenuState} {k : Clock} {entry : HistoryEntry}
    (h : t.history.getLast? = some entry) :
    t.step (.undo k) = t.send k entry.undo fun _ => t.history.dropLast := by
  show t.history.getLast?.bind _ = _
  rw [h]
  rfl

/-- **One undo** leads back from a state after an operation to one before it. -/
theorem undo_step {s s' t : MenuState} {entry : HistoryEntry} {ρ : ℕ → ℕ} {k : Clock} (hs : Sound s)
    (hhistory : s'.history = s.history ++ [entry]) (hchange : Change s.db entry s'.db)
    (ht : Related ρ s' t)
    (hgood : (MenuEvent.undo k).Reversible t) : ∃ t', t.step (.undo k) = some t' ∧ ∃ ρ',
    Related ρ' s t' := by
  have hlast : t.history.getLast? = some entry := by
    rw [ht.history, hhistory, List.getLast?_append]; rfl
  have hrest : t.history.dropLast = s.history := by rw [ht.history, hhistory, List.dropLast_concat]
  have hentry : entry ∈ s'.history := hhistory ▸ List.mem_append_right _ List.mem_cons_self
  have holder : ∀ older ∈ s.history, older ∈ s'.history :=
    fun older h => hhistory ▸ List.mem_append_left _ h
  simp only [MenuEvent.Reversible, hlast, hrest] at hgood
  obtain ⟨ρ', hrestores, hkept⟩ :=
    hchange.undo (k := k) hs.valid hs.intact ht.valid ht.plain ht.permissions ht.same
    (ht.fixed entry hentry) (by rintro menu rfl; exact hgood.1)
  refine ⟨_, (step_undo hlast).trans (send_eq_some.mpr ⟨hrestores.success, rfl⟩), ρ', ?_⟩
  refine ⟨hrest, ?_, handle_valid ht.valid, hrestores.plain, hrestores.same,
    fun older holder' id hid => ?_⟩
  · exact hrestores.permissions.trans (ht.permissions.trans hchange.permissions)
  · refine hkept id (ht.fixed older (holder older holder') id hid) ?_
    rintro menu rfl rfl
    exact hgood.2.resolve_right fun hnone => hnone older holder' hid

/-- The history has room for the operations to come. -/
structure Ahead (ops : List MenuEvent) (s : MenuState) : Prop where
  sound : Sound s
  operation : ∀ e ∈ ops, e.operation = true
  room : s.history.length + ops.length ≤ 10

/-- **One operation** leads to a state from which one undo leads back. -/
theorem operation_undone (s : MenuState) (e : MenuEvent) (ops : List MenuEvent) (s' : MenuState)
    (hs : Ahead (e :: ops) s)
    (hgood : e.Reversible s) (hstep : s.step e = some s') : Ahead ops s' ∧
      ∀ t k, (∃ ρ, Related ρ s' t) → (MenuEvent.undo k).Reversible t →
        ∃ t', t.step (.undo k) = some t' ∧ ∃ ρ, Related ρ s t' := by
  have hroom := hs.room
  rw [List.length_cons] at hroom
  obtain ⟨entry, hhistory, hchange, hvalid, hmenus⟩ :=
    change_of_step hs.sound (by omega) (hs.operation e List.mem_cons_self) hgood hstep
  refine ⟨⟨⟨hvalid, hchange.intact hs.sound.valid.keys hs.sound.intact, hmenus⟩,
    fun e he => hs.operation e (List.mem_cons_of_mem _ he), ?_⟩, fun t k ⟨ρ, hrelated⟩ hundo =>
      undo_step hs.sound hhistory hchange hrelated hundo⟩
  rw [hhistory, List.length_append, List.length_singleton]
  omega

/-- **Undoing.** From any menus whose parents exist, up to ten operations that succeed, undone by
    as many clicks: where no menu with children is deleted, and what is put back does not get the
    id anew that an older entry refers to, every undo succeeds and the tree is the one there was
    at first, up to a renaming of ids. -/
theorem undo_restores {db : DB} (hdb : Valid db) (hintact : MenusIntact db) {ops : List MenuEvent}
    (hops : ∀ e ∈ ops, e.operation = true) (hlength : ops.length ≤ 10) {clocks : List Clock}
    (hclocks : clocks.length = ops.length) {s : MenuState}
    (hrun : exec MenuState.step (.open db) ops = some s)
    (hgood : Always MenuState.step (fun s e => e.Reversible s) (.open db)
      (ops ++ clocks.map .undo)) :
    ∃ s', exec MenuState.step s (clocks.map .undo) = some s' ∧
      SameTree (getMenus db).body (getMenus s'.db).body := by
  obtain ⟨hforward, hback⟩ := hgood.append
  have hopen : Ahead ops (.open db) :=
    ⟨⟨hdb, hintact, rfl⟩, hops, (Nat.zero_add ops.length).trans_le hlength⟩
  obtain ⟨s', hs', ρ, hrelated⟩ :=
    exec_undone (fun s hs => ⟨id, hs.sound.related⟩) operation_undone hclocks hopen hrun hforward
      (hback s hrun)
  refine ⟨s', hs', ?_⟩
  exact sameTree_of_nodes hdb.keys hrelated.valid.keys
    (fun menu hmenu => hintact.plain hmenu) hrelated.plain
    (hintact.linked hdb.keys) hrelated.same

/-- The body of a menu. -/
def menuBody (name path : String) (parentId : Option Json) : MenuValues where
  name := some (.str name)
  path := some (.str path)
  icon := some (.str "AppstoreOutlined")
  parentId := parentId
  order := some (.int 1)
  visible := some (.bool true)

/-- A menu and one below it. -/
def menuPair : DB :=
  (handle .epoch (.create .menu (.json (menuBody "角色管理" "/role" (some (.int 1))).body))
    (handle .epoch (.create .menu (.json (menuBody "系统管理" "/system" none).body)) fun _ => []).2).2

theorem menuPair_intact : MenusIntact menuPair where
  parents := by decide +kernel
  permissions := by decide +kernel

/-- A menu is added and renamed, and the lower of the other two is deleted; undone, it has a new id.
    -/
theorem undo_restores_three : ∃ s s',
    exec MenuState.step (.open menuPair) [.add .epoch (menuBody "字典" "/dict" (some (.int 1))),
      .update .epoch 3 (menuBody "数据字典" "/dict" none), .delete .epoch 2] = some s ∧
    exec MenuState.step s [.undo .epoch, .undo .epoch, .undo .epoch] = some s' ∧
    SameTree (getMenus menuPair).body (getMenus s'.db).body := by
  obtain ⟨s, hs⟩ : ∃ s, exec MenuState.step
      (.open menuPair) [.add .epoch (menuBody "字典" "/dict" (some (.int 1))),
        .update .epoch 3 (menuBody "数据字典" "/dict" none), .delete .epoch 2] = some s :=
    Option.isSome_iff_exists.mp (by decide +kernel)
  have hclocks : [Clock.epoch, .epoch, .epoch].length = 3 := rfl
  obtain ⟨s', hs', hsame⟩ :=
    undo_restores (handle_valid (handle_valid valid_empty)) menuPair_intact (by decide)
    (by decide) hclocks hs (by decide +kernel)
  exact ⟨s, s', hs, hs', hsame⟩

/-- A menu without a parent. -/
def isTop (menu : MenuItem) : Bool :=
  match menu.parentId with
  | .null => true
  | _ => false

/-- Trees that are the same up to a renaming have as many menus at the top. -/
theorem SameTree.countP_top {menus menus' : Json} (h : SameTree menus menus') :
    (menusIn menus').countP isTop = (menusIn menus).countP isTop := by
  obtain ⟨ρ, -, hperm⟩ := h
  have htop : ∀ menu, isTop (renameItem ρ menu) = isTop menu := by
    intro menu
    unfold isTop renameItem
    cases menu.parentId <;> rfl
  rw [hperm.countP_eq, List.countP_map]
  exact List.countP_congr fun menu _ => by rw [Function.comp_apply, htop]

/-- The upper menu is deleted and put back: the lower one is not below it any more. -/
theorem undo_loses_child : ∃ s s', exec MenuState.step (.open menuPair)
    [.delete .epoch 1] = some s ∧
    exec MenuState.step s [.undo .epoch] = some s' ∧
      ¬ SameTree (getMenus menuPair).body (getMenus s'.db).body := by
  have hcount :
      ((exec MenuState.step (.open menuPair) [.delete .epoch 1, .undo .epoch]).map fun s =>
      (menusIn (getMenus s.db).body).countP isTop) = some 2 := by decide +kernel
  obtain ⟨s', hs', htop⟩ := Option.map_eq_some_iff.mp hcount
  obtain ⟨s, hs, hundo⟩ := exec_cons_eq_some.mp hs'
  refine ⟨s, s', exec_cons_eq_some.mpr ⟨s, hs, rfl⟩, hundo, fun hsame => ?_⟩
  have hfirst : (menusIn (getMenus menuPair).body).countP isTop = 1 := by decide +kernel
  have hsame := hsame.countP_top
  omega

end ProjectEvaluation.Pages.MenuManagement
