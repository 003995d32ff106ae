import ProjectEvaluation.Lib.Forest
import ProjectEvaluation.Properties.References

/-!
# The menu tree

`get_menus` shows the menus as a tree, from the menus without a parent
downwards. A menu whose chain of parents does not end in such a menu is not
shown.

Results:
* `get_menus_forest`: whatever the parents are, `get_menus` ends with a forest of the grounded
  menus, each once and below its parent.
* `count_listed`: `get_menus` shows each menu that is grounded once, and no other.
* `menuStep_grounded_iff`: a request keeps all menus grounded iff the parent it
  gives a menu is good.
* `menus_listed_iff`: in a run from no menus every menu is shown once in every
  state iff all requests that are carried out give good parents.
-/

namespace ProjectEvaluation.Backend

open Python Relational Transaction Forest

/-! ## The tree as a forest -/

/-- A menu without a parent. -/
def isRoot (menu : Record) : Bool := menu.cell .parentId == .null

/-- `menu.parent_id == parent.id`. -/
def isParent (parent menu : Record) : Bool := menu.cell .parentId == .int parent.id

/-- The chain of parents of a menu ends in a menu without a parent. -/
abbrev MenuGrounded (db : DB) : Record → Prop := Grounded (db .menu) isRoot isParent

theorem oneParent {menus : List Record} (hkeys : (menus.map Row.id).Nodup) :
    OneParent menus isRoot isParent where
  unique := by
    intro p q a hp hq
    have hpid : a.cell .parentId = .int p.id := beq_iff_eq.mp hp.2.2
    have hqid : a.cell .parentId = .int q.id := beq_iff_eq.mp hq.2.2
    have hid : p.id = q.id := by simpa [hpid] using hqid
    exact List.inj_on_of_nodup_map hkeys hp.1 hq.1 hid
  root := by
    intro p a hp
    have hpid : a.cell .parentId = .int p.id := beq_iff_eq.mp hp.2.2
    rw [isRoot, hpid]
    rfl

theorem mapM_map_option {α β γ : Type} {f : α → Option β} {f' : α → Option γ} {g : γ → β}
    {as : List α} (h : ∀ a ∈ as, f a = (f' a).map g) :
    as.mapM f = (as.mapM f').map (List.map g) := by
  induction as with
  | nil => rfl
  | cons a as ih =>
    rw [List.mapM_cons, List.mapM_cons, h a (List.mem_cons_self ..),
      ih fun b hb => h b (List.mem_cons_of_mem _ hb)]
    cases f' a <;> cases as.mapM f' <;> rfl

/-- **`format_menu` shows the tree below a menu.** -/
theorem formatMenu_eq (db : DB) (n : ℕ) (menu : Record) :
    formatMenu db n menu = (build (db .menu) isParent n menu).map (RoseTree.fold menuObject) := by
  induction n generalizing menu with
  | zero => rfl
  | succ n ih =>
    have hchildren : menuChildren db menu = (db .menu).filter (isParent menu) := rfl
    rw [formatMenu, build, hchildren, mapM_map_option fun child _ => ih child]
    cases hts : ((db .menu).filter (isParent menu)).mapM (build (db .menu) isParent n) with
    | none => rfl
    | some ts => simp [RoseTree.fold, RoseTree.foldAll_eq]

/-- **`get_menus` shows the forest of the menus.** -/
theorem getMenus_eq {db : DB} {ts : List (RoseTree Record)}
    (h : forest (db .menu) isRoot isParent = some ts) :
    getMenus db = { status := 200, body := .list (ts.map (RoseTree.fold menuObject)) } := by
  have hroots : (db .menu).filter isRoot = (db .menu).filter fun r => r.cell .parentId = .null := by
    refine List.filter_congr fun r _ => ?_
    rw [isRoot]
    rfl
  have hfilter : filterBy .menu .parentId .null db =
      .ok ((db .menu).filter fun r => r.cell .parentId = .null) := rfl
  unfold forest at h
  rw [hroots] at h
  rw [getMenus, hfilter]
  simp only [mapM_map_option fun menu _ => formatMenu_eq db _ menu, h, Option.map_some]

/-- `get_menus` answers with the forest `ts`: the recursion ends within as many calls as there are
    menus, every menu whose chain of parents ends in a menu without a parent is in it once and no
    other menu is, and each is below its parent. -/
structure AnswersForest (db : DB) (ts : List (RoseTree Record)) : Prop where
  ends : ∀ n, (db .menu).length ≤ n →
    ((db .menu).filter isRoot).mapM (formatMenu db n) = some (ts.map (RoseTree.fold menuObject))
  answer : getMenus db = { status := 200, body := .list (ts.map (RoseTree.fold menuObject)) }
  once : ((ts.flatMap RoseTree.nodes).map Row.id).Nodup
  grounded : ∀ menu, menu ∈ ts.flatMap RoseTree.nodes ↔ MenuGrounded db menu
  roots : ts.map RoseTree.top = (db .menu).filter isRoot
  placed : ∀ t ∈ ts, Unfolds (db .menu) isParent t

/-- **The answer of `get_menus`** for any menus whatsoever: cycles, menus that are their own
    parents and parents that do not exist are left out, and the recursion ends. -/
theorem get_menus_forest (db : DB) (hkeys : ((db .menu).map Row.id).Nodup) :
    ∃ ts, AnswersForest db ts := by
  obtain ⟨ts, hforest, hnodup, hmem⟩ := forest_spec hkeys.of_map (oneParent hkeys)
  obtain ⟨hroots, hplaced⟩ := tops_of_mapM (fun _ _ ht => unfolds_of_build ht) hforest
  have hends : ∀ n, (db .menu).length ≤ n →
      ((db .menu).filter isRoot).mapM (formatMenu db n) =
        some (ts.map (RoseTree.fold menuObject)) := by
    intro n hn
    rw [mapM_map_option fun menu _ => formatMenu_eq db n menu,
      mapM_mono (fun _ _ ht => build_of_le hn ht) hforest]
    rfl
  have honce : ((ts.flatMap RoseTree.nodes).map Row.id).Nodup := by
    refine hnodup.map_on fun a ha b hb hid => ?_
    exact List.inj_on_of_nodup_map hkeys ((hmem a).mp ha).mem ((hmem b).mp hb).mem hid
  exact ⟨ts, hends, getMenus_eq hforest, honce, hmem, hroots, hplaced⟩

/-- Menus with a cycle, a menu that is its own parent, a parent that does not exist and one menu
    below a root. -/
def tangledMenus : DB := DB.ofRows
  [(.menu, record 1 [(.name, .text "系统"), (.path, .text "/system")]),
   (.menu, record 2 [(.name, .text "角色"), (.path, .text "/system/role"), (.parentId, .int 1)]),
   (.menu, record 3 [(.name, .text "培训"), (.path, .text "/training"), (.parentId, .int 4)]),
   (.menu, record 4 [(.name, .text "学习"), (.path, .text "/training/record"), (.parentId, .int 3)]),
   (.menu, record 5 [(.name, .text "数据"), (.path, .text "/data"), (.parentId, .int 5)]),
   (.menu, record 6 [(.name, .text "字典"), (.path, .text "/data/dict"), (.parentId, .int 9)])]

/-- The recursion ends on menus with cycles. -/
theorem get_menus_forest_tangled : ∃ ts, AnswersForest tangledMenus ts :=
  get_menus_forest tangledMenus (by decide)

/-! ## What a response lists -/

mutual

/-- The ids of the objects in a response, down the lists under `children`. -/
def listed : Json → List ℤ
  | .list items => listedItems items
  | .dict entries => listedEntries entries
  | _ => []

/-- The ids in the objects of a list. -/
def listedItems : List Json → List ℤ
  | [] => []
  | item :: items => listed item ++ listedItems items

/-- The id of an object and the ids below it. -/
def listedEntries : List (Field × Json) → List ℤ
  | [] => []
  | entry :: entries => listedEntry entry ++ listedEntries entries

/-- The ids in an entry of an object. -/
def listedEntry : Field × Json → List ℤ
  | (.id, .int n) => [n]
  | (.children, j) => listed j
  | _ => []

end

theorem listedItems_eq (items : List Json) : listedItems items = items.flatMap listed := by
  induction items with
  | nil => simp [listedItems]
  | cons item items ih => rw [listedItems, ih, List.flatMap_cons]

theorem listed_menuObject (menu : Record) (children : List Json) :
    listed (menuObject menu children) = (menu.id : ℤ) :: children.flatMap listed := by
  simp [menuObject, shown, listed, listedEntries, listedEntry, listedItems_eq]

mutual

theorem listed_fold : ∀ t : RoseTree Record, listed
    (t.fold menuObject) = t.nodes.map fun menu => (menu.id : ℤ)
  | .node menu ts => by
    rw [RoseTree.fold, listed_menuObject, RoseTree.nodes, List.map_cons, listed_foldAll ts]

theorem listed_foldAll : ∀ ts : List (RoseTree Record),
    (RoseTree.foldAll menuObject ts).flatMap listed = (RoseTree.nodesAll ts).map fun menu =>
      (menu.id : ℤ)
  | [] => rfl
  | t :: ts => by
    rw [RoseTree.foldAll, List.flatMap_cons, listed_fold t, listed_foldAll ts, RoseTree.nodesAll,
      List.map_append]

end

/-- **A response lists the grounded menus**, each once. -/
theorem count_listed {db : DB} (hkeys : ((db .menu).map Row.id).Nodup) {menu : Record}
    (hmenu : menu ∈ db .menu) :
    (listed (getMenus db).body).count (menu.id : ℤ) = 1 ↔ MenuGrounded db menu := by
  obtain ⟨ts, hforest, hnodup, hmem⟩ := forest_spec hkeys.of_map (oneParent hkeys)
  have hids : listed (getMenus db).body = (ts.flatMap RoseTree.nodes).map fun menu =>
    (menu.id : ℤ) := by
    rw [getMenus_eq hforest]
    show listed (.list (ts.map (RoseTree.fold menuObject))) = _
    rw [listed, listedItems_eq, ← RoseTree.foldAll_eq, listed_foldAll, RoseTree.nodesAll_eq]
  have hinj : ∀ a ∈ ts.flatMap RoseTree.nodes, ∀ b ∈ ts.flatMap RoseTree.nodes,
      (a.id : ℤ) = b.id → a = b := by
    intro a ha b hb hid
    exact List.inj_on_of_nodup_map hkeys ((hmem a).mp ha).mem ((hmem b).mp hb).mem
      (by exact_mod_cast hid)
  rw [hids]
  refine Iff.trans ?_ (hmem menu)
  constructor
  · intro hcount
    have hpos : 0 < ((ts.flatMap RoseTree.nodes).map fun menu => (menu.id : ℤ)).count
        (menu.id : ℤ) := by
      omega
    obtain ⟨q, hq, hid⟩ := List.mem_map.mp (List.count_pos_iff.mp hpos)
    have hq' : q = menu :=
      List.inj_on_of_nodup_map hkeys ((hmem q).mp hq).mem hmenu (by exact_mod_cast hid)
    rw [← hq']
    exact hq
  · intro hlisted
    exact List.count_eq_one_of_mem (hnodup.map_on hinj) (List.mem_map_of_mem hlisted)

/-! ## Requests -/

/-- The requests of the menu page. -/
inductive MenuRequest
  | add (body : Body)
  | update (id : ℕ) (body : Body)
  | delete (id : ℕ)

/-- The handler a request is for. -/
def MenuRequest.toRequest : MenuRequest → Request
  | .add body => .create .menu body
  | .update id body => .update .menu id body
  | .delete id => .delete .menu id

/-- The parent a body names. -/
def namedParent (data : Json) : Value := keyValue (bodyValue data .parentId)

/-- What a request that is carried out does to the menus. -/
def MenuStep (menus menus' : List Record) : MenuRequest → Prop
  | .add body => ∃ data menu, body = .json data ∧ menu.id = nextId menus ∧
      menu.cell .parentId = namedParent data ∧ menus' = menus ++ [menu]
  | .update id body => ∃ data menu, ∃ g : Record → Record, body = .json data ∧ menu ∈ menus ∧
      menu.id = id ∧
      (∀ r, (g r).id = r.id) ∧ (∀ r, r.id ≠ id → g r = r) ∧
      (g menu).cell .parentId =
        (if data.has .parentId then namedParent data else menu.cell .parentId) ∧
      menus' = menus.map g
  | .delete id => ∃ menu ∈ menus, menu.id = id ∧ ∃ g : Record → Record, (∀ r, (g r).id = r.id) ∧
      (∀ r, (g r).cell .parentId = if r.cell .parentId = .int id then .null else r.cell .parentId) ∧
      menus' = (menus.filter fun r => r.id ≠ id).map g

/-- The foreign key of a menu. -/
def parentKey : Reference Table Field :=
  { table := .menu, column := .parentId, target := .menu, onDelete := .setNull }

theorem parentKey_mem : parentKey ∈ Table.menu.foreignKeys := List.mem_singleton_self _

/-- A new menu has the parent its body names. -/
theorem added_menu {k : Clock} {body : Body} {db db' : DB} (h : Created k .menu body db db') :
    MenuStep (db .menu) (db' .menu) (.add body) := by
  obtain ⟨data, attrs, w, rfl, hattrs, hins, -, hsame⟩ := h
  obtain rfl := hsame (by decide)
  have hparent : (newRow k .menu attrs db).cell .parentId = namedParent data :=
    (built_key (built_newRow hins) parentKey_mem).trans (attrs_key hattrs parentKey_mem)
  exact ⟨data, newRow k .menu attrs db, rfl, rfl, hparent, insertRow_rows hins⟩

/-- The parent of a menu after an update. -/
theorem updated_parent {data : Json} {row : Record} {id : ℕ} {db db' : DB}
    {assignments : List Assignment} {ops : List Op}
    (hassign : Resource.menu.assignments data row db = .ok assignments)
    (hops : updateOps .menu id assignments = .ok ops) (hall : applyAll applyOp ops db = .ok db') :
    (assignCells row (updateValues .menu assignments)).cell .parentId =
      if data.has .parentId then namedParent data else row.cell .parentId := by
  have hparent : if updatesKey data .parentId = true then
      (assignCells row (updateValues .menu assignments)).cell .parentId = namedParent data
    else
      (assignCells row (updateValues .menu assignments)).cell .parentId = row.cell .parentId ∨
        (assignCells row (updateValues .menu assignments)).cell .parentId = row.cell .parentId :=
    updated_key hassign hops hall parentKey_mem row
  have hupdates : updatesKey data .parentId = data.has .parentId := by simp [updatesKey]
  rw [hupdates] at hparent
  by_cases hhas : data.has .parentId = true
  · rw [if_pos hhas] at hparent ⊢
    exact hparent
  · rw [if_neg hhas] at hparent ⊢
    rcases hparent with hparent | hparent <;> exact hparent

/-- A menu that is updated has the parent its body names, or the one it had. -/
theorem updated_menu {k : Clock} {id : ℕ} {body : Body} {db db' : DB}
    (h : Updated k .menu id body db db') :
    MenuStep (db .menu) (db' .menu) (.update id body) := by
  obtain ⟨menu, data, assignments, ops, w, -, hfind, rfl, hassign, hops, hall, -, hsame⟩ := h
  obtain rfl := hsame (by simp)
  have hid : menu.id = id := find_id hfind
  refine ⟨data, menu, fun r => if r.id = id then assignCells r (updateValues .menu assignments)
    else r, rfl, mem_of_find hfind, hid, fun r => ?_, fun r hr => if_neg hr, ?_, ?_⟩
  · show (if r.id = id then assignCells r (updateValues .menu assignments) else r).id = r.id
    split_ifs <;> rfl
  · show ((if menu.id = id then assignCells menu (updateValues .menu assignments) else menu).cell
      .parentId) = _
    rw [if_pos hid]
    exact updated_parent hassign hops hall
  · rw [(updateOps_eq hops hall).1]
    exact setCells_same ..

/-- With a menu no other menu goes. -/
theorem removed_menu {id : ℕ} {r : Record} : Removed schema .menu id .menu r ↔ r.id = id := by
  have hno : ∀ ref ∈ foreignKeys, ¬ (ref.table = .menu ∧ ref.onDelete = .removeRow) := by decide
  refine ⟨fun hr => ?_, fun hr => Or.inl ⟨rfl, hr⟩⟩
  rcases hr with hr | ⟨ref, href, htable, -, hremove, -⟩
  · exact hr.2
  · exact absurd ⟨htable, hremove⟩ (hno ref href)

/-- The children of a menu lose their parent with it, and nothing else. -/
theorem nullified_menu {id : ℕ} {r : Record} {f : Field} :
    Nullified schema .menu id .menu r f ↔ f = .parentId ∧ r.cell .parentId = .int id := by
  have hkey : ∀ ref ∈ foreignKeys, ref.table = .menu → ref.column = .parentId := by decide
  have href : parentKey ∈ foreignKeys := (mem_tableForeignKeys.mp parentKey_mem).1
  constructor
  · rintro ⟨ref, href, htable, rfl, -, -, hcell⟩
    rw [hkey ref href htable] at hcell ⊢
    exact ⟨rfl, hcell⟩
  · rintro ⟨rfl, hcell⟩
    exact ⟨_, href, rfl, rfl, rfl, rfl, hcell⟩

/-- The children of a menu that is deleted have no parent afterwards. -/
theorem deleted_menu {id : ℕ} {db db' : DB} (h : Deleted .menu id db db') :
    MenuStep (db .menu) (db' .menu) (.delete id) := by
  obtain ⟨menu, others, -, hfind, hothers, hall⟩ := h
  cases hothers
  have hdel : applyOp (.delete .menu id) db = .ok db' := (applyAll_singleton _ _ _).symm.trans hall
  obtain ⟨-, rfl⟩ := deleteRow_eq_ok.mp hdel
  refine ⟨menu, mem_of_find hfind, find_id hfind, detach schema .menu id .menu, fun r => rfl,
    fun r => ?_, ?_⟩
  · show (if Nullified schema .menu id .menu r .parentId then Value.null else r.cell .parentId) = _
    simp only [nullified_menu, true_and]
  · show ((db .menu).filter fun r => ¬ Removed schema .menu id .menu r).map _ = _
    simp only [removed_menu]

/-- **What a menu request does**: it refuses and leaves the database as it was, or it is
    carried out. -/
theorem menu_cases (k : Clock) (request : MenuRequest) (db : DB) :
    Runs db (handle k request.toRequest db) fun db' => MenuStep (db .menu) (db' .menu) request := by
  cases request with
  | add body => exact (handle_create k .menu body db).imp fun _ h => added_menu h
  | update id body => exact (handle_update k .menu id body db).imp fun _ h => updated_menu h
  | delete id => exact (handle_delete k .menu id db).imp fun _ h => deleted_menu h

/-- Menu requests keep the ids of the menus distinct. -/
theorem menuStep_keys {menus menus' : List Record} {request : MenuRequest}
    (hkeys : (menus.map Row.id).Nodup) (h : MenuStep menus menus' request) :
    (menus'.map Row.id).Nodup := by
  cases request with
  | add body =>
    obtain ⟨data, menu, -, hid, -, rfl⟩ := h
    rw [List.map_append, List.map_singleton, List.nodup_append]
    refine ⟨hkeys, List.nodup_singleton _, fun a ha b hb hab => ?_⟩
    obtain ⟨q, hq, rfl⟩ := List.mem_map.mp ha
    have hlt : q.id < nextId menus := lt_nextId hq
    rw [List.mem_singleton] at hb
    omega
  | update id body =>
    obtain ⟨data, menu, g, -, -, -, hid, -, -, rfl⟩ := h
    have hcomp : Row.id ∘ g = Row.id := funext hid
    rw [List.map_map, hcomp]
    exact hkeys
  | delete id =>
    obtain ⟨menu, -, -, g, hid, -, rfl⟩ := h
    have hcomp : Row.id ∘ g = Row.id := funext hid
    rw [List.map_map, hcomp]
    exact hkeys.sublist (List.filter_sublist.map _)

/-! ## What keeps the menus grounded -/

/-- The parent a request gives to a menu is none, or an existing menu that is not below
    the menu. -/
def MenuRequest.GoodParent (menus : List Record) : MenuRequest → Prop
  | .add (.json data) => namedParent data = .null ∨ ∃ p ∈ menus, namedParent data = .int p.id
  | .update id (.json data) => data.has .parentId = true →
      namedParent data = .null ∨ ∃ p ∈ menus, namedParent data = .int p.id ∧
        ∀ menu ∈ menus, menu.id = id → ¬ Descends menus isParent menu p
  | _ => True

/-- Every menu is grounded. -/
def AllGrounded (menus : List Record) : Prop := ∀ menu ∈ menus, Grounded menus isRoot isParent menu

theorem isRoot_of {menu : Record} (h : menu.cell .parentId = .null) : isRoot menu = true :=
  beq_iff_eq.mpr h

theorem isParent_of {p menu : Record} (h : menu.cell .parentId = .int p.id) :
    isParent p menu = true :=
  beq_iff_eq.mpr h

/-- A grounded menu has no parent, or an existing one. -/
theorem parent_of_grounded {menus : List Record} {menu : Record}
    (h : Grounded menus isRoot isParent menu) :
    menu.cell .parentId = .null ∨ ∃ p ∈ menus, menu.cell .parentId = .int p.id ∧
      isParent p menu = true := by
  rcases h.parent with hroot | ⟨p, hp, he⟩
  · exact Or.inl (beq_iff_eq.mp hroot)
  · exact Or.inr ⟨p, hp.mem, beq_iff_eq.mp he.2.2, he.2.2⟩

/-- **Adding.** -/
theorem added_grounded_iff {menus menus' : List Record} {body : Body}
    (hkeys : (menus'.map Row.id).Nodup) (hall : AllGrounded menus)
    (h : MenuStep menus menus' (.add body)) :
    AllGrounded menus' ↔ (MenuRequest.add body).GoodParent menus := by
  obtain ⟨data, menu, rfl, hid, hparent, rfl⟩ := h
  have hold : ∀ p ∈ menus, Grounded (menus ++ [menu]) isRoot isParent p := fun p hp =>
    (hall p hp).mono (List.subset_append_left ..)
  have hnew : menu ∈ menus ++ [menu] := List.mem_append_right _ (List.mem_singleton_self _)
  constructor
  · intro hall'
    show namedParent data = .null ∨ ∃ p ∈ menus, namedParent data = .int p.id
    rw [← hparent]
    rcases parent_of_grounded (hall' menu hnew) with hroot | ⟨p, hp, hcell, hpm⟩
    · exact Or.inl hroot
    rcases List.mem_append.mp hp with hp | hp
    · exact Or.inr ⟨p, hp, hcell⟩
    -- the new menu would be its own parent
    · obtain rfl := List.mem_singleton.mp hp
      exact absurd (hall' p hnew) (not_grounded_of_cycle (oneParent hkeys) .refl ⟨hnew, hnew, hpm⟩)
  · intro hgood p hp
    rcases List.mem_append.mp hp with hp | hp
    · exact hold p hp
    obtain rfl := List.mem_singleton.mp hp
    have hgood : namedParent data = .null ∨ ∃ q ∈ menus, namedParent data = .int q.id := hgood
    rw [← hparent] at hgood
    rcases hgood with hroot | ⟨q, hq, hcell⟩
    · exact .of_root hnew (isRoot_of hroot)
    · exact (hold q hq).of_parent ⟨List.mem_append_left _ hq, hnew, isParent_of hcell⟩

/-- **Updating.** -/
theorem updated_grounded_iff {menus menus' : List Record} {id : ℕ} {body : Body}
    (hkeys : (menus.map Row.id).Nodup) (hkeys' : (menus'.map Row.id).Nodup)
    (hall : AllGrounded menus)
    (h : MenuStep menus menus' (.update id body)) :
    AllGrounded menus' ↔ (MenuRequest.update id body).GoodParent menus := by
  obtain ⟨data, menu, g, rfl, hmenu, rfl, hid, hother, hparent, rfl⟩ := h
  have honly : ∀ r ∈ menus, r.id = menu.id → r = menu := fun r hr he =>
    List.inj_on_of_nodup_map hkeys hr hmenu he
  have hmem : ∀ r ∈ menus, g r ∈ menus.map g := fun r hr => List.mem_map_of_mem hr
  have hsame : ∀ r ∈ menus, r ≠ menu → g r = r :=
    fun r hr hne => hother r fun he => hne (honly r hr he)
  -- the parents of the other menus are what they were
  have hroot : ∀ r ∈ menus, r ≠ menu → isRoot r = true → isRoot (g r) = true := by
    intro r hr hne h
    rw [hsame r hr hne]
    exact h
  have hchild : ∀ p, ∀ r ∈ menus, r ≠ menu → isParent p r = true → isParent (g p) (g r) = true := by
    intro p r hr hne h
    rw [hsame r hr hne, isParent, hid p]
    exact h
  have hgrounded : (isRoot (g menu) = true ∨ ∃ p ∈ menus, ¬ Descends menus isParent menu p ∧
      isParent (g p) (g menu) = true) → AllGrounded (menus.map g) := by
    intro hm r' hr'
    obtain ⟨r, hr, rfl⟩ := List.mem_map.mp hr'
    refine (hall r hr).reparent g hmem hroot hchild ?_ hmenu
    exact hm.imp_right fun ⟨p, hp, hnot, he⟩ => ⟨p, hall p hp, hnot, he⟩
  by_cases hhas : data.has .parentId = true
  · rw [if_pos hhas] at hparent
    constructor
    · intro hall' _
      rw [← hparent]
      rcases parent_of_grounded (hall' (g menu) (hmem menu hmenu)) with hnull |
        ⟨p', hp', hcell, hpm⟩
      · exact Or.inl hnull
      obtain ⟨p, hp, rfl⟩ := List.mem_map.mp hp'
      refine Or.inr ⟨p, hp, by rw [hcell, hid p], fun q hq hqid hbelow => ?_⟩
      -- a parent below the menu closes a cycle
      obtain rfl := honly q hq hqid
      have hbelow' : Descends (menus.map g) isParent (g q) (g p) :=
        Descends.reparent g hmem hchild hbelow
      exact not_grounded_of_cycle (oneParent hkeys') hbelow' ⟨hp', hmem q hq, hpm⟩
        (hall' _ (hmem q hq))
    · intro hgood
      have hgood := hgood hhas
      rw [← hparent] at hgood
      refine hgrounded (hgood.imp isRoot_of ?_)
      rintro ⟨p, hp, hcell, hnot⟩
      exact ⟨p, hp, hnot menu hmenu rfl, isParent_of (by rw [hcell, hid p])⟩
  · rw [if_neg hhas] at hparent
    refine iff_of_true (hgrounded ?_) fun h => absurd h hhas
    rcases parent_of_grounded (hall menu hmenu) with hnull | ⟨p, hp, hcell, hpm⟩
    · exact Or.inl (isRoot_of (hparent.trans hnull))
    · refine Or.inr ⟨p, hp, fun hbelow => ?_, isParent_of (by rw [hparent, hcell, hid p])⟩
      exact not_grounded_of_cycle (oneParent hkeys) hbelow ⟨hp, hmenu, hpm⟩ (hall menu hmenu)

/-- **Deleting.** -/
theorem deleted_grounded {menus menus' : List Record} {id : ℕ} (hkeys : (menus.map Row.id).Nodup)
    (hall : AllGrounded menus) (h : MenuStep menus menus' (.delete id)) : AllGrounded menus' := by
  obtain ⟨menu, hmenu, rfl, g, hid, hparent, rfl⟩ := h
  intro r' hr'
  obtain ⟨r, hr, rfl⟩ := List.mem_map.mp hr'
  obtain ⟨hr, hne⟩ := List.mem_filter.mp hr
  have hne : r ≠ menu := fun he => of_decide_eq_true hne (congrArg Row.id he)
  refine (hall r hr).prune g (m := menu) ?_ ?_ ?_ ?_ hne
  · intro a ha hne
    refine List.mem_map_of_mem (List.mem_filter.mpr ⟨ha, decide_eq_true fun he => hne ?_⟩)
    exact List.inj_on_of_nodup_map hkeys ha hmenu he
  · intro a ha
    have hnull : a.cell .parentId = .null := beq_iff_eq.mp ha
    exact isRoot_of (by rw [hparent a, hnull]; rfl)
  · intro a ha
    have hcell : a.cell .parentId = .int menu.id := beq_iff_eq.mp ha
    exact isRoot_of (by rw [hparent a, if_pos hcell])
  · intro p a _ ha
    have hcell : a.cell .parentId = .int p.id := beq_iff_eq.mp ha
    by_cases hdeleted : a.cell .parentId = .int menu.id
    · exact Or.inr (isRoot_of (by rw [hparent a, if_pos hdeleted]))
    · exact Or.inl (isParent_of (by rw [hparent a, if_neg hdeleted, hcell, hid p]))

/-- **A request keeps all menus grounded** iff the parent it gives a menu is good. -/
theorem menuStep_grounded_iff {menus menus' : List Record} {request : MenuRequest}
    (hkeys : (menus.map Row.id).Nodup) (hall : AllGrounded menus)
    (h : MenuStep menus menus' request) :
    AllGrounded menus' ↔ request.GoodParent menus := by
  have hkeys' := menuStep_keys hkeys h
  cases request with
  | add body => exact added_grounded_iff hkeys' hall h
  | update id body => exact updated_grounded_iff hkeys hkeys' hall h
  | delete id => exact iff_of_true (deleted_grounded hkeys hall h) trivial

/-! ## Runs -/

/-- A run: requests, each with the clocks at its time. -/
abbrev MenuRun := List (Clock × MenuRequest)

/-- The states a run goes through. -/
def states (db : DB) : MenuRun → List DB
  | [] => [db]
  | (k, request) :: run => db :: states (handle k request.toRequest db).2 run

/-- Every request of a run that is carried out gives a good parent. -/
def AllGoodParents : DB → MenuRun → Prop :=
  Along MenuRequest.toRequest fun db request => request.GoodParent (db .menu)

/-- Every menu is once in the tree that `get_menus` returns. -/
def AllListed (db : DB) : Prop :=
  ∀ menu ∈ db .menu, (listed (getMenus db).body).count (menu.id : ℤ) = 1

instance (db : DB) : Decidable (AllListed db) := by unfold AllListed; infer_instance

theorem allListed_iff {db : DB} (hkeys : ((db .menu).map Row.id).Nodup) :
    AllListed db ↔ AllGrounded (db .menu) :=
  forall₂_congr fun _ hmenu => count_listed hkeys hmenu

theorem self_mem_states (db : DB) (run : MenuRun) : db ∈ states db run := by
  cases run <;> exact List.mem_cons_self ..

/-- From a state whose menus are all in the tree. -/
theorem allListed_states_iff {db : DB} {run : MenuRun} (hkeys : ((db .menu).map Row.id).Nodup)
    (hall : AllGrounded (db .menu)) : (∀ w ∈ states db run, AllListed w) ↔
    AllGoodParents db run := by
  induction run generalizing db with
  | nil =>
    refine iff_of_true (fun w hw => ?_) trivial
    rw [List.mem_singleton.mp hw]
    exact (allListed_iff hkeys).mpr hall
  | cons step run ih =>
    obtain ⟨k, request⟩ := step
    rw [states, List.forall_mem_cons]
    show _ ↔ (_ → request.GoodParent (db .menu)) ∧
      AllGoodParents (handle k request.toRequest db).2 run
    rw [and_iff_right ((allListed_iff hkeys).mpr hall)]
    rcases menu_cases k request db with ⟨hbad, hsame⟩ | ⟨hgood, hstep⟩
    · rw [hsame, and_iff_right fun h => absurd h hbad]
      exact ih hkeys hall
    have hkeys' := menuStep_keys hkeys hstep
    have hgrounded := menuStep_grounded_iff hkeys hall hstep
    constructor
    · intro hlisted
      have hall' : AllGrounded ((handle k request.toRequest db).2 .menu) :=
        (allListed_iff hkeys').mp (hlisted _ (self_mem_states _ run))
      exact ⟨fun _ => hgrounded.mp hall', (ih hkeys' hall').mp hlisted⟩
    · rintro ⟨hparent, hrun⟩
      exact (ih hkeys' (hgrounded.mpr (hparent hgood))).mpr hrun

/-- **The menu tree.** In a run from no menus, every menu is once in the tree of every
    state iff every request that is carried out gives a good parent. -/
theorem menus_listed_iff (db : DB) (hempty : db .menu = []) (run : MenuRun) :
    (∀ w ∈ states db run, AllListed w) ↔ AllGoodParents db run := by
  refine allListed_states_iff ?_ ?_
  · rw [hempty]
    exact List.nodup_nil
  · rw [hempty]
    exact fun menu hmenu => nomatch hmenu

/-- A menu at the top. -/
def addSystemMenu : MenuRequest :=
  .add (.json (.dict [(.name, .str "系统"), (.path, .str "/system")]))

/-- A menu below the first one. -/
def addRoleMenu : MenuRequest :=
  .add (.json (.dict [(.name, .str "角色"), (.path, .str "/role"), (.parentId, .int 1)]))

/-- A menu below a menu is listed. -/
theorem menus_listed_iff_child :
    (∃ w ∈ states (fun _ => []) [(.epoch, addSystemMenu), (.epoch, addRoleMenu)],
      (w .menu).length = 2) ∧
      ∀ w ∈ states (fun _ => []) [(.epoch, addSystemMenu), (.epoch, addRoleMenu)], AllListed w := by
  refine ⟨⟨_, List.mem_of_getLast? (rfl : List.getLast? _ = some _), by decide⟩, ?_⟩
  exact (menus_listed_iff (fun _ => []) rfl [(.epoch, addSystemMenu), (.epoch, addRoleMenu)]).mpr
    ⟨fun _ => Or.inl rfl, fun _ => Or.inr ⟨_, List.mem_cons_self .., rfl⟩, trivial⟩

/-- A menu that becomes its own parent is not listed. -/
theorem menu_below_itself_not_listed :
    ¬ ∀ w ∈ states (fun _ => [])
      [(.epoch, addSystemMenu), (.epoch, .update 1 (.json (.dict [(.parentId, .int 1)])))],
        AllListed w := by
  intro h
  refine absurd (h _ (List.mem_cons_of_mem _ (List.mem_cons_of_mem _ (List.mem_cons_self ..)))) ?_
  decide

end ProjectEvaluation.Backend
