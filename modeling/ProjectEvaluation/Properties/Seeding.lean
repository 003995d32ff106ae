import ProjectEvaluation.Backend.InitDb
import ProjectEvaluation.Properties.StoredRows

/-!
# Seeding a database

`init_db.py` may be run on any database: an empty one, one it was run on before, one the users
have worked on.

Results:
* `initDb_again`: a second run changes nothing.
* `seeded_parent_iff`: when the literal parent of an inserted menu is the menu of its module.
-/

namespace ProjectEvaluation.Backend

open Python Relational Transaction

/-! ## One row -/

theorem seeded_eq_ok {k : Clock} {t : Table} {f : Field} {item : Seed} {db db' : DB} :
    seeded k t f item db = .ok db' ↔
      (Present t f item.key db ∧ db' = db) ∨
        (¬ Present t f item.key db ∧ insertRow k t item.attrs db = .ok db') := by
  unfold seeded
  by_cases hpresent : Present t f item.key db
  · simp [hpresent, eq_comm]
  · simp [hpresent]

/-- Rows are only added, and only to the table they are for. -/
theorem seeded_grows {k : Clock} {t : Table} {f : Field} {item : Seed} {db db' : DB}
    (h : seeded k t f item db = .ok db') :
    (∀ t', db t' ⊆ db' t') ∧ ∀ t', t' ≠ t → db' t' = db t' := by
  rcases seeded_eq_ok.mp h with ⟨-, rfl⟩ | ⟨-, hins⟩
  · exact ⟨fun _ _ hr => hr, fun _ _ => rfl⟩
  · refine ⟨fun t' r hr => ?_, fun t' ht => insertRow_other hins ht⟩
    rw [(insertRow_eq_ok.mp hins).2.2]
    exact mem_insert.mpr (Or.inl hr)

theorem Present.mono {t : Table} {f : Field} {key : String} {db db' : DB} (h : Present t f key db)
    (hsub : db t ⊆ db' t) : Present t f key db' := by
  obtain ⟨r, hr, hcell⟩ := h
  exact ⟨r, hsub hr, hcell⟩

/-- The rows of a list have the texts they are looked up by. -/
def Keyed (f : Field) (items : List Seed) : Prop :=
  ∀ item ∈ items, item.attrs.lookup f = some (.json (.str item.key))

/-- A row that is built has its text. -/
theorem built_text {k : Clock} {t : Table} {f : Field} {c : Column} (hc : t.column f = some c)
    (hty : c.type = .string)
    {attrs : List (Field × Attr)} {key : String}
    (hlookup : attrs.lookup f = some (.json (.str key))) {row : Record}
    (h : Built k t attrs row) : row.cell f = .text key := by
  have hbind : (Attr.json (.str key)).bind c.type = .ok (row.cell f) := built_cell h hc hlookup rfl
  rw [hty] at hbind
  exact (Except.ok.inj hbind).symm

/-- A row that was missing is there. -/
theorem seeded_present {k : Clock} {t : Table} {f : Field} {c : Column} (hc : t.column f = some c)
    (hty : c.type = .string) {item : Seed}
    (hkey : item.attrs.lookup f = some (.json (.str item.key))) {db db' : DB}
    (h : seeded k t f item db = .ok db') : Present t f item.key db' := by
  rcases seeded_eq_ok.mp h with ⟨hpresent, rfl⟩ | ⟨-, hins⟩
  · exact hpresent
  · refine ⟨newRow k t item.attrs db, ?_, built_text hc hty hkey (built_newRow hins)⟩
    rw [(insertRow_eq_ok.mp hins).2.2]
    exact mem_insert.mpr (Or.inr ⟨rfl, rfl⟩)

/-! ## The loop -/

/-- The loop only adds rows to its table. -/
theorem seedAll_grows {k : Clock} {t : Table} {f : Field} {items : List Seed} {db db' : DB}
    (h : applyAll (seeded k t f) items db = .ok db') :
    (∀ t', db t' ⊆ db' t') ∧ ∀ t', t' ≠ t → db' t' = db t' := by
  refine applyAll_preserves (P := fun w : DB => (∀ t', db t' ⊆ w t') ∧ ∀ t',
    t' ≠ t → w t' = db t') _ ?_
    ⟨fun _ _ hr => hr, fun _ _ => rfl⟩ h
  rintro item w w' ⟨hsub, hother⟩ hseeded
  obtain ⟨hsub', hother'⟩ := seeded_grows hseeded
  exact ⟨fun t' r hr => hsub' t' (hsub t' hr), fun t' ht => (hother' t' ht).trans (hother t' ht)⟩

/-- After the loop every row of the list is there. -/
theorem seedAll_present {k : Clock} {t : Table} {f : Field} {c : Column} (hc : t.column f = some c)
    (hty : c.type = .string) {items : List Seed} (hkeyed : Keyed f items) {db db' : DB}
    (h : applyAll (seeded k t f) items db = .ok db') :
    ∀ item ∈ items, Present t f item.key db' := by
  induction items generalizing db with
  | nil => exact fun item hmem => nomatch hmem
  | cons item items ih =>
    rw [applyAll_cons, bind_eq_ok] at h
    obtain ⟨w, hseeded, h⟩ := h
    obtain ⟨hkey, hkeyed⟩ := List.forall_mem_cons.mp hkeyed
    exact List.forall_mem_cons.mpr
      ⟨(seeded_present hc hty hkey hseeded).mono ((seedAll_grows h).1 t), ih hkeyed h⟩

/-- Where every row is there, the loop changes nothing. -/
theorem seedAll_again (k : Clock) {t : Table} {f : Field} {items : List Seed} {db : DB}
    (h : ∀ item ∈ items, Present t f item.key db) : applyAll (seeded k t f) items db = .ok db := by
  induction items with
  | nil => rfl
  | cons item items ih =>
    obtain ⟨hpresent, hrest⟩ := List.forall_mem_cons.mp h
    rw [applyAll_cons, seeded, if_pos hpresent]
    exact ih hrest

/-! ## The script again -/

theorem roles_keyed : Keyed .name roles := by
  intro item hitem
  simp only [roles, List.mem_cons, List.not_mem_nil, or_false] at hitem
  rcases hitem with rfl | rfl | rfl | rfl | rfl | rfl | rfl | rfl <;> rfl

theorem menus_keyed : Keyed .path (menuData.map MenuSeed.seed) := by
  intro item hitem
  obtain ⟨m, -, rfl⟩ := List.mem_map.mp hitem
  rfl

/-- **A second run of the script** completes and leaves every table as the first run left it. -/
theorem initDb_again (k k' : Clock) (db : DB) (h : (runInitDb k db).1 = none) :
    (runInitDb k' (runInitDb k db).2).1 = none ∧
      (runInitDb k' (runInitDb k db).2).2 = (runInitDb k db).2 := by
  rcases run_initDb k db with ⟨e, -, -, hrun⟩ |
    ⟨db₁, hroles, ⟨e, -, -, hrun⟩ | ⟨db₂, hmenus, ⟨e, -, -, hrun⟩ | ⟨db₃, hlast, hrun⟩⟩⟩
  · rw [hrun] at h; cases h
  · rw [hrun] at h; cases h
  · rw [hrun] at h; cases h
  rw [hrun]
  obtain ⟨w, hskin, huser⟩ := bind_eq_ok.mp hlast
  -- whatever a step finds or adds stays to the end
  have hskinGrows := (seeded_grows hskin).1
  have huserGrows := (seeded_grows huser).1
  have hlastGrows : ∀ t, db₂ t ⊆ db₃ t := fun t r hr => huserGrows t (hskinGrows t hr)
  have hmenusGrows := (seedAll_grows hmenus).1
  have hrolesHere : ∀ item ∈ roles, Present .role .name item.key db₃ := fun item hitem =>
    (seedAll_present (c := uniqueColumn .name) rfl rfl roles_keyed hroles item hitem).mono
      fun r hr => hlastGrows _ (hmenusGrows _ hr)
  have hmenusHere : ∀ item ∈ menuData.map MenuSeed.seed, Present .menu .path item.key db₃ :=
    fun item hitem =>
    (seedAll_present (c := required .path .string) rfl rfl menus_keyed hmenus item hitem).mono
      (hlastGrows _)
  have hskinHere : Present .systemSkin .type "default" db₃ :=
    (seeded_present (c := required .type .string) rfl rfl rfl hskin).mono (huserGrows _)
  have huserHere : Present .user .username "admin" db₃ :=
    seeded_present (c := uniqueColumn .username) rfl rfl rfl huser
  have hrolesAgain := seedAll_again k' hrolesHere
  have hmenusAgain := seedAll_again k' hmenusHere
  have hlastAgain : (seeded k' .systemSkin .type defaultSkin db₃).bind
      (seeded k' .user .username adminUser) = .ok db₃ :=
    bind_eq_ok.mpr ⟨db₃, if_pos hskinHere, if_pos huserHere⟩
  rcases run_initDb k' db₃ with ⟨e, e', herror, -⟩ | ⟨v₁, hv₁, hrest⟩
  · rw [hrolesAgain] at herror; cases herror
  obtain rfl := Except.ok.inj (hrolesAgain.symm.trans hv₁)
  rcases hrest with ⟨e, e', herror, -⟩ | ⟨v₂, hv₂, hrest⟩
  · rw [hmenusAgain] at herror; cases herror
  obtain rfl := Except.ok.inj (hmenusAgain.symm.trans hv₂)
  rcases hrest with ⟨e, e', herror, -⟩ | ⟨v₃, hv₃, hrun'⟩
  · rw [hlastAgain] at herror; cases herror
  obtain rfl := Except.ok.inj (hlastAgain.symm.trans hv₃)
  rw [hrun']
  exact ⟨rfl, rfl⟩

/-- A second run on the rows of the first one. -/
theorem initDb_again_empty :
    (runInitDb .epoch (runInitDb .epoch fun _ => []).2).1 = none ∧
      (runInitDb .epoch (runInitDb .epoch fun _ => []).2).2 = (runInitDb .epoch fun _ => []).2 :=
  initDb_again .epoch .epoch (fun _ => []) (by decide +kernel)

/-! ## The rows the loop adds -/

/-- The rows of a list that a database lacks. -/
def missing (t : Table) (f : Field) (items : List Seed) (db : DB) : List Seed :=
  items.filter fun item => ¬ Present t f item.key db

/-- **The loop adds the missing rows**, in their order: a row that it adds is not the one that a
    later row is looked up by. -/
theorem seedAll_inserts {k : Clock} {t : Table} {f : Field} {c : Column} (hc : t.column f = some c)
    (hty : c.type = .string) {items : List Seed} (hkeyed : Keyed f items)
    (hnodup : (items.map Seed.key).Nodup)
    (db : DB) : applyAll (seeded k t f) items db =
      applyAll applyOp (((missing t f items db).map Seed.attrs).map (.insert k t)) db := by
  induction items generalizing db with
  | nil => rfl
  | cons item items ih =>
    obtain ⟨hkey, hkeyed⟩ := List.forall_mem_cons.mp hkeyed
    obtain ⟨hfresh, hnodup⟩ := List.nodup_cons.mp hnodup
    by_cases hpresent : Present t f item.key db
    · have hmissing : missing t f (item :: items) db = missing t f items db :=
        List.filter_cons_of_neg (by simpa using hpresent)
      rw [applyAll_cons, seeded, if_pos hpresent, hmissing]
      exact ih hkeyed hnodup db
    · have hmissing : missing t f (item :: items) db = item :: missing t f items db :=
        List.filter_cons_of_pos (by simpa using hpresent)
      rw [applyAll_cons, seeded, if_neg hpresent, hmissing, List.map_cons, List.map_cons,
        applyAll_cons]
      change (insertRow k t item.attrs db).bind _ = (insertRow k t item.attrs db).bind _
      cases hins : insertRow k t item.attrs db with
      | error e => rfl
      | ok w =>
        -- the new row is found by its own text only
        have hsame : missing t f items w = missing t f items db := by
          refine List.filter_congr fun later hlater => ?_
          refine decide_eq_decide.mpr (not_congr ⟨fun hlaterPresent => ?_, fun hold => ?_⟩)
          · obtain ⟨r, hr, hcell⟩ := hlaterPresent
            rw [(insertRow_eq_ok.mp hins).2.2] at hr
            rcases mem_insert.mp hr with hr | ⟨-, rfl⟩
            · exact ⟨r, hr, hcell⟩
            · rw [built_text hc hty hkey (built_newRow hins)] at hcell
              have hsameKey : item.key = later.key := Value.text.inj hcell
              exact absurd (hsameKey ▸ List.mem_map_of_mem hlater) hfresh
          · refine hold.mono fun r hr => ?_
            rw [(insertRow_eq_ok.mp hins).2.2]
            exact mem_insert.mpr (Or.inl hr)
        show applyAll (seeded k t f) items w = _
        rw [ih hkeyed hnodup w, hsame]
        rfl

/-! ## Parents -/

/-- The path of the module of a page: the path up to its second slash. -/
def modulePrefix (path : String) : String :=
  String.ofList ('/' :: (path.toList.drop 1).takeWhile (· ≠ '/'))

/-- The row a menu's `parent_id` refers to has the path of the menu's module. -/
def InModule (db : DB) (menu : Record) : Prop :=
  ∃ path parent, menu.cell .path = .text path ∧
    related .menu (menu.cell .parentId) db = some parent ∧
    parent.cell .path = .text (modulePrefix path)

/-- The entries of `menu_data` whose path no menu has. -/
def missingMenus (db : DB) : List MenuSeed :=
  menuData.filter fun item => ¬ Present .menu .path item.path db

/-- The literal parent of an entry is a menu with the path of its module, or the number that the
    module's own entry gets. -/
def NamesModule (db : DB) (path : String) (parent : ℕ) : Prop :=
  (∃ menu ∈ db .menu, menu.id = parent ∧ menu.cell .path = .text (modulePrefix path)) ∨
    ∃ i, (missingMenus db)[i]?.map MenuSeed.path = some (modulePrefix path) ∧
      parent = nextId (db .menu) + i

/-- The menus the script adds: one for each missing entry, numbered from the next key on. -/
def MenusAdded (k : Clock) (db db' : DB) : Prop :=
  ∃ new, db' .menu = db .menu ++ new ∧ new.length = (missingMenus db).length ∧
    ∀ (i : ℕ) (item : MenuSeed), (missingMenus db)[i]? = some item →
      ∃ row, new[i]? = some row ∧ row.id = nextId (db .menu) + i ∧ Built k .menu item.seed.attrs row

theorem seedMenus_added {k : Clock} {db db' : DB}
    (h : applyAll (seeded k .menu .path) (menuData.map MenuSeed.seed) db = .ok db') :
    MenusAdded k db db' := by
  have hnodup : ((menuData.map MenuSeed.seed).map Seed.key).Nodup := by decide
  rw [seedAll_inserts (c := required .path .string) rfl rfl menus_keyed hnodup] at h
  obtain ⟨new, hnew, hlength, hnumbered⟩ := insertAll_numbered h
  have hmissing : missing .menu .path (menuData.map MenuSeed.seed) db =
      (missingMenus db).map MenuSeed.seed := by
    rw [missing, missingMenus, List.filter_map]
    rfl
  rw [hmissing, List.map_map] at hlength hnumbered
  refine ⟨new, hnew, by rw [hlength, List.length_map],
    fun i item hi => hnumbered i item.seed.attrs ?_⟩
  rw [List.getElem?_map, hi]
  rfl

/-- **The menus after the script**: those before it, or with the missing ones added. -/
theorem menus_after (k : Clock) (db : DB) :
    (runInitDb k db).2 .menu = db .menu ∨ MenusAdded k db (runInitDb k db).2 := by
  rcases run_initDb k db with ⟨e, e', -, hrun⟩ | ⟨db₁, hroles, hrest⟩
  · exact Or.inl (by rw [hrun])
  have hmenu₁ : db₁ .menu = db .menu := (seedAll_grows hroles).2 .menu (by decide)
  -- the roles are not among what decides on the menus
  have hadded : ∀ {db₂ w : DB},
      applyAll (seeded k .menu .path) (menuData.map MenuSeed.seed) db₁ = .ok db₂ →
      w .menu = db₂ .menu → MenusAdded k db w := by
    intro db₂ w hmenus hw
    have hmissing : missingMenus db₁ = missingMenus db := by
      refine List.filter_congr fun item _ => decide_eq_decide.mpr ?_
      rw [Present, Present, hmenu₁]
    have hrows := seedMenus_added hmenus
    unfold MenusAdded at hrows ⊢
    rwa [hmissing, hmenu₁, ← hw] at hrows
  rcases hrest with ⟨e, e', -, hrun⟩ | ⟨db₂, hmenus, ⟨e, e', -, hrun⟩ | ⟨db₃, hlast, hrun⟩⟩
  · exact Or.inl (by rw [hrun]; exact hmenu₁)
  · exact Or.inr (by rw [hrun]; exact hadded hmenus rfl)
  · obtain ⟨w, hskin, huser⟩ := bind_eq_ok.mp hlast
    have hmenu₃ : db₃ .menu = db₂ .menu :=
      ((seeded_grows huser).2 .menu (by decide)).trans ((seeded_grows hskin).2 .menu (by decide))
    exact Or.inr (by rw [hrun]; exact hadded hmenus hmenu₃)

/-- The row the script inserts for an entry of `menu_data`. -/
structure InsertedFor (k : Clock) (db : DB) (item : MenuSeed) (menu : Record) : Prop where
  entry : item ∈ menuData
  row : menu ∈ (runInitDb k db).2 .menu
  new : ∀ old ∈ db .menu, old.id ≠ menu.id
  path : menu.cell .path = .text item.path

/-- **The parents of the seeded menus.** Whatever the database held, the parent of an inserted
    submenu is the menu of its module iff its literal `parent_id` is the id of a menu that has the
    path of the module already, or the number the module's own entry gets. -/
theorem seeded_parent_iff (k : Clock) {db : DB} (hkeys : ((db .menu).map Row.id).Nodup)
    {item : MenuSeed} {parent : ℕ}
    (hparent : item.parentId = some parent) {menu : Record} (h : InsertedFor k db item menu) :
    InModule (runInitDb k db).2 menu ↔ NamesModule db item.path parent := by
  rcases menus_after k db with hsame | ⟨new, hnew, hlength, hnumbered⟩
  · exact absurd rfl (h.new menu (hsame ▸ h.row))
  -- a new row is that of an entry, with the number of its place among the missing ones
  have hentry : ∀ p ∈ new, ∃ i m, (missingMenus db)[i]? = some m ∧ p.id = nextId (db .menu) + i ∧
      p.cell .path = .text m.path ∧ Built k .menu m.seed.attrs p := by
    intro p hp
    obtain ⟨i, hi⟩ := List.mem_iff_getElem?.mp hp
    have hlt : i < (missingMenus db).length := hlength ▸ (List.getElem?_eq_some_iff.mp hi).1
    obtain ⟨row, hrow, hid, hbuilt⟩ := hnumbered i _ (List.getElem?_eq_getElem hlt)
    obtain rfl : row = p := Option.some.inj (hrow.symm.trans hi)
    exact ⟨i, _, List.getElem?_eq_getElem hlt, hid,
      built_text (c := required .path .string) (f := .path) rfl rfl rfl hbuilt, hbuilt⟩
  have hmenu : menu ∈ new := by
    rcases List.mem_append.mp (hnew ▸ h.row) with hold | hmem
    · exact absurd rfl (h.new menu hold)
    · exact hmem
  -- the inserted row has the literal parent
  have hcell : menu.cell .parentId = .int parent := by
    obtain ⟨i, m, hi, -, hpath, hbuilt⟩ := hentry menu hmenu
    have hm : m ∈ menuData := (List.mem_filter.mp (List.mem_of_getElem? hi)).1
    have hpaths : (menuData.map MenuSeed.path).Nodup := by decide
    obtain rfl : m = item :=
      List.inj_on_of_nodup_map hpaths hm h.entry (Value.text.inj (hpath.symm.trans h.path))
    have hlookup : m.seed.attrs.lookup .parentId = some (.json (.int parent)) := by
      show some (Attr.json (m.parentId.elim .null fun n => .int n)) = _
      rw [hparent]
      rfl
    exact bindJson_int
      (built_cell (c := (optional .parentId .integer).to .menu) hbuilt rfl hlookup rfl)
  have hrelated : ∀ p, related .menu (menu.cell .parentId) (runInitDb k db).2 = some p →
      p ∈ db .menu ++ new ∧ p.id = parent := by
    intro p hp
    rw [related, hcell, hnew] at hp
    have hid : (parent : ℤ) = p.id := by
      have := List.find?_some hp
      simpa using (of_decide_eq_true this).symm
    exact ⟨List.mem_of_find?_eq_some hp, by exact_mod_cast hid.symm⟩
  constructor
  · rintro ⟨path, p, hpath, hp, hmodule⟩
    obtain rfl : path = item.path := Value.text.inj (hpath.symm.trans h.path)
    obtain ⟨hmem, hid⟩ := hrelated p hp
    rcases List.mem_append.mp hmem with hold | hmem
    · exact Or.inl ⟨p, hold, hid, hmodule⟩
    · obtain ⟨i, m, hi, hnumber, hpath, -⟩ := hentry p hmem
      refine Or.inr ⟨i, ?_, hid.symm.trans hnumber⟩
      rw [hi, Option.map_some, Value.text.inj (hpath.symm.trans hmodule)]
  · intro hnames
    -- a row with the number exists, and every such row has the path of the module
    obtain ⟨⟨q, hq, hqid⟩, hall⟩ : (∃ q ∈ db .menu ++ new, q.id = parent) ∧
        ∀ p ∈ db .menu ++ new, p.id = parent → p.cell .path = .text (modulePrefix item.path) := by
      rcases hnames with ⟨q, hq, hqid, hqpath⟩ | ⟨i, hi, hnumber⟩
      · refine ⟨⟨q, List.mem_append_left _ hq, hqid⟩, fun p hp hid => ?_⟩
        rcases List.mem_append.mp hp with hold | hmem
        · rw [List.inj_on_of_nodup_map hkeys hold hq (hid.trans hqid.symm), hqpath]
        · obtain ⟨i, m, -, hnumber, -⟩ := hentry p hmem
          have hlt := lt_nextId hq
          omega
      · obtain ⟨m, hm, hmpath⟩ := Option.map_eq_some_iff.mp hi
        obtain ⟨q, hq, hqid, -⟩ := hnumbered i m hm
        refine ⟨⟨q, List.mem_append_right _ (List.mem_of_getElem? hq), hqid.trans hnumber.symm⟩,
          fun p hp hid => ?_⟩
        rcases List.mem_append.mp hp with hold | hmem
        · have hlt := lt_nextId hold
          omega
        · obtain ⟨j, m', hj, hnumber', hpath, -⟩ := hentry p hmem
          obtain rfl : i = j := by omega
          obtain rfl : m = m' := Option.some.inj (hm.symm.trans hj)
          rw [hpath, hmpath]
    obtain ⟨p, hp⟩ : ∃ p, related .menu (menu.cell .parentId) (runInitDb k db).2 = some p := by
      rw [← Option.isSome_iff_exists, related, hcell, hnew, List.find?_isSome]
      exact ⟨q, hq, by simp [hqid]⟩
    obtain ⟨hmem, hid⟩ := hrelated p hp
    exact ⟨item.path, p, h.path, hp, hall p hmem hid⟩


/-- The database the script makes of an empty one. -/
def seededDatabase : DB := (runInitDb .epoch fun _ => []).2

theorem seededDatabase_rows :
    (find (seededDatabase .menu) 2).map (·.cell .path) = some (.text "/todo/notification") ∧
      (find (seededDatabase .menu) 16).map (·.cell .path) = some (.text "/system/user") ∧
      (find (seededDatabase .menu) 16).map (fun menu =>
        (related .menu (menu.cell .parentId) seededDatabase).map (·.cell .path)) =
          some (some (.text "/training/learning")) := by
  decide +kernel

/-- In an empty database the first module gets the number its pages name. -/
theorem seeded_parent_iff_todo : ∃ menu,
    InsertedFor .epoch (fun _ => []) ⟨"任务通知", "/todo/notification", "notification",
      some 1, 1⟩ menu ∧
      InModule (runInitDb .epoch fun _ => []).2 menu := by
  obtain ⟨menu, hmenu, hpath⟩ := Option.map_eq_some_iff.mp seededDatabase_rows.1
  have hinserted : InsertedFor .epoch (fun _ => []) ⟨"任务通知", "/todo/notification", "notification",
      some 1, 1⟩ menu :=
    ⟨List.mem_of_getElem? (i := 1) rfl, mem_of_find hmenu, fun _ hold => (nomatch hold), hpath⟩
  refine ⟨menu, hinserted, (seeded_parent_iff .epoch (by decide) rfl hinserted).mpr
    (Or.inr ⟨0, ?_, rfl⟩)⟩
  decide

/-- In an empty database the pages of the system settings end up below "查看学习". -/
theorem seeded_parent_of_another_module :
    ¬ ∀ (k : Clock) (db : DB) (item : MenuSeed) (menu : Record), item.parentId ≠ none →
      InsertedFor k db item menu → InModule (runInitDb k db).2 menu := by
  intro h
  obtain ⟨menu, hmenu, hpath⟩ := Option.map_eq_some_iff.mp seededDatabase_rows.2.1
  have hparent := seededDatabase_rows.2.2
  rw [hmenu] at hparent
  obtain ⟨path, p, hpath', hp, hmodule⟩ :=
    h .epoch (fun _ => []) ⟨"用户管理", "/system/user", "user", some 14, 1⟩ menu
    (by simp) ⟨List.mem_of_getElem? (i := 15) rfl, mem_of_find hmenu,
      fun _ hold => (nomatch hold), hpath⟩
  obtain rfl : path = "/system/user" := Value.text.inj (hpath'.symm.trans hpath)
  have hfound : (related .menu (menu.cell .parentId) seededDatabase).map (·.cell .path) =
      some (.text "/training/learning") :=
    Option.some.inj hparent
  have hp : related .menu (menu.cell .parentId) seededDatabase = some p := hp
  rw [hp, Option.map_some, hmodule] at hfound
  exact absurd (Option.some.inj hfound) (by decide)

end ProjectEvaluation.Backend
