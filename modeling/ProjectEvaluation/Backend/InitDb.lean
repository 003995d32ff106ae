import ProjectEvaluation.Backend.Orm

/-!
# `init_db.py`

The script that fills a new database. `db.create_all()` adds tables, not rows. Every row is looked
up by one of its columns and added where the query finds none; the query of the next row flushes
the row before it.

Results:
* `run_initDb`: what the script leaves in the database, without the session.
-/

namespace ProjectEvaluation.Backend

open Python Relational Transaction

/-! ## The data -/

/-- A row of the script: the text it is looked up by, and its attributes. -/
structure Seed where
  key : String
  attrs : List (Field × Attr)

/-- An entry of `roles` (`init_db.py`, lines 12–19). -/
def roleSeed (name description : String) : Seed where
  key := name
  attrs := [(.name, .json (.str name)), (.description, .json (.str description))]

/-- `roles` (`init_db.py`, lines 11–20). -/
def roles : List Seed :=
  [roleSeed "管理员" "系统管理员，拥有所有权限", roleSeed "评审经理" "负责项目评审管理",
   roleSeed "现场经理" "负责现场实施管理", roleSeed "现场人员" "负责现场实施工作",
   roleSeed "售前人员" "负责售前技术支持", roleSeed "销售人员" "负责项目销售",
   roleSeed "需求人员" "负责需求分析", roleSeed "医院人员" "医院相关人员"]

/-- An entry of `menu_data` (`init_db.py`, lines 33–57). -/
structure MenuSeed where
  name : String
  path : String
  icon : String
  parentId : Option ℕ
  order : ℕ

/-- The row of an entry of `menu_data`. -/
def MenuSeed.seed (item : MenuSeed) : Seed where
  key := item.path
  attrs := [(.name, .json (.str item.name)), (.path, .json (.str item.path)),
    (.icon, .json (.str item.icon)), (.parentId, .json (item.parentId.elim .null fun n => .int n)),
    (.order, .json (.int item.order))]

/-- `menu_data` (`init_db.py`, lines 31–58). -/
def menuData : List MenuSeed :=
  [⟨"我的待办", "/todo", "todo", none, 1⟩,
   ⟨"任务通知", "/todo/notification", "notification", some 1, 1⟩,
   ⟨"调研任务", "/todo/research", "research", some 1, 2⟩,
   ⟨"实施计划", "/todo/implementation", "implementation", some 1, 3⟩,
   ⟨"学习任务", "/todo/learning", "learning", some 1, 4⟩,
   ⟨"项目管理", "/project", "project", none, 2⟩,
   ⟨"项目清单", "/project/list", "list", some 6, 1⟩,
   ⟨"调研任务", "/project/research", "research", some 6, 2⟩,
   ⟨"实施计划", "/project/implementation", "implementation", some 6, 3⟩,
   ⟨"培训任务", "/project/training", "training", some 6, 4⟩,
   ⟨"项目培训", "/training", "training", none, 3⟩,
   ⟨"课件管理", "/training/courseware", "courseware", some 11, 1⟩,
   ⟨"学习目录", "/training/catalog", "courseware", some 11, 2⟩,
   ⟨"查看学习", "/training/learning", "learning", some 11, 3⟩,
   ⟨"系统设置", "/system", "system", none, 4⟩,
   ⟨"用户管理", "/system/user", "user", some 14, 1⟩,
   ⟨"角色授权", "/system/role", "role", some 14, 2⟩,
   ⟨"系统皮肤", "/system/skin", "skin", some 14, 3⟩,
   ⟨"系统字典", "/system/dict", "dict", some 14, 4⟩,
   ⟨"菜单管理", "/system/menu", "menu", some 14, 5⟩,
   ⟨"规范目录", "/system/standard-catalog", "standard", some 14, 6⟩,
   ⟨"调研模板", "/system/research-template", "standard", some 14, 7⟩]

/-- `default_skin`, looked up by its type (`init_db.py`, lines 69–74). -/
def defaultSkin : Seed where
  key := "default"
  attrs := [(.name, .json (.str "默认皮肤")), (.type, .json (.str "default")),
    (.config, .json
      (.str "\x7b\"primaryColor\": \"#1890ff\", \"layout\": \"side\", \"fixedHeader\": true\x7d")),
    (.isDefault, .json (.bool true))]

/-- `admin_user`, looked up by its username (`init_db.py`, lines 80–86). -/
def adminUser : Seed where
  key := "admin"
  attrs := [(.username, .json (.str "admin")), (.password, .json (.str "admin123")),
    (.name, .json (.str "系统管理员")), (.email, .json (.str "admin@example.com")),
    (.roleId, .json (.int 1))]

/-! ## The script -/

/-- `if not Model.query.filter_by(f=key).first(): db.session.add(Model(**attrs))` (`init_db.py`,
    lines 23–25, 61–63, 75–76 and 79–87). -/
def addMissing (k : Clock) (t : Table) (f : Field) (item : Seed) : Txn DB Op Exn Unit := do
  if ← query applyOp (exists? t f (.str item.key)) then pure () else stage (.insert k t item.attrs)

/-- The loop over the rows of a table (`init_db.py`, lines 22–25 and 60–63). -/
def addAllMissing (k : Clock) (t : Table) (f : Field) : List Seed → Txn DB Op Exn Unit
  | [] => pure ()
  | item :: items => do
    addMissing k t f item
    addAllMissing k t f items

/-- The script (`init_db.py`, lines 5–90). -/
def initDb (k : Clock) : Txn DB Op Exn Unit := do
  addAllMissing k .role .name roles
  commit applyOp
  addAllMissing k .menu .path (menuData.map MenuSeed.seed)
  commit applyOp
  addAllMissing k .systemSkin .type [defaultSkin]
  addAllMissing k .user .username [adminUser]
  commit applyOp

/-- Run the script: the exception that ends it, if one does, and the database it leaves. -/
def runInitDb (k : Clock) (db : DB) : Option Exn × DB :=
  match exec (initDb k) (Session.init db) with
  | (.ok (), s) => (none, s.committed)
  | (.error e, s) => (some e, s.committed)

/-! ## Without the session -/

/-- A text is in a column of a table. -/
def Present (t : Table) (f : Field) (key : String) (db : DB) : Prop :=
  ∃ r ∈ db t, r.cell f = .text key

instance (t : Table) (f : Field) (key : String) (db : DB) : Decidable (Present t f key db) := by
  unfold Present; infer_instance

/-- Add a row where it is missing. -/
def seeded (k : Clock) (t : Table) (f : Field) (item : Seed) (db : DB) : Except Exn DB :=
  if Present t f item.key db then .ok db else insertRow k t item.attrs db

/-- A query by a text finds a row iff one has it. -/
theorem exists?_text {t : Table} {f : Field} {c : Column} (hc : t.column f = some c)
    (hty : c.type = .string)
    (key : String) (db : DB) : exists? t f (.str key) db = .ok (decide (Present t f key db)) := by
  have hbind : bindJson c.type (.str key) = .ok (.text key) := by rw [hty]; rfl
  rw [exists?, filterBy_of_bind hc (fun h => by cases h) hbind]
  refine congrArg Except.ok ?_
  by_cases hpresent : Present t f key db
  · obtain ⟨r, hr, hcell⟩ := hpresent
    rw [decide_eq_true ⟨r, hr, hcell⟩]
    have hmem : r ∈ (db t).filter fun r => Value.text key ≠ .null ∧ r.cell f = .text key :=
      List.mem_filter.mpr ⟨hr, by simp [hcell]⟩
    cases hrows : (db t).filter fun r => Value.text key ≠ .null ∧ r.cell f = .text key with
    | nil => rw [hrows] at hmem; cases hmem
    | cons _ _ => rfl
  · rw [decide_eq_false hpresent]
    have hnone : ((db t).filter fun r => Value.text key ≠ .null ∧ r.cell f = .text key) = [] := by
      refine List.filter_eq_nil_iff.mpr fun r hr h => hpresent ⟨r, hr, ?_⟩
      exact (of_decide_eq_true h).2
    rw [hnone]
    rfl

/-- What the pending operations of a session would leave. -/
def flushed (s : Session DB Op) : Except Exn DB := applyAll applyOp s.pending s.work

/-- **The loop** adds the rows that are missing, the last of them at the next flush. -/
theorem exec_addAllMissing (k : Clock) {t : Table} {f : Field} {c : Column}
    (hc : t.column f = some c)
    (hty : c.type = .string) (items : List Seed) (s : Session DB Op) :
    (∃ s', exec (addAllMissing k t f items) s = (.ok (), s') ∧ s'.committed = s.committed ∧
      flushed s' = (flushed s).bind (applyAll (seeded k t f) items)) ∨
    ∃ e e' s', exec (addAllMissing k t f items) s = (.error e, s') ∧ s'.committed = s.committed ∧
      (flushed s).bind (applyAll (seeded k t f) items) = .error e' := by
  induction items generalizing s with
  | nil => exact Or.inl ⟨s, rfl, rfl, by cases flushed s <;> rfl⟩
  | cons item items ih =>
    cases hflush : flushed s with
    | error e =>
      refine Or.inr ⟨e, e, { s with work := s.committed, pending := [] }, ?_, rfl, rfl⟩
      unfold flushed at hflush
      simp [addAllMissing, addMissing, exec_bind, query, exec_flush, hflush]
    | ok w =>
      -- after the query the session holds what was flushed
      obtain ⟨next, hexec, hcommitted, hflushed⟩ : ∃ next,
          exec (addMissing k t f item) s = (.ok (), next) ∧
          next.committed = s.committed ∧ flushed next = seeded k t f item w := by
        unfold flushed at hflush
        have hexists := exists?_text hc hty item.key w
        by_cases hpresent : Present t f item.key w
        · refine ⟨{ committed := s.committed, work := w, pending := [] }, ?_, rfl,
            (if_pos hpresent).symm⟩
          simp [addMissing, exec_bind, query, exec_flush, hflush, hexists, hpresent]
        · refine ⟨{ committed := s.committed, work := w, pending := [.insert k t item.attrs] },
            ?_, rfl, ?_⟩
          · simp [addMissing, exec_bind, query, exec_flush, hflush, hexists, hpresent]
          · rw [seeded, if_neg hpresent]
            exact applyAll_singleton _ _ _
      rw [addAllMissing, exec_bind_ok hexec, ← hcommitted]
      have hrest := ih next
      rw [hflushed] at hrest
      exact hrest

/-- A loop and the commit after it, before the rest of the script. -/
theorem exec_addAllMissing_commit (k : Clock) {t : Table} {f : Field} {c : Column}
    (hc : t.column f = some c)
    (hty : c.type = .string) (items : List Seed) (rest : Txn DB Op Exn Unit) (db : DB) :
    (∃ e e' s, exec (addAllMissing k t f items >>= fun _ => commit applyOp >>= fun _ => rest)
        (Session.init db) =
        (.error e, s) ∧ s.committed = db ∧ applyAll (seeded k t f) items db = .error e') ∨
    ∃ db', exec (addAllMissing k t f items >>= fun _ => commit applyOp >>= fun _ => rest)
        (Session.init db) =
        exec rest (Session.init db') ∧ applyAll (seeded k t f) items db = .ok db' := by
  rcases exec_addAllMissing k hc hty items (Session.init db) with ⟨s, hexec, hcommitted, hflushed⟩ |
    ⟨e, e', s, hexec, hcommitted, hfail⟩
  · rw [exec_bind_ok hexec, exec_bind, exec_commit]
    change flushed s = applyAll (seeded k t f) items db at hflushed
    cases hseeded : applyAll (seeded k t f) items db with
    | error e =>
      have hfail : applyAll applyOp s.pending s.work = .error e := hflushed.trans hseeded
      rw [hfail]
      exact Or.inl ⟨e, e, _, rfl, hcommitted, rfl⟩
    | ok db' =>
      have hdone : applyAll applyOp s.pending s.work = .ok db' := hflushed.trans hseeded
      rw [hdone]
      exact Or.inr ⟨db', rfl, rfl⟩
  · exact Or.inl ⟨e, e', s, exec_bind_error hexec, hcommitted, hfail⟩

/-- **What the script does.** It commits three times; an exception takes back what was not
    committed. -/
theorem run_initDb (k : Clock) (db : DB) :
    (∃ e e', applyAll (seeded k .role .name) roles db = .error e' ∧ runInitDb k db = (some e, db)) ∨
    ∃ db₁, applyAll (seeded k .role .name) roles db = .ok db₁ ∧
      ((∃ e e', applyAll (seeded k .menu .path) (menuData.map MenuSeed.seed) db₁ = .error e' ∧
          runInitDb k db = (some e, db₁)) ∨
        ∃ db₂, applyAll (seeded k .menu .path) (menuData.map MenuSeed.seed) db₁ = .ok db₂ ∧
          ((∃ e e', (seeded k .systemSkin .type defaultSkin db₂).bind
              (seeded k .user .username adminUser) = .error e' ∧
              runInitDb k db = (some e, db₂)) ∨
            ∃ db₃, (seeded k .systemSkin .type defaultSkin db₂).bind
              (seeded k .user .username adminUser) = .ok db₃ ∧
              runInitDb k db = (none, db₃))) := by
  have hfails : ∀ {e : Exn} {s : Session DB Op}, exec (initDb k) (Session.init db) = (.error e, s) →
      runInitDb k db = (some e, s.committed) := by
    intro e s hexec
    rw [runInitDb, hexec]
  rcases exec_addAllMissing_commit k (t := .role) (f := .name) rfl rfl roles _ db with
    ⟨e, e', s, hexec, hs, hfail⟩ | ⟨db₁, hexec₁, hdb₁⟩
  · exact Or.inl ⟨e, e', hfail, hs ▸ hfails hexec⟩
  refine Or.inr ⟨db₁, hdb₁, ?_⟩
  rcases exec_addAllMissing_commit k (t := .menu) (f := .path) rfl rfl
    (menuData.map MenuSeed.seed) _ db₁ with
    ⟨e, e', s, hexec, hs, hfail⟩ | ⟨db₂, hexec₂, hdb₂⟩
  · exact Or.inl ⟨e, e', hfail, hs ▸ hfails (hexec₁.trans hexec)⟩
  refine Or.inr ⟨db₂, hdb₂, ?_⟩
  have hexec := hexec₁.trans hexec₂
  have hone : ∀ x : Except Exn DB, x.bind (applyAll (seeded k .user .username) [adminUser]) =
      x.bind (seeded k .user .username adminUser) := by
    intro x
    cases x with
    | error e => rfl
    | ok w => exact applyAll_singleton _ _ _
  rcases exec_addAllMissing k (t := .systemSkin) (f := .type) rfl rfl [defaultSkin]
    (Session.init db₂) with
    ⟨s₁, hexec₃, hs₁, hskin⟩ | ⟨e, e', s, hexec₃, hs, hfail⟩
  · rw [exec_bind_ok hexec₃] at hexec
    have hskin : flushed s₁ = seeded k .systemSkin .type defaultSkin db₂ :=
      hskin.trans (applyAll_singleton _ _ _)
    rcases exec_addAllMissing k (t := .user) (f := .username) rfl rfl [adminUser] s₁ with
      ⟨s₂, hexec₄, hs₂, huser⟩ | ⟨e, e', s, hexec₄, hs, hfail⟩
    · rw [hskin, hone] at huser
      have hs₂ : s₂.committed = db₂ := hs₂.trans hs₁
      rw [exec_bind_ok hexec₄, exec_commit] at hexec
      cases hlast : (seeded k .systemSkin .type defaultSkin db₂).bind
        (seeded k .user .username adminUser) with
      | error e =>
        have hfail : applyAll applyOp s₂.pending s₂.work = .error e := huser.trans hlast
        rw [hfail] at hexec
        have hrun : runInitDb k db = (some e, s₂.committed) :=
          hfails (s := { committed := s₂.committed, work := s₂.committed, pending := [] }) hexec
        exact Or.inl ⟨e, e, rfl, by rw [hrun, hs₂]⟩
      | ok db₃ =>
        have hdone : applyAll applyOp s₂.pending s₂.work = .ok db₃ := huser.trans hlast
        rw [hdone] at hexec
        refine Or.inr ⟨db₃, rfl, ?_⟩
        rw [runInitDb, initDb, hexec]
    · rw [exec_bind_error hexec₄] at hexec
      rw [hskin, hone] at hfail
      have hs : s.committed = db₂ := hs.trans hs₁
      exact Or.inl ⟨e, e', hfail, hs ▸ hfails hexec⟩
  · rw [exec_bind_error hexec₃] at hexec
    have hskin : seeded k .systemSkin .type defaultSkin db₂ = .error e' :=
      (applyAll_singleton _ _ _).symm.trans hfail
    have hs : s.committed = db₂ := hs
    refine Or.inl ⟨e, e', ?_, hs ▸ hfails hexec⟩
    rw [hskin]
    rfl

end ProjectEvaluation.Backend
