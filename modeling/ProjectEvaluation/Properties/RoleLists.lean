import ProjectEvaluation.Properties.StoredRows

/-!
# The role list of a courseware

`update_training_courseware` clears the role list and appends the roles of the body one by one.
A lookup that the session cannot answer flushes the list as it is at that moment, so the
association rows may be deleted and inserted again on the way.

Results:
* `exec_appendRoles`: the loop without the session.
* `targetsAfter_again`: the loop run on its own result ends in that result.
-/

namespace ProjectEvaluation.Backend

open Python Relational Transaction

/-! ## The loop without the session -/

/-- The database after the role loop and the flush that follows it. -/
def targetsAfter (k : Clock) (courseware : ℕ) : List ℕ → List ℕ → List Json → DB → Except Exn DB
  | _, roles, [], w => setTargets k courseware roles w
  | known, roles, j :: js, w =>
    (identity j).bind fun key =>
      match inSession (known ++ roles) key with
      | some r => targetsAfter k courseware known (roles ++ [r]) js w
      | none =>
        (setTargets k courseware roles w).bind fun w' =>
          (loadByKey .role key w').bind fun found =>
            targetsAfter k courseware roles (roles ++ (found.map Row.id).toList) js w'

/-- **The role loop**, without the session. -/
theorem exec_appendRoles (k : Clock) (courseware : ℕ) (db : DB) : ∀ js known roles w,
    (∃ e s, targetsAfter k courseware known roles js w = .error e ∧
      exec (appendRoles (fun _ roles => [.setTargets k courseware roles]) known roles js)
        { committed := db, work := w, pending := [] } = (.error e, s) ∧ s.committed = db) ∨
    ∃ known' roles' w', targetsAfter k courseware known roles js w =
      setTargets k courseware roles' w' ∧
      exec (appendRoles (fun _ roles => [.setTargets k courseware roles]) known roles js)
        { committed := db, work := w, pending := [] } =
          (.ok (known', roles'), { committed := db, work := w', pending := [] }) := by
  intro js
  induction js with
  | nil => exact fun known roles w => Or.inr ⟨known, roles, w, rfl, rfl⟩
  | cons j js ih =>
    intro known roles w
    simp only [exec_appendRoles_cons, applyAll_singleton, applyOp, targetsAfter]
    cases identity j with
    | error e => exact Or.inl ⟨e, _, rfl, rfl, rfl⟩
    | ok key =>
      simp only [Except.bind]
      cases inSession (known ++ roles) key with
      | some r => exact ih known (roles ++ [r]) w
      | none =>
        cases setTargets k courseware roles w with
        | error e => exact Or.inl ⟨e, _, rfl, rfl, rfl⟩
        | ok w' =>
          simp only
          cases loadByKey .role key w' with
          | error e => exact Or.inl ⟨e, _, rfl, rfl, rfl⟩
          | ok found => exact ih roles (roles ++ (found.map Row.id).toList) w'

/-! ## One change of a role list -/

/-- A role of the list that is not to be on it: its association row goes. -/
def leaves (courseware : ℕ) (roles : List ℕ) (db : DB) (q : Record) : Bool :=
  q.cell .coursewareId == .int courseware && (related .role (q.cell .roleId) db).isSome &&
    !(roles.any fun n => q.cell .roleId == .int n)

theorem leaves_eq_true {courseware : ℕ} {roles : List ℕ} {db : DB} {q : Record} :
    leaves courseware roles db q = true ↔
      q.cell .coursewareId = .int courseware ∧ (related .role (q.cell .roleId) db).isSome = true ∧
        ∀ n ∈ roles, q.cell .roleId ≠ .int n := by
  simp [leaves, and_assoc]

/-- Whether a row goes depends on the roles of the database only. -/
theorem leaves_congr {courseware : ℕ} {roles : List ℕ} {db db' : DB} (h : db' .role = db .role)
    (q : Record) :
    leaves courseware roles db' q = leaves courseware roles db q := by
  unfold leaves related
  rw [h]

theorem mem_targetsOf {db : DB} {courseware : ℕ} {v : Value} :
    v ∈ targetsOf db courseware ↔
      ∃ q ∈ db .trainingTargets, q.cell .coursewareId = .int courseware ∧ q.cell .roleId = v := by
  simp [targetsOf, and_assoc]

theorem bind_value_eq {v w : Value} {ty : ColType}
    (h : (Attr.value v).bind ty = .ok w) : w = v := by
  simp only [Attr.bind] at h
  split_ifs at h
  exact (Except.ok.inj h).symm

/-- The association row of a role. -/
theorem built_target {k : Clock} {courseware role : ℕ} {q : Record}
    (h : Built k .trainingTargets (targetAttrs courseware role) q) :
    q.cell .coursewareId = .int courseware ∧ q.cell .roleId = .int role :=
  ⟨bind_value_eq (built_cell (f := .coursewareId) h rfl rfl rfl),
    bind_value_eq (built_cell (f := .roleId) h rfl rfl rfl)⟩

/-- **A change of a role list**: the rows that are not to be there go, and one is added for each
    role that was not on the list. -/
theorem setTargets_spec {k : Clock} {courseware : ℕ} {roles : List ℕ} {db db' : DB}
    (h : setTargets k courseware roles db = .ok db') :
    ∃ new, db' .trainingTargets =
        ((db .trainingTargets).filter fun q => !leaves courseware roles db q) ++ new ∧
      (∀ q ∈ new, ∃ r ∈ roles, Value.int r ∉ targetsOf db courseware ∧
        q.cell .coursewareId = .int courseware ∧ q.cell .roleId = .int r) ∧
      ∀ r ∈ roles, Value.int r ∉ targetsOf db courseware →
        ∃ q ∈ new, q.cell .coursewareId = .int courseware ∧ q.cell .roleId = .int r := by
  simp only [setTargets] at h
  split_ifs at h
  have hrows : ∀ added : List ℕ, ∀ w : DB,
      applyAll (fun role => insertRow k .trainingTargets (targetAttrs courseware role)) added w =
        applyAll applyOp ((added.map (targetAttrs courseware)).map (.insert k .trainingTargets))
          w := by
    intro added w
    rw [applyAll_map, applyAll_map]
    rfl
  rw [hrows] at h
  obtain ⟨new, hnew, hbuilt, -⟩ := insertAll_new h
  refine ⟨new, ?_, fun q hq => ?_, fun r hr hfresh => ?_⟩
  · rw [hnew, removeWhere, Function.update_self]
    rfl
  · obtain ⟨attrs, hattrs, hq'⟩ := exists_of_forall₂ hbuilt.flip q hq
    obtain ⟨r, hr, rfl⟩ := List.mem_map.mp hattrs
    obtain ⟨hr, hfresh⟩ := List.mem_filter.mp hr
    exact ⟨r, hr, of_decide_eq_true hfresh, built_target hq'⟩
  · have hadded : targetAttrs courseware r ∈
        (roles.filter fun (r : ℕ) => Value.int r ∉ targetsOf db courseware).map
        (targetAttrs courseware) :=
      List.mem_map_of_mem (List.mem_filter.mpr ⟨hr, decide_eq_true hfresh⟩)
    obtain ⟨q, hq, hq'⟩ := exists_of_forall₂ hbuilt _ hadded
    exact ⟨q, hq, built_target hq'⟩

/-- Where no role is new, the rows that are not to be there go. -/
theorem setTargets_removes (k : Clock) {courseware : ℕ} {roles : List ℕ} {db : DB}
    (h : ∀ r ∈ roles, Value.int r ∈ targetsOf db courseware) :
    setTargets k courseware roles db =
      .ok (removeWhere db .trainingTargets (leaves courseware roles db)) := by
  have hnone : (roles.filter fun (r : ℕ) => Value.int r ∉ targetsOf db courseware) = [] := by
    simpa using h
  simp only [setTargets, hnone, List.nodup_nil, if_true, applyAll_nil]
  rfl

/-- The role list of a courseware is as it was set: no row is to go, and every role has one. -/
structure Settled (courseware : ℕ) (roles : List ℕ) (db : DB) : Prop where
  kept : ∀ q ∈ db .trainingTargets, leaves courseware roles db q = false
  present : ∀ r ∈ roles, Value.int r ∈ targetsOf db courseware

theorem setTargets_settled {k : Clock} {courseware : ℕ} {roles : List ℕ} {db db' : DB}
    (h : setTargets k courseware roles db = .ok db') : Settled courseware roles db' := by
  obtain ⟨new, hrows, hnew, hadded⟩ := setTargets_spec h
  have hrole : db' .role = db .role := setTargets_other h (by decide)
  constructor
  · intro q hq
    rw [leaves_congr hrole, ← Bool.not_eq_true]
    rw [hrows] at hq
    rcases List.mem_append.mp hq with hq | hq
    · simpa using (List.mem_filter.mp hq).2
    · obtain ⟨r, hr, -, -, hcell⟩ := hnew q hq
      exact fun hleaves => (leaves_eq_true.mp hleaves).2.2 r hr hcell
  · intro r hr
    rw [mem_targetsOf, hrows]
    by_cases hold : Value.int r ∈ targetsOf db courseware
    · obtain ⟨q, hq, hcourseware, hcell⟩ := mem_targetsOf.mp hold
      refine ⟨q, List.mem_append_left _ (List.mem_filter.mpr ⟨hq, ?_⟩), hcourseware, hcell⟩
      have hstays : ¬ leaves courseware roles db q = true := fun hleaves =>
        (leaves_eq_true.mp hleaves).2.2 r hr hcell
      simpa using hstays
    · obtain ⟨q, hq, hcells⟩ := hadded r hr hold
      exact ⟨q, List.mem_append_right _ hq, hcells⟩

/-- **Setting a role list again** changes nothing. -/
theorem Settled.again (k : Clock) {courseware : ℕ} {roles : List ℕ} {db : DB}
    (h : Settled courseware roles db) :
    setTargets k courseware roles db = .ok db := by
  rw [setTargets_removes k h.present]
  have hrows : (db .trainingTargets).filter (fun q => !leaves courseware roles db q) =
      db .trainingTargets :=
    List.filter_eq_self.mpr fun q hq => by rw [h.kept q hq]; rfl
  rw [removeWhere, hrows, Function.update_eq_self]

/-! ## What later changes add -/

/-- The database `w` has got association rows for roles that are not on the list `roles` but on the
    list `more`, and nothing else happened to it. -/
structure Extended (courseware : ℕ) (roles more : List ℕ) (w v : DB) : Prop where
  rows : ∃ new, v .trainingTargets = w .trainingTargets ++ new ∧
    ∀ q ∈ new, q.cell .coursewareId = .int courseware ∧ ∃ r ∈ more,
      r ∉ roles ∧ q.cell .roleId = .int r
  other : ∀ t, t ≠ .trainingTargets → v t = w t

theorem Extended.refl (courseware : ℕ) (roles more : List ℕ) (w : DB) :
    Extended courseware roles more w w where
  rows := ⟨[], (List.append_nil _).symm, fun _ hq => nomatch hq⟩
  other _ _ := rfl

theorem Extended.mono {courseware : ℕ} {roles more more' : List ℕ} {w v : DB}
    (h : Extended courseware roles more w v)
    (hsub : more ⊆ more') : Extended courseware roles more' w v where
  rows := by
    obtain ⟨new, hrows, hnew⟩ := h.rows
    refine ⟨new, hrows, fun q hq => ?_⟩
    obtain ⟨hcourseware, r, hr, hrest⟩ := hnew q hq
    exact ⟨hcourseware, r, hsub hr, hrest⟩
  other := h.other

/-- A longer list adds rows. -/
theorem Extended.set {k : Clock} {courseware : ℕ} {roles more : List ℕ} {w v v' : DB}
    (h : Extended courseware roles more w v) (hw : Settled courseware roles w) (hsub : roles ⊆ more)
    (hset : setTargets k courseware more v = .ok v') : Extended courseware roles more w v' := by
  obtain ⟨old, hrows, hold⟩ := h.rows
  obtain ⟨new, hrows', hnew, -⟩ := setTargets_spec hset
  have hrole : v .role = w .role := h.other .role (by decide)
  -- no row goes: its role is on the longer list
  have hstays : ∀ q ∈ v .trainingTargets, leaves courseware more v q = false := by
    intro q hq
    rw [← Bool.not_eq_true]
    intro hleaves
    obtain ⟨hcourseware, hsome, hnone⟩ := leaves_eq_true.mp hleaves
    rw [hrows] at hq
    rcases List.mem_append.mp hq with hq | hq
    · have hkept := hw.kept q hq
      rw [← leaves_congr hrole, ← Bool.not_eq_true] at hkept
      exact hkept (leaves_eq_true.mpr ⟨hcourseware, hsome, fun n hn => hnone n (hsub hn)⟩)
    · obtain ⟨-, r, hr, -, hcell⟩ := hold q hq
      exact hnone r hr hcell
  have hfilter : (v .trainingTargets).filter (fun q => !leaves courseware more v q) =
      v .trainingTargets :=
    List.filter_eq_self.mpr fun q hq => by rw [hstays q hq]; rfl
  refine ⟨⟨old ++ new, ?_, fun q hq => ?_⟩,
    fun t ht => (setTargets_other hset ht).trans (h.other t ht)⟩
  · rw [hrows', hfilter, hrows, List.append_assoc]
  · rcases List.mem_append.mp hq with hq | hq
    · exact hold q hq
    · obtain ⟨r, hr, hfresh, hcourseware, hcell⟩ := hnew q hq
      refine ⟨hcourseware, r, hr, fun hmem => hfresh ?_, hcell⟩
      obtain ⟨p, hp, hpcells⟩ := mem_targetsOf.mp (hw.present r hmem)
      exact mem_targetsOf.mpr ⟨p, hrows ▸ List.mem_append_left _ hp, hpcells⟩

/-- **The shorter list again** takes the added rows away. -/
theorem Extended.restore (k : Clock) {courseware : ℕ} {roles more : List ℕ} {w v : DB}
    (h : Extended courseware roles more w v) (hw : Settled courseware roles w)
    (hmore : AllRoles w more) :
    setTargets k courseware roles v = .ok w := by
  obtain ⟨new, hrows, hnew⟩ := h.rows
  have hrole : v .role = w .role := h.other .role (by decide)
  have hpresent : ∀ r ∈ roles, Value.int r ∈ targetsOf v courseware := by
    intro r hr
    obtain ⟨p, hp, hpcells⟩ := mem_targetsOf.mp (hw.present r hr)
    exact mem_targetsOf.mpr ⟨p, hrows ▸ List.mem_append_left _ hp, hpcells⟩
  have hgoes : ∀ q ∈ new, leaves courseware roles v q = true := by
    intro q hq
    obtain ⟨hcourseware, r, hr, hnot, hcell⟩ := hnew q hq
    obtain ⟨role, hmem, hid⟩ := hmore r hr
    refine leaves_eq_true.mpr ⟨hcourseware, ?_, fun n hn heq => ?_⟩
    · unfold related
      rw [hrole, List.find?_isSome]
      exact ⟨role, hmem, by rw [hcell, hid]; exact decide_eq_true rfl⟩
    · have hsame : (r : ℤ) = n := Value.int.inj (hcell.symm.trans heq)
      exact hnot (Nat.cast_injective hsame ▸ hn)
  have hfilter : (v .trainingTargets).filter (fun q => !leaves courseware roles v q) =
      w .trainingTargets := by
    rw [hrows, List.filter_append]
    have hold : (w .trainingTargets).filter (fun q => !leaves courseware roles v q) =
        w .trainingTargets :=
      List.filter_eq_self.mpr fun q hq => by rw [leaves_congr hrole, hw.kept q hq]; rfl
    have hnone : new.filter (fun q => !leaves courseware roles v q) = [] :=
      List.filter_eq_nil_iff.mpr fun q hq => by rw [hgoes q hq]; exact Bool.false_ne_true
    rw [hold, hnone, List.append_nil]
  rw [setTargets_removes k hpresent]
  congr 1
  funext t
  by_cases ht : t = .trainingTargets
  · subst ht
    rw [removeWhere, Function.update_self, hfilter]
  · rw [removeWhere_other v _ ht]
    exact h.other t ht

/-! ## The loop again -/

theorem inSession_eq_some {held : List ℕ} {key : Json} {r : ℕ} :
    inSession held key = some r ↔ r ∈ held ∧ integerKey key = some (r : ℤ) := by
  constructor
  · intro h
    obtain ⟨n, hn, hfind⟩ := Option.bind_eq_some_iff.mp h
    have hid : (r : ℤ) = n := by simpa using List.find?_some hfind
    exact ⟨List.mem_of_find?_eq_some hfind, by rw [hn, hid]⟩
  · rintro ⟨hmem, hkey⟩
    rw [inSession, hkey, Option.bind_some]
    cases hfind : held.find? fun (q : ℕ) => decide ((q : ℤ) = (r : ℤ)) with
    | none => exact absurd (decide_eq_true rfl) (List.find?_eq_none.mp hfind r hmem)
    | some q =>
      have hid : (q : ℤ) = r := by simpa using List.find?_some hfind
      rw [Nat.cast_injective hid]

/-- The role of a key that is equal to the id of a role. -/
theorem loadByKey_role {key : Json} {r : ℕ} {w : DB} {found : Option Record} (hsmall : r < 2 ^ 63)
    (hkey : integerKey key = some (r : ℤ)) (hrole : ∃ role ∈ w .role, role.id = r)
    (hload : loadByKey .role key w = .ok found) : found.map Row.id = some r := by
  have hfits : inInt64 (r : ℤ) = true := (inInt64_iff r).mpr (by omega)
  have hbind : bindJson .integer key = .ok (.int r) := by
    cases key with
    | int n => cases hkey; simp [bindJson, hfits]
    | bool b => cases b <;> cases hkey <;> rfl
    | float x =>
      cases x with
      | finite x =>
        simp only [integerKey] at hkey
        split_ifs at hkey with hden
        have hnum : x.value.num = r := Option.some.inj hkey
        have hlast := x.integer_ne_last hden
        have haffinity : Sqlite.sqlite3VdbeIntegerAffinity (.finite x) = .int x.value.num :=
          if_pos ⟨hden, by omega, by omega⟩
        rw [bindJson, floatAsInteger, haffinity, hnum]
        · rfl
        · exact Binary64.noConfusion
      | _ => cases hkey
    | _ => cases hkey
  rw [loadByKey, hbind] at hload
  cases hload
  obtain ⟨role, hmem, hid⟩ := hrole
  show ((w .role).find? fun q => decide (Value.int q.id = Value.int r)).map Row.id = some r
  cases hfind : (w .role).find? fun q => decide (Value.int q.id = Value.int r) with
  | none => exact absurd (decide_eq_true (by rw [hid])) (List.find?_eq_none.mp hfind role hmem)
  | some q =>
    have hq : Value.int q.id = Value.int r := by simpa using List.find?_some hfind
    exact congrArg some (Nat.cast_injective (Value.int.inj hq))

theorem AllRoles.congr {w w' : DB} {roles : List ℕ} (h : AllRoles w roles)
    (hrole : w' .role = w .role) :
    AllRoles w' roles := by
  unfold AllRoles
  rw [hrole]
  exact h

theorem AllRoles.found {w w' : DB} {roles : List ℕ} (h : AllRoles w roles)
    (hrole : w' .role = w .role) {key : Json}
    {found : Option Record} (hload : loadByKey .role key w' = .ok found) :
    AllRoles w (roles ++ (found.map Row.id).toList) := by
  cases found with
  | none => simpa using h
  | some role =>
    obtain ⟨v, -, hrelated⟩ := map_eq_ok.mp hload
    exact h.append ⟨role, hrole ▸ List.mem_of_find?_eq_some hrelated, rfl⟩

theorem AllRoles.session {w : DB} {known roles : List ℕ} (hknown : AllRoles w known)
    (hroles : AllRoles w roles)
    {key : Json} {r : ℕ} (hin : inSession (known ++ roles) key = some r) :
    ∃ role ∈ w .role, role.id = r := by
  rcases List.mem_append.mp (inSession_mem hin) with hmem | hmem
  · exact hknown r hmem
  · exact hroles r hmem

/-- What the loop does with the next item of the body. -/
theorem targetsAfter_cons {k : Clock} {courseware : ℕ} {known roles : List ℕ} {j : Json}
    {js : List Json} {w w' : DB}
    (h : targetsAfter k courseware known roles (j :: js) w = .ok w') :
    ∃ key, identity j = .ok key ∧
      ((∃ r, inSession (known ++ roles) key = some r ∧
          targetsAfter k courseware known (roles ++ [r]) js w = .ok w') ∨
        (inSession (known ++ roles) key = none ∧ ∃ w₁ found,
          setTargets k courseware roles w = .ok w₁ ∧
          loadByKey .role key w₁ = .ok found ∧
          targetsAfter k courseware roles (roles ++ (found.map Row.id).toList) js w₁ =
            .ok w')) := by
  obtain ⟨key, hkey, h⟩ := bind_eq_ok.mp h
  refine ⟨key, hkey, ?_⟩
  cases hin : inSession (known ++ roles) key with
  | some r =>
    rw [hin] at h
    exact Or.inl ⟨r, rfl, h⟩
  | none =>
    rw [hin] at h
    obtain ⟨w₁, hset, h⟩ := bind_eq_ok.mp h
    obtain ⟨found, hload, h⟩ := bind_eq_ok.mp h
    exact Or.inr ⟨rfl, w₁, found, hset, hload, h⟩

/-- The loop changes the association table only. -/
theorem targetsAfter_other {k : Clock} {courseware : ℕ} {t : Table} (ht : t ≠ .trainingTargets) :
    ∀ {js known roles w w'}, targetsAfter k courseware known roles js w = .ok w' → w' t = w t := by
  intro js
  induction js with
  | nil => exact fun h => setTargets_other h ht
  | cons j js ih =>
    intro known roles w w' h
    obtain ⟨key, -, ⟨r, -, h⟩ | ⟨-, w₁, found, hset, -, h⟩⟩ := targetsAfter_cons h
    · exact ih h
    · exact (ih h).trans (setTargets_other hset ht)

/-- At its end the list is settled, and nothing left it. -/
theorem targetsAfter_settled {k : Clock} {courseware : ℕ} : ∀ {js known roles w w'},
    targetsAfter k courseware known roles js w = .ok w' → ∃ last,
    roles ⊆ last ∧ Settled courseware last w' := by
  intro js
  induction js with
  | nil => exact fun h => ⟨_, List.Subset.refl _, setTargets_settled h⟩
  | cons j js ih =>
    intro known roles w w' h
    obtain ⟨key, -, ⟨r, -, h⟩ | ⟨-, w₁, found, hset, -, h⟩⟩ := targetsAfter_cons h
    · obtain ⟨last, hsub, hlast⟩ := ih h
      exact ⟨last, fun q hq => hsub (List.mem_append_left _ hq), hlast⟩
    · obtain ⟨last, hsub, hlast⟩ := ih h
      exact ⟨last, fun q hq => hsub (List.mem_append_left _ hq), hlast⟩

/-- **After a flush** the loop only adds rows. -/
theorem targetsAfter_extended {k : Clock} {courseware : ℕ} {roles : List ℕ} {w : DB}
    (hw : Settled courseware roles w) :
    ∀ {js known more v v'}, Extended courseware roles more w v → roles ⊆ more → AllRoles w known →
      AllRoles w more →
      targetsAfter k courseware known more js v = .ok v' →
      ∃ last, AllRoles w last ∧ Extended courseware roles last w v' := by
  intro js
  induction js with
  | nil =>
    intro known more v v' hext hsub _ hmore h
    exact ⟨more, hmore, hext.set hw hsub h⟩
  | cons j js ih =>
    intro known more v v' hext hsub hknown hmore h
    have hgrow : ∀ new, more ⊆ more ++ new := fun new q hq => List.mem_append_left _ hq
    obtain ⟨key, -, ⟨r, hin, h⟩ | ⟨-, v₁, found, hset, hload, h⟩⟩ := targetsAfter_cons h
    · exact ih (hext.mono (hgrow _)) (List.Subset.trans hsub (hgrow _)) hknown
        (hmore.append (hknown.session hmore hin)) h
    · have hext₁ := hext.set hw hsub hset
      have hfound := hmore.found (hext₁.other .role (by decide)) hload
      exact ih (hext₁.mono (hgrow _)) (List.Subset.trans hsub (hgrow _)) hmore hfound h

/-- A role list does not depend on the clocks. -/
theorem setTargets_clock (k k' : Clock) (courseware : ℕ) (roles : List ℕ) :
    setTargets k courseware roles = setTargets k' courseware roles := by
  have hinitial : ∀ role, ∀ c ∈ Table.trainingTargets.columns,
      c.initial k (targetAttrs courseware role) = c.initial k' (targetAttrs courseware role) := by
    intro role c hc
    rcases List.mem_pair.mp hc with rfl | rfl <;> rfl
  have hinsert : ∀ role, insertRow k .trainingTargets (targetAttrs courseware role) =
      insertRow k' .trainingTargets (targetAttrs courseware role) :=
    fun role => funext (insertRow_congr (hinitial role))
  funext db
  unfold setTargets
  simp only [hinsert]

theorem targetsAfter_clock (k k' : Clock) (courseware : ℕ) : ∀ known roles js w,
    targetsAfter k courseware known roles js w = targetsAfter k' courseware known roles js w := by
  intro known roles js
  induction js generalizing known roles with
  | nil => exact fun w => congrFun (setTargets_clock k k' courseware roles) w
  | cons j js ih =>
    intro w
    unfold targetsAfter
    simp only [ih, setTargets_clock k k']

/-- **The loop again.** Run on its own result, the loop ends in that result: as long as it finds the
    roles on the list it changes nothing, and the first flush brings the database back to where
    the same flush of the first run left it. -/
theorem targetsAfter_again {k : Clock} (k' : Clock) {courseware : ℕ} : ∀ {js known roles w w'},
    (∀ role ∈ w .role, role.id < 2 ^ 63) → AllRoles w known → AllRoles w roles →
      targetsAfter k courseware known roles js w = .ok w' →
      targetsAfter k' courseware (rolesOf courseware w') roles js w' = .ok w' := by
  intro js
  induction js with
  | nil =>
    intro known roles w w' _ _ _ h
    exact (setTargets_settled h).again k'
  | cons j js ih =>
    intro known roles w w' hsmall hknown hroles h
    have hrole : w' .role = w .role := targetsAfter_other (by decide) h
    have hheld : AllRoles w (rolesOf courseware w') :=
      (rolesOf_allRoles courseware w').congr hrole.symm
    obtain ⟨key, hkey, hcases⟩ := targetsAfter_cons h
    cases hin : inSession (rolesOf courseware w' ++ roles) key with
    | some r =>
      have hsecond : targetsAfter k' courseware (rolesOf courseware w') roles (j :: js) w' =
          targetsAfter k' courseware (rolesOf courseware w') (roles ++ [r]) js w' := by
        simp only [targetsAfter, hkey, Except.bind, hin]
      rw [hsecond]
      have hrow : ∃ role ∈ w .role, role.id = r := hheld.session hroles hin
      have hinteger := (inSession_eq_some.mp hin).2
      rcases hcases with ⟨r', hin', h⟩ | ⟨-, w₁, found, hset, hload, h⟩
      · have hinteger' := (inSession_eq_some.mp hin').2
        obtain rfl : r = r' := Nat.cast_injective (Option.some.inj (hinteger.symm.trans hinteger'))
        exact ih hsmall hknown (hroles.append hrow) h
      · have hrole₁ : w₁ .role = w .role := setTargets_other hset (by decide)
        obtain ⟨role, hmem, hid⟩ := hrow
        have hfound :=
          loadByKey_role (hid ▸ hsmall role hmem) hinteger ⟨role, hrole₁ ▸ hmem, hid⟩ hload
        rw [hfound] at h
        refine ih ?_ (hroles.congr hrole₁) ((hroles.append ⟨role, hmem, hid⟩).congr hrole₁) h
        rw [hrole₁]
        exact hsmall
    | none =>
      rcases hcases with ⟨r', hin', h⟩ | ⟨-, w₁, found, hset, hload, h⟩
      · -- a role that the first run found is on the last list
        exfalso
        obtain ⟨last, hsub, hlast⟩ := targetsAfter_settled h
        have hlisted :=
          hlast.present r' (hsub (List.mem_append_right _ (List.mem_singleton_self r')))
        obtain ⟨role, hmem, hid⟩ := hknown.session hroles hin'
        have hmem' : r' ∈ rolesOf courseware w' :=
          List.mem_map.mpr
            ⟨role, List.mem_filter.mpr ⟨hrole ▸ hmem, decide_eq_true (hid ▸ hlisted)⟩, hid⟩
        have hagain :=
          inSession_eq_some.mpr ⟨List.mem_append_left roles hmem', (inSession_eq_some.mp hin').2⟩
        rw [hin] at hagain
        cases hagain
      · have hrole₁ : w₁ .role = w .role := setTargets_other hset (by decide)
        have hsettled := setTargets_settled hset
        obtain ⟨last, hlast, hext⟩ :=
          targetsAfter_extended hsettled (Extended.refl courseware roles _ w₁)
          (fun q hq => List.mem_append_left _ hq) (hroles.congr hrole₁)
          ((hroles.found hrole₁ hload).congr hrole₁) h
        have hback : setTargets k' courseware roles w' = .ok w₁ := hext.restore k' hsettled hlast
        rw [targetsAfter_clock k k'] at h
        simp only [targetsAfter, hkey, Except.bind, hin, hback, hload]
        exact h

/-! ## The handler -/

/-- The database after the role list part of `update_training_courseware`. -/
def retarget (k : Clock) (id : ℕ) (data : Json) (w : DB) : Except Exn DB :=
  if data.has .trainingTargets then
    ((data.item .trainingTargets).bind Json.iter).bind fun items =>
      targetsAfter k id (rolesOf id w) [] items w
  else .ok w

/-- The role list part leaves the other tables. -/
theorem retarget_other {k : Clock} {id : ℕ} {data : Json} {w w' : DB}
    (h : retarget k id data w = .ok w') {t : Table}
    (ht : t ≠ .trainingTargets) : w' t = w t := by
  unfold retarget at h
  split_ifs at h
  · obtain ⟨items, -, h⟩ := bind_eq_ok.mp h
    exact targetsAfter_other ht h
  · cases h
    rfl

/-- **What `update_training_courseware` does** once its attributes can be stored. -/
theorem run_updateTrainingCourseware (k : Clock) {id : ℕ} {data : Json} {db w : DB} {row : Record}
    {ops : List Op}
    (hid : id < 2 ^ 63) (hfind : find (db .trainingCourseware) id = some row)
    (hops : updateOps .trainingCourseware id (coursewareAssignments data row) = .ok ops)
    (hall : applyAll applyOp ops db = .ok w) :
    (∃ e, retarget k id data w = .error e ∧
      ¬ (run (updateTrainingCourseware k id (.json data)) db).1.Success) ∨
      ∃ db', retarget k id data w = .ok db' ∧
        (run (updateTrainingCourseware k id (.json data)) db).1.Success ∧
        (run (updateTrainingCourseware k id (.json data)) db).2 = db' := by
  have hget : getById .trainingCourseware id db = .ok (some row) := getById_eq_some.mpr ⟨hid, hfind⟩
  have hstage : exec
      (stageAll ((coursewareAssignments data row).map (Assignment.op .trainingCourseware id)))
      (Session.init db) = (.ok (), { committed := db, work := db, pending := ops }) := by
    rcases exec_stageAll ((coursewareAssignments data row).map
      (Assignment.op .trainingCourseware id))
      (Session.init db) with ⟨e, p, herror, -⟩ | ⟨ops', hops', hexec⟩
    · exact absurd (hops.symm.trans herror) (by simp)
    · obtain rfl := Except.ok.inj (hops.symm.trans hops')
      exact hexec
  have hrun : exec (updateTrainingCourseware k id (.json data)) (Session.init db) =
      exec (replaceTargets k id data >>= fun _ => commitCourseware id 200)
        { committed := db, work := db, pending := ops } := by
    simp [updateTrainingCourseware, exec_bind, exec_query_init, hget, Body.getJson, hstage]
  have hfail : ∀ e s, exec (updateTrainingCourseware k id (.json data)) (Session.init db) =
      (.error e, s) →
      ¬ (run (updateTrainingCourseware k id (.json data)) db).1.Success := by
    intro e s hexec
    rw [run, serve_of_exec_error hexec]
    exact uncaught_not_success e
  -- the courseware is there at the end
  have hload : ∀ db', retarget k id data w = .ok db' → ∃ row',
      reload .trainingCourseware id db' = .ok row' := by
    intro db' hdb'
    obtain ⟨row', hrow'⟩ := find_isSome_of_ids ((sameBut_updateOps hops hall).ids _) hfind
    refine ⟨row', ?_⟩
    rw [reload_congr (retarget_other hdb' (by decide)), reload, getById_eq_some.mpr ⟨hid, hrow'⟩]
    rfl
  have hdone : ∀ w₁ ops₁ db', retarget k id data w = .ok db' → applyAll applyOp ops₁ w₁ = .ok db' →
      exec (updateTrainingCourseware k id (.json data)) (Session.init db) =
        exec (commitCourseware id 200) { committed := db, work := w₁, pending := ops₁ } →
      (run (updateTrainingCourseware k id (.json data)) db).1.Success ∧
        (run (updateTrainingCourseware k id (.json data)) db).2 = db' := by
    intro w₁ ops₁ db' hdb' hall₁ hexec
    obtain ⟨row', hrow'⟩ := hload db' hdb'
    rw [exec_commitCourseware, hall₁] at hexec
    simp only [hrow'] at hexec
    rw [run, serve_of_exec_ok hexec]
    exact ⟨(by norm_num : 200 < 400), rfl⟩
  by_cases hhas : data.has .trainingTargets = true
  · cases hitems : (data.item .trainingTargets).bind Json.iter with
    | error e =>
      have hretarget : retarget k id data w = .error e := by
        rw [retarget, if_pos hhas, hitems]
        rfl
      refine Or.inl ⟨e, hretarget, hfail e { committed := db, work := w, pending := [] } ?_⟩
      rw [hrun]
      simp [replaceTargets, hhas, exec_bind, exec_query_pending, hall, hitems]
    | ok items =>
      have hretarget : retarget k id data w = targetsAfter k id (rolesOf id w) [] items w := by
        rw [retarget, if_pos hhas, hitems]
        rfl
      rcases exec_appendRoles k id db items (rolesOf id w) [] w with
        ⟨e, s, hafter, hexec, -⟩ | ⟨known', roles', w', hafter, hexec⟩
      · refine Or.inl ⟨e, hretarget.trans hafter, hfail e s ?_⟩
        rw [hrun]
        simp [replaceTargets, hhas, exec_bind, exec_query_pending, hall, hitems, hexec]
      · have hcommit : exec (updateTrainingCourseware k id (.json data)) (Session.init db) =
            exec (commitCourseware id 200)
              { committed := db, work := w', pending := [.setTargets k id roles'] } := by
          rw [hrun]
          simp [replaceTargets, hhas, exec_bind, exec_query_pending, hall, hitems, hexec]
        have hlast : applyAll applyOp [.setTargets k id roles'] w' = setTargets k id roles' w' :=
          applyAll_singleton _ _ _
        cases hset : setTargets k id roles' w' with
        | error e =>
          refine Or.inl ⟨e, hretarget.trans (hafter.trans hset),
            hfail e { committed := db, work := db, pending := [] } ?_⟩
          rw [hcommit, exec_commitCourseware, hlast, hset]
        | ok db' =>
          have hdb' := hretarget.trans (hafter.trans hset)
          exact Or.inr ⟨db', hdb', hdone w' _ db' hdb' (hlast.trans hset) hcommit⟩
  · have hretarget : retarget k id data w = .ok w := if_neg hhas
    refine Or.inr ⟨w, hretarget, hdone db ops w hretarget hall ?_⟩
    rw [hrun]
    simp [replaceTargets, hhas]

end ProjectEvaluation.Backend
