import ProjectEvaluation.Properties.Mirrors
import ProjectEvaluation.Properties.StoredRows

/-!
# Credentials

`login` looks a user up by its name and compares the password with the stored one.

Main results:
* `login_row`: what the login answers to a name that a user has.
* `user_kept`: a request leaves the users it is not for.
* `login_run`: from a registration or a change of the password on, the login accepts this
  password for this name and no other, until the user is updated or deleted, whatever the
  other requests do.
-/

namespace ProjectEvaluation.Backend

open Python Relational Transaction

/-- The answer to a wrong name or password. -/
def loginRefused : Response := refuse 401 "用户名或密码错误"

/-- **The login of a user that exists.** -/
theorem login_row {encode : ℕ → Date → Time → String} {k : Clock} {data : Json} {db : DB}
    (hv : Valid db) {id : ℕ}
    {row : Record} (hfind : find (db .user) id = some row) {name password given : String}
    (hname : row.cell .username = .text name) (hpassword : row.cell .password = .text password)
    (husername : data.item .username = .ok (.str name))
    (hgiven : data.item .password = .ok (.str given)) :
    login encode k (.json data) db =
      if given = password then loggedIn (encode id k.utcDate k.utcTime) row else loginRefused := by
  have hid := find_id hfind
  have hmem : row ∈ (db .user).filter fun r => Value.text name ≠ .null ∧
      r.cell .username = .text name := by
    simp [mem_of_find hfind, hname]
  have husers : filterBy .user .username (.str name) db =
      .ok ((db .user).filter fun r => Value.text name ≠ .null ∧ r.cell .username = .text name) :=
    filterBy_of_bind rfl nofun rfl
  have hhead : ((db .user).filter fun r => Value.text name ≠ .null ∧
      r.cell .username = .text name).head? = some row := by
    obtain ⟨q, rest, hcons⟩ := List.exists_cons_of_ne_nil (List.ne_nil_of_mem hmem)
    have hq := List.mem_filter.mp (hcons ▸ List.mem_cons_self : q ∈ _)
    have hqname : q.cell .username = .text name := (of_decide_eq_true hq.2).2
    -- names are unique
    have hsame : q.id = row.id :=
      hv.unique .user _ (List.mem_cons_self : uniqueColumn .username ∈ Table.user.columns)
        rfl q hq.1 row
        (mem_of_find hfind) (hqname ▸ nofun) (hqname.trans hname.symm)
    have hqrow := find_of_mem (hv.keys .user) hq.1
    rw [hsame, hid, hfind] at hqrow
    rw [hcons, Option.some.inj hqrow]
    rfl
  have hequal : equalsText (.str given) (row.cell .password) = decide (given = password) := by
    rw [hpassword, equalsText, Bool.eq_iff_iff, beq_iff_eq, decide_eq_true_eq]
  unfold login
  simp only [Body.getJson, bind, Except.bind, husername, husers, hhead, hgiven, hequal, hid,
    decide_eq_true_eq]
  split_ifs <;> rfl

/-! ## Users that a request is not for -/

theorem find_filter_ne {rows : List Record} {id id' : ℕ} (hne : id' ≠ id) {row : Record}
    (h : find rows id' = some row) :
    find (rows.filter fun r => ¬ r.id = id) id' = some row := by
  unfold find at h ⊢
  rw [List.find?_filter, ← h]
  congr 1
  funext r
  by_cases hr : r.id = id' <;> simp [hr, hne]

theorem user_of_tables {r : Resource} (h : .user ∈ r.tables) : r = .user := by
  revert h
  cases r <;> decide

theorem user_of_deletes {r : Resource} (h : .user ∈ r.deletes) : r = .user := by
  revert h
  cases r <;> decide

/-- Users are changed by the requests for users and by the registration only. -/
theorem user_writes {request : Request} (h : .user ∈ request.writes) :
    request.For .user ∨ ∃ body, request = .register body := by
  cases request with
  | register body => exact Or.inr ⟨body, rfl⟩
  | create r body =>
    obtain rfl := user_of_tables h
    exact Or.inl (Or.inl ⟨body, rfl⟩)
  | update r id body =>
    obtain rfl := user_of_tables h
    exact Or.inl (Or.inr (Or.inl ⟨id, body, rfl⟩))
  | delete r id =>
    obtain rfl := user_of_deletes h
    exact Or.inl (Or.inr (Or.inr ⟨id, rfl⟩))
  | _ => simp [Request.writes, Request.tables] at h

/-- A request that updates or deletes a user. -/
def Request.Touches (id : ℕ) (request : Request) : Prop :=
  (∃ body, request = .update .user id body) ∨ request = .delete .user id

/-- **A request leaves the users it is not for.** -/
theorem user_kept {k : Clock} {request : Request} {id : ℕ} (htouch : ¬ request.Touches id) {db : DB}
    {row : Record}
    (hfind : find (db .user) id = some row) :
    find ((handle k request db).2 .user) id = some row := by
  by_cases hgood : (handle k request db).1.Success
  · by_cases hwrites : .user ∈ request.writes
    · rcases user_writes hwrites with (⟨body, rfl⟩ | ⟨id', body, rfl⟩ | ⟨id', rfl⟩) | ⟨body, rfl⟩
      · obtain ⟨q, hrows, -⟩ := mirrored_create (r := .user) rfl hgood
        have hrows : (handle k (.create .user body) db).2 .user = db .user ++ [q] := hrows
        rw [hrows]
        exact find_append_old hfind q
      · have hne : id ≠ id' := by
          rintro rfl
          exact htouch (Or.inl ⟨body, rfl⟩)
        exact (update_find_other (r := .user) (by decide) hgood hne).trans hfind
      · have hne : id ≠ id' := by
          rintro rfl
          exact htouch (Or.inr rfl)
        have hrows := mirrored_delete (r := .user) rfl hgood
        have hrows : (handle k (.delete .user id') db).2 .user = (db .user).filter fun row =>
          ¬ row.id = id' := hrows
        rw [hrows]
        exact find_filter_ne hne hfind
      · have hruns : Runs db (handle k (.register body) db) _ := register_cases rfl
        rcases hruns with ⟨hbad, -⟩ | ⟨-, data, attrs, -, -, hins⟩
        · exact absurd hgood hbad
        · rw [insertRow_rows hins]
          exact find_append_old hfind _
    · exact ((handle_near k request fun _ _ => rfl).2.left .user hwrites).symm ▸ hfind
  · rw [unsuccessful_changes_nothing k request db hgood]
    exact hfind

theorem user_kept_run {log : List (Clock × Request)} {id : ℕ}
    (htouch : ∀ p ∈ log, ¬ p.2.Touches id) {db : DB}
    {row : Record} (hfind : find (db .user) id = some row) :
    find (afterAll log db .user) id = some row := by
  induction log generalizing db with
  | nil => exact hfind
  | cons p log ih =>
    exact ih (fun p' hp' => htouch p' (List.mem_cons_of_mem p hp'))
      (user_kept (htouch p List.mem_cons_self) hfind)

theorem afterAll_valid (log : List (Clock × Request)) {db : DB} (hv : Valid db) :
    Valid (afterAll log db) := by
  induction log generalizing db with
  | nil => exact hv
  | cons p log ih => exact ih (handle_valid hv)

/-! ## Credentials that were set -/

/-- A request that sets the name and the password of a user. -/
inductive Sets (db : DB) (name password : String) : Request → ℕ → Prop
  | register {data : Json} : data.item .username = .ok (.str name) →
      data.item .password = .ok (.str password) →
      Sets db name password (.register (.json data)) (nextId (db .user))
  | create {data : Json} : data.item .username = .ok (.str name) →
      data.item .password = .ok (.str password) →
      Sets db name password (.create .user (.json data)) (nextId (db .user))
  | update {id : ℕ} {data : Json} : data.item .username = .ok (.str name) →
      data.item .password = .ok (.str password) → password ≠ "" →
        Sets db name password (.update .user id (.json data)) id

/-- The credentials of a new user. -/
theorem constructed_credentials {k : Clock} {data : Json} {attrs : List (Field × Attr)}
    {row : Record}
    (hattrs : construct data userSources = .ok attrs) (hbuilt : Built k .user attrs row)
    {name password : String}
    (hname : data.item .username = .ok (.str name))
    (hpassword : data.item .password = .ok (.str password)) :
    row.cell .username = .text name ∧ row.cell .password = .text password := by
  have htext : ∀ (f : Field) (c : Column) (s : String),
      Table.user.column f = some c → c.type = .string →
      userSources.find? (fun source => source.field == f) = some (.item f) →
        data.item f = .ok (.str s) →
      row.cell f = .text s := by
    intro f c s hc htype hsource hitem
    obtain ⟨a, ha, hcell⟩ := constructed_cell hattrs hbuilt hc hsource
    rw [Source.eval, hitem] at ha
    obtain rfl := Except.ok.inj ha
    have hbind := hcell rfl
    rw [htype] at hbind
    exact (Except.ok.inj hbind).symm
  exact ⟨htext _ (uniqueColumn .username) name rfl rfl rfl hname,
    htext _ (required .password .string) password rfl rfl rfl hpassword⟩

/-- **The row of the user** whose credentials a request set. -/
theorem sets_credentials {k : Clock} {db : DB} {name password : String} {request : Request} {id : ℕ}
    (hsets : Sets db name password request id) (hgood : (handle k request db).1.Success) :
    ∃ row, find ((handle k request db).2 .user) id = some row ∧ row.cell .username = .text name ∧
      row.cell .password = .text password := by
  cases hsets with
  | @register data hname hpassword =>
    have hruns : Runs db (handle k (.register (.json data)) db) _ := register_cases rfl
    rcases hruns with ⟨hbad, -⟩ | ⟨-, data', attrs, hbody, hattrs, hins⟩
    · exact absurd hgood hbad
    · cases hbody
      refine ⟨newRow k .user attrs db, ?_,
        constructed_credentials hattrs (built_newRow hins) hname hpassword⟩
      rw [insertRow_rows hins]
      exact find_append_new _ _ rfl
  | @create data hname hpassword =>
    obtain ⟨_, attrs, row, hbody, hattrs, hbuilt, hid, hrows⟩ :=
      create_stores (r := .user) (by decide) hgood
    cases hbody
    exact ⟨row, find_new hid hrows, constructed_credentials hattrs hbuilt hname hpassword⟩
  | @update _ data hname hpassword hne =>
    obtain ⟨_, row, assignments, hbody, -, hassign, hbinds, hfind⟩ :=
      update_stores (r := .user) (by decide) hgood
    cases hbody
    have hassignments : assignments = userAssignments data row := (Except.ok.inj hassign).symm
    have hnamed : (Field.username, .ok (some (.json (.str name)))) ∈ assignments := by
      have hkeep : keep data row .username = (.username, .ok (some (.json (.str name)))) := by
        rw [keep, Json.get_of_item hname]
        rfl
      rw [hassignments, ← hkeep]
      exact List.mem_of_getElem? (i := 0) rfl
    have hnew : (Field.password, .ok (some (.json (.str password)))) ∈ assignments := by
      have hgiven : newPassword data = (.password, .ok (some (.json (.str password)))) := by
        have htruthy : (Json.str password).truthy = true := by simpa [Json.truthy] using hne
        rw [newPassword, Json.get_of_item hpassword]
        simp [Except.map, Option.filter, htruthy]
      rw [hassignments, ← hgiven]
      exact List.mem_of_getElem? (i := 1) rfl
    refine ⟨_, hfind, ?_, ?_⟩
    · exact (Except.ok.inj (updated_cell hassign hbinds hnamed rfl)).symm
    · exact (Except.ok.inj (updated_cell hassign hbinds hnew rfl)).symm

/-- **Credentials stay valid**: from the request that set them on, the login accepts this password
    for this name and no other, in every run of requests that do not update or delete the user. -/
theorem login_run {encode : ℕ → Date → Time → String} {k : Clock} {db : DB} (hv : Valid db)
    {name password : String}
    {request : Request} {id : ℕ} (hsets : Sets db name password request id)
    (hgood : (handle k request db).1.Success)
    {log : List (Clock × Request)} (hlog : ∀ p ∈ log, ¬ p.2.Touches id) (k' : Clock) {data : Json}
    {given : String}
    (hname : data.item .username = .ok (.str name))
    (hgiven : data.item .password = .ok (.str given)) :
    ∃ user, user.id = id ∧ login encode k' (.json data) (afterAll log (handle k request db).2) =
      if given = password then loggedIn (encode id k'.utcDate k'.utcTime) user
        else loginRefused := by
  obtain ⟨row, hfind, husername, hpassword⟩ := sets_credentials hsets hgood
  have hkept := user_kept_run hlog hfind
  refine ⟨row, find_id hfind, ?_⟩
  exact login_row (afterAll_valid log (handle_valid hv)) hkept husername hpassword hname hgiven

/-- A registration. -/
def registration (username name email : String) : Request :=
  .register (.json (.dict
    [(.username, .str username), (.password, .str "secret"), (.name, .str name),
     (.email, .str email), (.roleId, .int 1)]))

/-- One user is there, and a second one registers. -/
def twoUsers : Response × DB :=
  handle .epoch (registration "zhang" "张" "zhang@example.com")
    (handle .epoch (registration "li" "李" "li@example.com") fun _ => []).2

/-- The first user is deleted, and the second one logs in. -/
theorem login_run_registered :
    twoUsers.1.Success ∧ (twoUsers.2 .user).map Row.id = [1, 2] ∧
      (afterAll [(.epoch, .delete .user 1)] twoUsers.2 .user).map Row.id = [2] ∧
      ∃ user, user.id = 2 ∧
        login (fun _ _ _ => "token") .epoch
            (.json (.dict [(.username, .str "zhang"), (.password, .str "secret")]))
            (afterAll [(.epoch, .delete .user 1)] twoUsers.2) =
          loggedIn "token" user := by
  have hvalid : Valid (handle .epoch (registration "li" "李" "li@example.com") fun _ => []).2 :=
    handle_valid valid_empty
  have hsets : Sets (handle .epoch (registration "li" "李" "li@example.com") fun _ => []).2
      "zhang" "secret" (registration "zhang" "张" "zhang@example.com") 2 := .register rfl rfl
  have hlog : ∀ p ∈ [(Clock.epoch, Request.delete .user 1)], ¬ p.2.Touches 2 := by
    simp [Request.Touches]
  have hgiven : (Json.dict [(.username, .str "zhang"), (.password, .str "secret")]).item .password =
      .ok (.str "secret") := rfl
  obtain ⟨user, hid, hlogin⟩ :=
    login_run (k := .epoch) hvalid hsets (by decide +kernel) hlog .epoch rfl hgiven
  exact ⟨by decide +kernel, by decide +kernel, by decide +kernel, user, hid,
    hlogin.trans (if_pos rfl)⟩

end ProjectEvaluation.Backend
