import ProjectEvaluation.Lib.Machine
import ProjectEvaluation.Pages.Skin
import ProjectEvaluation.Properties.CodeLinks
import ProjectEvaluation.Properties.StoredRows

/-!
# The custom skins

The page of the skins is to keep the four newest custom skins.

Results:
* `newest_kept_iff`: it does throughout a run iff the server has four custom skins at most before
the run, and no skin that is saved gets a smaller id than one that the page removed before. -/

namespace ProjectEvaluation.Pages.SkinPage

open Python Relational Backend Machine

/-! ## Keeping the newest -/

section

variable {α : Type} [LinearOrder α] {n : ℕ} {kept gone : List α}

/-- At most `n` are kept, and none that is gone is newer than one of them. -/
structure Newest (n : ℕ) (kept gone : List α) : Prop where
  bound : kept.length ≤ n
  newest : ∀ a ∈ kept, ∀ b ∈ gone, b ≤ a

theorem Newest.sublist (h : Newest n kept gone) {fewer : List α} (hsub : fewer.Sublist kept) :
    Newest n fewer gone where
  bound := hsub.length_le.trans h.bound
  newest a ha := h.newest a (hsub.mem ha)

/-- Where there is room, one more can be kept if none that is gone is newer. -/
theorem newest_add_iff (h : Newest n kept gone) (hroom : kept.length < n) (a : α) :
    Newest n (kept ++ [a]) gone ↔ ∀ b ∈ gone, b ≤ a := by
  constructor
  · exact fun hadd => hadd.newest a (List.mem_append_right _ (List.mem_singleton_self a))
  · intro ha
    refine ⟨by rw [List.length_append, List.length_singleton]; omega, fun c hc => ?_⟩
    rcases List.mem_append.mp hc with hc | hc
    · exact h.newest c hc
    · rw [List.mem_singleton.mp hc]
      exact ha

/-- Where there is none, the oldest one makes room for one that is newer than the others. -/
theorem Newest.replace_oldest (h : Newest n kept gone) (hnodup : kept.Nodup)
    (htwo : 2 ≤ kept.length) {oldest a : α}
    (hmem : oldest ∈ kept) (hleast : ∀ b ∈ kept, oldest ≤ b)
    (hnew : ∀ b ∈ kept.filter (· ≠ oldest), b ≤ a) :
    Newest n (kept.filter (· ≠ oldest) ++ [a]) (gone ++ [oldest]) := by
  have hshorter : (kept.filter (· ≠ oldest)).length + 1 = kept.length := by
    have herase : kept.filter (· ≠ oldest) = kept.erase oldest := by
      rw [hnodup.erase_eq_filter]
      exact List.filter_congr fun b _ => Bool.eq_iff_iff.mpr (by simp)
    rw [herase, List.length_erase_of_mem hmem]
    omega
  obtain ⟨c, hc⟩ : ∃ c, c ∈ kept.filter (· ≠ oldest) := List.exists_mem_of_length_pos (by omega)
  have hckept := (List.mem_filter.mp hc).1
  refine ⟨?_, fun d hd b hb => ?_⟩
  · rw [List.length_append, List.length_singleton, hshorter]
    exact h.bound
  · -- what is gone now is not newer than any that stays
    have hgone : ∀ d ∈ kept, b ≤ d := by
      intro d hd
      rcases List.mem_append.mp hb with hb | hb
      · exact h.newest d hd b hb
      · rw [List.mem_singleton.mp hb]
        exact hleast d hd
    rcases List.mem_append.mp hd with hd | hd
    · exact hgone d (List.mem_filter.mp hd).1
    · rw [List.mem_singleton.mp hd]
      exact (hgone c hckept).trans (hnew c hc)

end

/-! ## The custom skins of the server -/

/-- The ids of the custom skins. -/
def customIds (db : DB) : List ℕ :=
  ((db .systemSkin).filter fun row => row.cell .type = .text "custom").map Row.id

theorem customIds_nodup {db : DB} (hv : Valid db) : (customIds db).Nodup :=
  (hv.keys .systemSkin).sublist (List.filter_sublist.map _)

theorem lt_nextId_of_customIds {db : DB} {id : ℕ} (h : id ∈ customIds db) :
    id < nextId (db .systemSkin) := by
  obtain ⟨row, hrow, rfl⟩ := List.mem_map.mp h
  exact lt_nextId (List.mem_filter.mp hrow).1

theorem isCustom_object {db : DB} (hv : Valid db) {row : Record} (hrow : row ∈ db .systemSkin) :
    isCustom (object (.id :: skinFields) row) = decide (row.cell .type = .text "custom") := by
  have htype : member (object (.id :: skinFields) row) .type = (row.cell .type).toJson := rfl
  have hcanonical :=
    hv.canonical .systemSkin (required .type .string) (List.mem_of_getElem? (i := 1) rfl) row hrow
  rw [isCustom, htype]
  rcases hcanonical with hnull | hfits
  · have hnull : row.cell .type = .null := hnull
    rw [hnull]
    rfl
  · have hfits : fits .string (row.cell .type) = true := hfits
    cases hcell : row.cell .type with
    | text s => simp [Value.toJson, beq_eq_decide]
    | _ => rw [hcell] at hfits; cases hfits

/-- The custom skins of the list that the page fetches. -/
theorem customSkins_fetched {db : DB} (hv : Valid db) :
    (customSkins (fetchSkins db)).map idOf = customIds db := by
  have hfetch : fetchSkins db = (db .systemSkin).map (object (.id :: skinFields)) := rfl
  rw [hfetch, customSkins, List.filter_map, List.map_map, customIds]
  have hfilter : (db .systemSkin).filter (isCustom ∘ object (.id :: skinFields)) =
      (db .systemSkin).filter fun row => row.cell .type = .text "custom" :=
    List.filter_congr fun row hrow => isCustom_object hv hrow
  rw [hfilter]
  rfl

instance : Std.Total fun a b : Json => idOf a ≤ idOf b :=
  ⟨fun a b => Nat.le_total (idOf a) (idOf b)⟩

instance : IsTrans Json fun a b => idOf a ≤ idOf b := ⟨fun _ _ _ => Nat.le_trans⟩

/-- The skin that a save deletes: the oldest custom one, if there are four. -/
theorem oldestSkin_cases {db : DB} (hv : Valid db) :
    (customIds db).length < 4 ∧ oldestSkin (fetchSkins db) = none ∨
      4 ≤ (customIds db).length ∧ ∃ oldest ∈ customIds db, (∀ id ∈ customIds db, oldest ≤ id) ∧
        oldestSkin (fetchSkins db) = some oldest := by
  have hids := customSkins_fetched hv
  have hlength : (customSkins (fetchSkins db)).length = (customIds db).length := by
    rw [← hids, List.length_map]
  unfold oldestSkin
  by_cases hfull : 4 ≤ (customSkins (fetchSkins db)).length
  · have hmem : ∀ id, id ∈ customIds db ↔ ∃ skin ∈ sortedSkins (fetchSkins db), idOf skin = id := by
      intro id
      rw [← hids, List.mem_map]
      simp [sortedSkins]
    have hsorted : (sortedSkins (fetchSkins db)).Pairwise fun a b => idOf a ≤ idOf b :=
      List.pairwise_insertionSort _ _
    cases hskins : sortedSkins (fetchSkins db) with
    | nil =>
      have hnone := congrArg List.length hskins
      rw [sortedSkins, List.length_insertionSort, List.length_nil] at hnone
      omega
    | cons skin skins =>
      rw [hskins] at hsorted hmem
      refine Or.inr ⟨by omega, idOf skin, (hmem _).mpr ⟨skin, List.mem_cons_self, rfl⟩,
        fun id hid => ?_, ?_⟩
      · obtain ⟨other, hother, rfl⟩ := (hmem id).mp hid
        rcases List.mem_cons.mp hother with rfl | hother
        · exact le_rfl
        · exact List.rel_of_pairwise_cons hsorted hother
      · rw [if_pos hfull]
        rfl
  · exact Or.inl ⟨by omega, if_neg hfull⟩

/-! ## The requests -/

theorem send_eq_some {k : Clock} {request : Request} {db db' : DB} :
    send k request db = some db' ↔ (handle k request db).1.Success ∧
      (handle k request db).2 = db' := by
  unfold send
  split_ifs with hgood <;> simp [hgood]

/-- A DELETE takes the id from the custom ones. -/
theorem customIds_deleted {k : Clock} {id : ℕ} {db db' : DB}
    (h : send k (.delete .skin id) db = some db') :
    customIds db' = (customIds db).filter (· ≠ id) := by
  obtain ⟨hgood, rfl⟩ := send_eq_some.mp h
  have hrows : (handle k (.delete .skin id) db).2 .systemSkin = (db .systemSkin).filter fun row =>
    ¬ row.id = id :=
    handle_deleted (by decide) hgood
  rw [customIds, hrows, customIds, List.filter_filter, List.filter_map, List.filter_filter]
  refine congrArg (List.map Row.id) (List.filter_congr fun row _ => ?_)
  simp [Bool.and_comm]

/-- A POST of the page adds the next id to them. -/
theorem customIds_added {k : Clock} {config : String} {db db' : DB}
    (h : send k (.create .skin (.json (customSkinData config))) db = some db') :
    customIds db' = customIds db ++ [nextId (db .systemSkin)] := by
  obtain ⟨hgood, rfl⟩ := send_eq_some.mp h
  obtain ⟨data, attrs, row, hbody, hattrs, hbuilt, hid, hrows⟩ := create_stores (by decide) hgood
  cases hbody
  cases hattrs
  have htype : row.cell .type = .text "custom" :=
    (Except.ok.inj (built_cell (f := .type) hbuilt rfl rfl rfl)).symm
  have hrows : (handle k (.create .skin (.json (customSkinData config))) db).2 .systemSkin =
      db .systemSkin ++ [row] :=
    hrows
  rw [customIds, hrows, List.filter_append, List.map_append,
    List.filter_cons_of_pos (by simpa using htype)]
  exact congrArg (fun n => customIds db ++ [n]) hid

theorem send_valid {k : Clock} {request : Request} {db db' : DB} (hv : Valid db)
    (h : send k request db = some db') :
    Valid db' := by
  obtain ⟨-, rfl⟩ := send_eq_some.mp h
  exact handle_valid hv

/-! ## Runs -/

/-- The server has the four newest custom skins at most, of those it has and those that the page
    removed. -/
def SkinSession.KeepsNewest (s : SkinSession) : Prop := Newest 4 (customIds s.db) s.removed

/-- It has after a mount and after a save. -/
def Kept (s : SkinSession) : SkinEvent → Prop
  | .delete _ _ => True
  | e => ∀ s', s.step e = some s' → s'.KeepsNewest

/-- A skin is saved under an id that is not smaller than one that the page removed. -/
def FreshSave (s : SkinSession) : SkinEvent → Prop
  | .save _ _ => ∀ gone ∈ s.removed, gone ≤ nextId (s.db .systemSkin)
  | _ => True

instance (s : SkinSession) : ∀ e : SkinEvent, Decidable (FreshSave s e)
  | .save _ _ => inferInstanceAs (Decidable (∀ gone ∈ s.removed, gone ≤ nextId (s.db .systemSkin)))
  | .mount _ => isTrue trivial
  | .delete _ _ => isTrue trivial

/-- The states of a page that has the list of the server. -/
structure SkinSession.Inv (s : SkinSession) : Prop where
  valid : Valid s.db
  fetched : s.skins = some (fetchSkins s.db)
  newest : s.KeepsNewest

/-- **A save** keeps the newest iff the id it gets is not smaller than one that the page removed. -/
theorem save_newest_iff {s s' : SkinSession} (h : s.Inv) {k : Clock} {config : String}
    (hstep : s.step (.save k config) = some s') :
    (Valid s'.db ∧ s'.skins = some (fetchSkins s'.db)) ∧
      (s'.KeepsNewest ↔ ∀ gone ∈ s.removed, gone ≤ nextId (s.db .systemSkin)) := by
  simp only [SkinSession.step, h.fetched, Option.bind_some] at hstep
  rcases oldestSkin_cases h.valid with ⟨hroom, hnone⟩ | ⟨hfull, oldest, hmem, hleast, hsome⟩
  · simp only [hnone, Option.toList_none, deleteSkins_nil, Option.bind_some,
      List.append_nil] at hstep
    obtain ⟨db, hsend, rfl⟩ := Option.map_eq_some_iff.mp hstep
    refine ⟨⟨send_valid h.valid hsend, rfl⟩, ?_⟩
    rw [SkinSession.KeepsNewest, customIds_added hsend]
    exact newest_add_iff h.newest hroom _
  · simp only [hsome, Option.toList_some, deleteSkins_singleton] at hstep
    obtain ⟨w, hdelete, hstep⟩ := Option.bind_eq_some_iff.mp hstep
    obtain ⟨db, hsend, rfl⟩ := Option.map_eq_some_iff.mp hstep
    have hw := send_valid h.valid hdelete
    refine ⟨⟨send_valid hw hsend, rfl⟩, ?_⟩
    have hnew : ∀ id ∈ (customIds s.db).filter (· ≠ oldest), id ≤ nextId (w .systemSkin) := by
      intro id hid
      rw [← customIds_deleted hdelete] at hid
      exact Nat.le_of_lt (lt_nextId_of_customIds hid)
    refine iff_of_true ?_ fun gone hgone => ?_
    · rw [SkinSession.KeepsNewest, customIds_added hsend, customIds_deleted hdelete]
      exact Newest.replace_oldest h.newest (customIds_nodup h.valid) (by omega) hmem hleast hnew
    · exact (h.newest.newest oldest hmem gone hgone).trans
        (Nat.le_of_lt (lt_nextId_of_customIds hmem))

theorem kept_iff {s s' : SkinSession} (h : s.Inv) {e : SkinEvent} (hstep : s.step e = some s') :
    Kept s e ↔ FreshSave s e := by
  cases e with
  | mount k =>
    refine iff_of_true (fun t ht => ?_) trivial
    rw [s.step_mount] at ht
    obtain rfl := Option.some.inj ht
    exact h.newest
  | save k config =>
    have hsave := (save_newest_iff h hstep).2
    refine Iff.trans ⟨fun hkept => hkept s' hstep, fun hnewest t ht => ?_⟩ hsave
    obtain rfl := Option.some.inj (hstep.symm.trans ht)
    exact hnewest
  | delete k id => exact Iff.rfl

/-- The first mount has at most four custom skins iff the server had. -/
theorem mount_kept_iff (db : DB) (k : Clock) :
    Kept (.init db) (.mount k) ↔ (customIds db).length ≤ 4 := by
  constructor
  · intro h
    exact (h _ (SkinSession.step_mount _ k)).bound
  · intro hfour s hs
    rw [SkinSession.step_mount] at hs
    obtain rfl := Option.some.inj hs
    exact ⟨hfour, fun _ _ gone hgone => absurd hgone List.not_mem_nil⟩

/-- **One event keeps the invariant.** -/
theorem step_inv {s s' : SkinSession} {e : SkinEvent} (h : s.Inv) (hkept : Kept s e)
    (hstep : s.step e = some s') :
    s'.Inv := by
  cases e with
  | mount k =>
    have hnewest := hkept s' hstep
    rw [s.step_mount] at hstep
    obtain rfl := Option.some.inj hstep
    exact ⟨h.valid, rfl, hnewest⟩
  | save k config =>
    obtain ⟨⟨hvalid, hfetched⟩, -⟩ := save_newest_iff h hstep
    exact ⟨hvalid, hfetched, hkept s' hstep⟩
  | delete k id =>
    simp only [SkinSession.step, h.fetched, Option.bind_some] at hstep
    split_ifs at hstep
    obtain ⟨db, hsend, rfl⟩ := Option.map_eq_some_iff.mp hstep
    refine ⟨send_valid h.valid hsend, rfl, ?_⟩
    rw [SkinSession.KeepsNewest, customIds_deleted hsend]
    exact h.newest.sublist List.filter_sublist

/-- **The newest custom skins are kept** throughout a run of the page iff there are four at most
    before the run, and no skin is saved under a smaller id than one that the page removed before.
    -/
theorem newest_kept_iff {db : DB} (hdb : Valid db) (k : Clock) (run : List SkinEvent)
    (hrun : (exec SkinSession.step (.init db) (.mount k :: run)).isSome) :
    Always SkinSession.step Kept (.init db) (.mount k :: run) ↔
      (customIds db).length ≤ 4 ∧
        Always SkinSession.step FreshSave (.init db) (.mount k :: run) := by
  obtain ⟨s, hs⟩ := Option.isSome_iff_exists.mp hrun
  obtain ⟨mounted, hmount, hs⟩ := exec_cons_eq_some.mp hs
  have hmounted : mounted = { SkinSession.init db with skins := some (fetchSkins db) } := by
    rw [SkinSession.step_mount] at hmount
    exact (Option.some.inj hmount).symm
  have hrest : (customIds db).length ≤ 4 →
      (Always SkinSession.step Kept mounted run ↔
        Always SkinSession.step FreshSave mounted run) := by
    intro hfour
    have hnewest := (mount_kept_iff db k).mpr hfour mounted hmount
    have hinv : mounted.Inv := by
      rw [hmounted] at hnewest ⊢
      exact ⟨hdb, rfl, hnewest⟩
    exact Always.iff_of_exec (fun s e s' hI hstep => kept_iff hI hstep)
      (fun s e s' => step_inv) hinv hs
  constructor
  · rintro ⟨hfirst, hall⟩
    have hfour := (mount_kept_iff db k).mp hfirst
    refine ⟨hfour, trivial, fun t ht => ?_⟩
    obtain rfl := Option.some.inj (hmount.symm.trans ht)
    exact (hrest hfour).mp (hall mounted ht)
  · rintro ⟨hfour, -, hall⟩
    refine ⟨(mount_kept_iff db k).mpr hfour, fun t ht => ?_⟩
    obtain rfl := Option.some.inj (hmount.symm.trans ht)
    exact (hrest hfour).mpr (hall mounted ht)

/-- A run that saves five skins on a server without any. -/
def fiveSaves : List SkinEvent := List.replicate 5 (.save .epoch "{}")

/-- It keeps the last four of them. -/
theorem newest_kept_iff_five :
    Always SkinSession.step Kept (.init (DB.ofRows [])) (.mount .epoch :: fiveSaves) :=
  (newest_kept_iff valid_empty .epoch fiveSaves (by decide +kernel)).mpr
    ⟨by decide +kernel, by decide +kernel⟩

/-- A server with five custom skins. -/
def fiveSkins : DB :=
  afterRequests .epoch (List.replicate 5 (.create .skin (.json (customSkinData "{}"))))
    (DB.ofRows [])

/-- **The page leaves five custom skins** when it is mounted. -/
theorem five_skins_stay :
    Valid fiveSkins ∧ ¬ Always SkinSession.step Kept (.init fiveSkins) [.mount .epoch] := by
  have hfive : (customIds fiveSkins).length = 5 := by decide +kernel
  refine ⟨afterRequests_valid _ _ valid_empty, fun h => ?_⟩
  have hfour := (mount_kept_iff fiveSkins .epoch).mp h.1
  omega

end ProjectEvaluation.Pages.SkinPage
