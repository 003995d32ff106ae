import ProjectEvaluation.Lib.Machine
import ProjectEvaluation.Pages.Research

/-!
# Typing in the cells of a vendor research

Every keystroke sends its own PUT, and a system name that no system has is POSTed as well;
the answer of this POST sends another PUT. The server carries out the requests in any order.

Results:
* `last_typed_saved`: the server has what was typed last when no request is in flight, in
  every run where a PUT of a cell is carried out only while what was typed last in the cell
  is still on its way.
* `late_put_lost`: after a PUT out of this order it is lost, unless something is typed again.
-/

namespace ProjectEvaluation.Pages

open Python Machine

/-! ## Runs of the page -/

/-- The page and the server; `vendor` is the id of the vendor research, `typed` and
    `typedSystem` are what was typed last in its cells. -/
structure CellSession where
  systems : List SystemEntry
  vendor : ℕ
  typed : TextCell → Option String
  typedSystem : Option String
  server : VendorTable
  dictionary : SystemTable
  reads : ℕ
  lists : List (List SystemEntry)
  updates : List VendorUpdate
  updated : ℕ
  posts : List String
  created : List SystemEntry

/-- What happens. -/
inductive CellEvent
  | type (cell : TextCell) (value : String)
  | typeSystem (systemName : String)
  | put (i : ℕ)
  | updated
  | post (i : ℕ)
  | created (i : ℕ)
  | systemsRead
  | systemsLoaded (i : ℕ)

/-- A PUT names an entry of the dictionary with a given name. -/
def VendorUpdate.Names (entries : List SystemEntry) (systemName : String) : VendorUpdate → Prop
  | .text _ _ => False
  | .system _ id => ∃ entry ∈ entries, entry.systemName = systemName ∧ id = some entry.id

instance (entries : List SystemEntry) (systemName : String) (u : VendorUpdate) :
    Decidable (u.Names entries systemName) := by
  cases u <;> (unfold VendorUpdate.Names; infer_instance)

namespace CellSession

/-- The page with its request for the systems; nothing was typed yet. -/
def start (vendor : ℕ) (server : VendorTable) (dictionary : SystemTable) : CellSession where
  systems := []
  vendor
  typed := fun _ => none
  typedSystem := none
  server
  dictionary
  reads := 1
  lists := []
  updates := []
  updated := 0
  posts := []
  created := []

/-- No request is in flight. -/
def Quiet (s : CellSession) : Prop :=
  s.reads = 0 ∧ s.lists = [] ∧ s.updates = [] ∧ s.updated = 0 ∧ s.posts = [] ∧ s.created = []

/-- The row of the server has what was typed last. -/
def Saved (s : CellSession) : Prop :=
  ∃ v ∈ s.server.rows, v.id = s.vendor ∧ (∀ cell, ∀ text ∈ s.typed cell, v.text cell = some text) ∧
    ∀ name ∈ s.typedSystem, ∃ entry ∈ s.dictionary.entries,
      entry.systemName = name ∧ v.systemId = some (entry.id : ℤ)

/-- One event. -/
def step (s : CellSession) : CellEvent → Option CellSession
  | .type cell value =>
    some { s with
      typed := Function.update s.typed cell (some value)
      updates := s.updates ++ [textChanged cell value] }
  | .typeSystem systemName =>
    let requests := systemNameChanged s.systems systemName
    some { s with
      typedSystem := some systemName
      updates := s.updates ++ [requests.1]
      posts := s.posts ++ requests.2.toList }
  | .put i =>
    s.updates[i]?.map fun u =>
      { s with
        server := s.server.update s.vendor u
        updates := s.updates.eraseIdx i
        updated := s.updated + 1 }
  | .updated => if 0 < s.updated then some { s with updated := s.updated - 1 } else none
  | .post i =>
    s.posts[i]?.map fun systemName =>
      { s with
        dictionary := s.dictionary.create systemName
        posts := s.posts.eraseIdx i
        created := s.created ++ [s.dictionary.newEntry systemName] }
  | .created i =>
    s.created[i]?.map fun system =>
      { s with created := s.created.eraseIdx i, updates := s.updates ++ [systemCreated system] }
  | .systemsRead =>
    if 0 < s.reads then
      some { s with reads := s.reads - 1, lists := s.lists ++ [s.dictionary.entries] }
    else none
  | .systemsLoaded i =>
    s.lists[i]?.map fun systems => { s with systems, lists := s.lists.eraseIdx i }

/-- The id of a system with this name is on its way: a PUT has it, or the system is to be
    POSTed, or the answer of this POST is to send the PUT. -/
def SystemOnItsWay (s : CellSession) (systemName : String) : Prop :=
  (∃ u ∈ s.updates, u.Names s.dictionary.entries systemName) ∨ systemName ∈ s.posts ∨
    ∃ entry ∈ s.created, entry.systemName = systemName

/-- What was typed last in the cell of a PUT is on its way. -/
def OnItsWay (s : CellSession) : VendorUpdate → Prop
  | .text cell _ => ∀ text ∈ s.typed cell, .text cell text ∈ s.updates
  | .system _ _ => ∀ systemName ∈ s.typedSystem, s.SystemOnItsWay systemName

/-- A PUT is carried out only while what was typed last in its cell is on its way (as this
    PUT or a later one). -/
def InOrder (s : CellSession) : CellEvent → Prop
  | .put i => ∀ u ∈ s.updates[i]?, s.OnItsWay u
  | _ => True

instance (s : CellSession) (systemName : String) : Decidable (s.SystemOnItsWay systemName) := by
  unfold SystemOnItsWay
  infer_instance

instance (s : CellSession) (u : VendorUpdate) : Decidable (s.OnItsWay u) := by
  cases u <;> (unfold OnItsWay; infer_instance)

instance (s : CellSession) (e : CellEvent) : Decidable (s.InOrder e) := by
  cases e <;> (unfold InOrder; infer_instance)

/-! ## The lists of systems -/

/-- The systems of the page and of the answers are in the dictionary. -/
structure Known (s : CellSession) : Prop where
  systems : ∀ entry ∈ s.systems, entry ∈ s.dictionary.entries
  lists : ∀ list ∈ s.lists, ∀ entry ∈ list, entry ∈ s.dictionary.entries
  created : ∀ entry ∈ s.created, entry ∈ s.dictionary.entries

theorem known_start (vendor : ℕ) (server : VendorTable) (dictionary : SystemTable) :
    (start vendor server dictionary).Known :=
  ⟨fun _ h => (nomatch h), fun _ h => (nomatch h), fun _ h => (nomatch h)⟩

/-- One event keeps the systems in the dictionary. -/
theorem Known.step {s s' : CellSession} (h : s.Known) {e : CellEvent} (hstep : s.step e = some s') :
    s'.Known := by
  cases e with
  | type cell value => cases hstep; exact ⟨h.systems, h.lists, h.created⟩
  | typeSystem systemName => cases hstep; exact ⟨h.systems, h.lists, h.created⟩
  | put i =>
    obtain ⟨u, -, rfl⟩ := Option.map_eq_some_iff.mp hstep
    exact ⟨h.systems, h.lists, h.created⟩
  | updated =>
    simp only [CellSession.step] at hstep
    split_ifs at hstep
    cases hstep
    exact ⟨h.systems, h.lists, h.created⟩
  | post i =>
    obtain ⟨systemName, -, rfl⟩ := Option.map_eq_some_iff.mp hstep
    have hgrow : ∀ entry ∈ s.dictionary.entries, entry ∈ (s.dictionary.create systemName).entries :=
      fun entry hentry => SystemTable.mem_create.mpr (Or.inl hentry)
    refine ⟨fun entry hentry => hgrow entry (h.systems entry hentry),
      fun list hlist entry hentry => hgrow entry (h.lists list hlist entry hentry),
      fun entry hentry => ?_⟩
    rcases List.mem_append.mp hentry with hentry | hentry
    · exact hgrow entry (h.created entry hentry)
    · exact SystemTable.mem_create.mpr (Or.inr (List.mem_singleton.mp hentry))
  | created i =>
    obtain ⟨system, -, rfl⟩ := Option.map_eq_some_iff.mp hstep
    exact ⟨h.systems, h.lists,
      fun entry hentry => h.created entry (List.mem_of_mem_eraseIdx hentry)⟩
  | systemsRead =>
    simp only [CellSession.step] at hstep
    split_ifs at hstep
    cases hstep
    refine ⟨h.systems, fun list hlist => ?_, h.created⟩
    rcases List.mem_append.mp hlist with hlist | hlist
    · exact h.lists list hlist
    · rw [List.mem_singleton.mp hlist]
      exact fun entry hentry => hentry
  | systemsLoaded i =>
    obtain ⟨systems, hsystems, rfl⟩ := Option.map_eq_some_iff.mp hstep
    exact ⟨h.lists systems (List.mem_of_getElem? hsystems),
      fun list hlist => h.lists list (List.mem_of_mem_eraseIdx hlist), h.created⟩

/-! ## The invariant -/

end CellSession

/-- A vendor research is for a system with a given name. -/
def Vendor.HasSystem (entries : List SystemEntry) (systemName : String) (v : Vendor) : Prop :=
  ∃ entry ∈ entries, entry.systemName = systemName ∧ v.systemId = some (entry.id : ℤ)

theorem Vendor.HasSystem.mono {entries entries' : List SystemEntry} {systemName : String}
    {v : Vendor}
    (h : v.HasSystem entries systemName) (hentries : ∀ entry ∈ entries, entry ∈ entries') :
    v.HasSystem entries' systemName := by
  obtain ⟨entry, hentry, hname, hid⟩ := h
  exact ⟨entry, hentries entry hentry, hname, hid⟩

theorem VendorUpdate.Names.mono {entries entries' : List SystemEntry} {systemName : String}
    {u : VendorUpdate}
    (h : u.Names entries systemName) (hentries : ∀ entry ∈ entries, entry ∈ entries') :
    u.Names entries' systemName := by
  cases u with
  | text cell value => exact h
  | system name id =>
    obtain ⟨entry, hentry, hname, hid⟩ := h
    exact ⟨entry, hentries entry hentry, hname, hid⟩

/-- A PUT of a system gives the row the system it names. -/
theorem VendorUpdate.apply_hasSystem {entries : List SystemEntry} {systemName : String}
    {name : Option String}
    {id : Option ℕ} {v : Vendor} :
    ((VendorUpdate.system name id).apply v).HasSystem entries systemName ↔
      (VendorUpdate.system name id).Names entries systemName := by
  refine exists_congr fun entry => and_congr_right fun _ => and_congr_right fun _ => ?_
  cases id <;> simp [VendorUpdate.apply]

theorem VendorUpdate.apply_text_hasSystem {entries : List SystemEntry} {systemName : String}
    {cell : TextCell}
    {value : String} {v : Vendor} :
    ((VendorUpdate.text cell value).apply v).HasSystem entries systemName ↔
      v.HasSystem entries systemName := by
  simp [Vendor.HasSystem]

namespace CellSession

theorem SystemOnItsWay.mono {s s' : CellSession} {systemName : String}
    (h : s.SystemOnItsWay systemName)
    (hupdates : ∀ u ∈ s.updates, u ∈ s'.updates) (hposts : ∀ name ∈ s.posts, name ∈ s'.posts)
    (hcreated : ∀ entry ∈ s.created, entry ∈ s'.created)
    (hentries : ∀ entry ∈ s.dictionary.entries, entry ∈ s'.dictionary.entries) :
    s'.SystemOnItsWay systemName := by
  rcases h with ⟨u, hu, hnames⟩ | hpost | ⟨entry, hentry, hname⟩
  · exact Or.inl ⟨u, hupdates u hu, hnames.mono hentries⟩
  · exact Or.inr (Or.inl (hposts _ hpost))
  · exact Or.inr (Or.inr ⟨entry, hcreated entry hentry, hname⟩)

/-- What was typed last in the cells of the texts is in a row or on its way. -/
def TextSafe (s : CellSession) (v : Vendor) : Prop :=
  ∀ cell, ∀ text ∈ s.typed cell, v.text cell = some text ∨ .text cell text ∈ s.updates

/-- The system that was typed last is that of a row or on its way. -/
def SystemSafe (s : CellSession) (v : Vendor) : Prop :=
  ∀ name ∈ s.typedSystem, v.HasSystem s.dictionary.entries name ∨ s.SystemOnItsWay name

/-- The invariant of the runs in order. -/
structure Safe (s : CellSession) : Prop extends s.Known where
  row : ∃ v ∈ s.server.rows, v.id = s.vendor ∧ s.TextSafe v ∧ s.SystemSafe v

/-- The row is still there, and nothing less is on its way. -/
theorem Safe.mono {s s' : CellSession} (h : s.Safe) (hknown : s'.Known)
    (hserver : s'.server = s.server)
    (hvendor : s'.vendor = s.vendor) (htyped : s'.typed = s.typed)
    (hsystem : s'.typedSystem = s.typedSystem)
    (hupdates : ∀ u ∈ s.updates, u ∈ s'.updates)
    (hway : ∀ name, s.SystemOnItsWay name → s'.SystemOnItsWay name)
    (hentries : ∀ entry ∈ s.dictionary.entries, entry ∈ s'.dictionary.entries) : s'.Safe := by
  obtain ⟨v, hv, hid, htext, hsys⟩ := h.row
  refine ⟨hknown, v, hserver ▸ hv, hid.trans hvendor.symm, fun cell text ht => ?_,
    fun name hname => ?_⟩
  · rw [htyped] at ht
    exact (htext cell text ht).imp_right (hupdates _)
  · rw [hsystem] at hname
    exact (hsys name hname).imp (fun hrow => hrow.mono hentries) (hway name)

/-- A text that is typed. -/
theorem Safe.type {s s' : CellSession} (h : s.Safe) {cell : TextCell} {value : String}
    (hstep : s.step (.type cell value) = some s') : s'.Safe := by
  have hknown := h.toKnown.step hstep
  cases hstep
  obtain ⟨v, hv, hid, htext, hsys⟩ := h.row
  refine ⟨hknown, v, hv, hid, fun cell' text ht => ?_, fun name hname => ?_⟩
  · by_cases hcell : cell' = cell
    · subst hcell
      simp only [Function.update_self, Option.mem_some_iff] at ht
      subst ht
      exact Or.inr (List.mem_append_right _ List.mem_cons_self)
    · simp only [Function.update_of_ne hcell] at ht
      exact (htext cell' text ht).imp_right (List.mem_append_left _)
  · exact (hsys name hname).imp_right fun hway =>
      hway.mono (fun _ => List.mem_append_left _) (fun _ => id) (fun _ => id) fun _ => id

/-- A system name that is typed. -/
theorem Safe.typeSystem {s s' : CellSession} (h : s.Safe) {systemName : String}
    (hstep : s.step (.typeSystem systemName) = some s') : s'.Safe := by
  have hknown := h.toKnown.step hstep
  cases hstep
  obtain ⟨v, hv, hid, htext, -⟩ := h.row
  refine ⟨hknown, v, hv, hid, fun cell text ht => ?_, fun name hname => ?_⟩
  · exact (htext cell text ht).imp_right (List.mem_append_left _)
  simp only [Option.mem_some_iff] at hname
  subst hname
  unfold systemNameChanged
  cases hfind : s.systems.find? fun system => system.systemName = systemName with
  | some system =>
    have hname : system.systemName = systemName := by simpa using List.find?_some hfind
    refine Or.inr (Or.inl ⟨_, List.mem_append_right _ List.mem_cons_self, system, ?_, hname, rfl⟩)
    exact h.systems system (List.mem_of_find?_eq_some hfind)
  | none => exact Or.inr (Or.inr (Or.inl (List.mem_append_right _ List.mem_cons_self)))

/-- A PUT that is carried out in order. -/
theorem Safe.put {s s' : CellSession} (h : s.Safe) {i : ℕ} (horder : s.InOrder (.put i))
    (hstep : s.step (.put i) = some s') : s'.Safe := by
  have hknown := h.toKnown.step hstep
  obtain ⟨u, hu, rfl⟩ := Option.map_eq_some_iff.mp hstep
  have hway := horder u hu
  obtain ⟨v, hv, hid, htext, hsys⟩ := h.row
  refine ⟨hknown, u.apply v, VendorTable.mem_update.mpr ⟨v, hv, if_pos hid⟩,
    (u.apply_id v).trans hid, fun cell text ht => ?_, fun name hname => ?_⟩
  · by_cases hsame : VendorUpdate.text cell text = u
    · exact Or.inl (hsame ▸ VendorUpdate.apply_text_same cell text v)
    cases u with
    | text cell' value =>
      by_cases hcell : cell = cell'
      · subst hcell
        exact Or.inr (mem_eraseIdx_of_ne (hway text ht) hu hsame)
      · rw [VendorUpdate.apply_text_other hcell]
        exact (htext cell text ht).imp_right fun hmem => mem_eraseIdx_of_ne hmem hu hsame
    | system name id =>
      rw [VendorUpdate.apply_system_text]
      exact (htext cell text ht).imp_right fun hmem => mem_eraseIdx_of_ne hmem hu hsame
  · have hleft : s.SystemOnItsWay name → u.Names s.dictionary.entries name ∨
        SystemOnItsWay { s with updates := s.updates.eraseIdx i } name := by
      rintro (⟨u', hu', hnames⟩ | hrest)
      · by_cases hsame : u' = u
        · exact Or.inl (hsame ▸ hnames)
        · exact Or.inr (Or.inl ⟨u', mem_eraseIdx_of_ne hu' hu hsame, hnames⟩)
      · exact Or.inr (Or.inr hrest)
    cases u with
    | text cell value =>
      rw [VendorUpdate.apply_text_hasSystem]
      exact (hsys name hname).imp_right fun hway => (hleft hway).resolve_left id
    | system _ id =>
      rw [VendorUpdate.apply_hasSystem]
      exact hleft (hway name hname)

/-- A system that is POSTed. -/
theorem Safe.post {s s' : CellSession} (h : s.Safe) {i : ℕ} (hstep : s.step (.post i) = some s') :
    s'.Safe := by
  have hknown := h.toKnown.step hstep
  obtain ⟨systemName, hpost, rfl⟩ := Option.map_eq_some_iff.mp hstep
  have hgrow : ∀ entry ∈ s.dictionary.entries, entry ∈ (s.dictionary.create systemName).entries :=
    fun entry hentry => SystemTable.mem_create.mpr (Or.inl hentry)
  refine h.mono hknown rfl rfl rfl rfl (fun _ => id) (fun name hway => ?_) hgrow
  rcases hway with ⟨u, hu, hnames⟩ | hposts | ⟨entry, hentry, hname⟩
  · exact Or.inl ⟨u, hu, hnames.mono hgrow⟩
  · by_cases hsame : name = systemName
    · subst hsame
      exact Or.inr (Or.inr ⟨_, List.mem_append_right _ List.mem_cons_self, rfl⟩)
    · exact Or.inr (Or.inl (mem_eraseIdx_of_ne hposts hpost hsame))
  · exact Or.inr (Or.inr ⟨entry, List.mem_append_left _ hentry, hname⟩)

/-- The answer of the POST of a system. -/
theorem Safe.answer {s s' : CellSession} (h : s.Safe) {i : ℕ}
    (hstep : s.step (.created i) = some s') : s'.Safe := by
  have hknown := h.toKnown.step hstep
  obtain ⟨system, hsystem, rfl⟩ := Option.map_eq_some_iff.mp hstep
  refine h.mono hknown rfl rfl rfl rfl (fun _ => List.mem_append_left _)
    (fun name hway => ?_) fun _ => id
  rcases hway with ⟨u, hu, hnames⟩ | hposts | ⟨entry, hentry, hname⟩
  · exact Or.inl ⟨u, List.mem_append_left _ hu, hnames⟩
  · exact Or.inr (Or.inl hposts)
  · by_cases hsame : entry = system
    · subst hsame
      exact Or.inl ⟨_, List.mem_append_right _ List.mem_cons_self, entry,
        h.created entry hentry, hname, rfl⟩
    · exact Or.inr (Or.inr ⟨entry, mem_eraseIdx_of_ne hentry hsystem hsame, hname⟩)

/-- **One event** in order keeps the invariant. -/
theorem Safe.step {s s' : CellSession} (h : s.Safe) {e : CellEvent} (horder : s.InOrder e)
    (hstep : s.step e = some s') : s'.Safe := by
  have hknown := h.toKnown.step hstep
  cases e with
  | type cell value => exact h.type hstep
  | typeSystem systemName => exact h.typeSystem hstep
  | put i => exact h.put horder hstep
  | post i => exact h.post hstep
  | created i => exact h.answer hstep
  | updated =>
    simp only [CellSession.step] at hstep
    split_ifs at hstep
    cases hstep
    exact h.mono hknown rfl rfl rfl rfl (fun _ => id) (fun _ => id) fun _ => id
  | systemsRead =>
    simp only [CellSession.step] at hstep
    split_ifs at hstep
    cases hstep
    exact h.mono hknown rfl rfl rfl rfl (fun _ => id) (fun _ => id) fun _ => id
  | systemsLoaded i =>
    obtain ⟨systems, -, rfl⟩ := Option.map_eq_some_iff.mp hstep
    exact h.mono hknown rfl rfl rfl rfl (fun _ => id) (fun _ => id) fun _ => id

theorem safe_start {vendor : ℕ} {server : VendorTable} {dictionary : SystemTable}
    (h : ∃ v ∈ server.rows, v.id = vendor) : (start vendor server dictionary).Safe := by
  obtain ⟨v, hv, hid⟩ := h
  exact ⟨known_start vendor server dictionary, v, hv, hid, fun cell text ht => (nomatch ht),
    fun name hname => (nomatch hname)⟩

/-- In a safe state everything is saved when no request is in flight. -/
theorem Safe.saved {s : CellSession} (h : s.Safe) (hquiet : s.Quiet) : s.Saved := by
  obtain ⟨-, -, hupdates, -, hposts, hcreated⟩ := hquiet
  obtain ⟨v, hv, hid, htext, hsys⟩ := h.row
  refine ⟨v, hv, hid, fun cell text ht => ?_, fun name hname => ?_⟩
  · refine (htext cell text ht).resolve_right fun hmem => ?_
    rw [hupdates] at hmem
    cases hmem
  · refine (hsys name hname).resolve_right fun hway => ?_
    rw [SystemOnItsWay, hupdates, hposts, hcreated] at hway
    simp at hway

end CellSession

/-! ## Runs in order -/

/-- **What was typed last is saved.** In every run in which a PUT of a cell is carried out
    only while what was typed last in the cell is on its way, the row of the server has,
    when no request is in flight, the texts that were typed last and the id of an entry of
    the dictionary with the system name that was typed last. -/
theorem last_typed_saved (vendor : ℕ) (server : VendorTable) (dictionary : SystemTable)
    (hvendor : ∃ v ∈ server.rows, v.id = vendor) (es : List CellEvent) (s : CellSession)
    (hexec : exec CellSession.step (.start vendor server dictionary) es = some s)
    (horder : Always CellSession.step CellSession.InOrder (.start vendor server dictionary) es)
    (hquiet : s.Quiet) : s.Saved :=
  (horder.invariant (I := CellSession.Safe) (fun _ _ _ h hgood hstep => h.step hgood hstep)
    (CellSession.safe_start hvendor) hexec).saved hquiet

/-- A row of the server. -/
def editedVendors : VendorTable :=
  ⟨[⟨1, ⟨2026, 2, 1, by decide⟩, 1, 1, some "任务", none, "", some ""⟩], by decide⟩

/-- Two letters are typed as the manufacturer and the PUT of the first is carried out last;
    a new system is typed, and the PUT without its id is carried out last. -/
def lastFirst : List CellEvent :=
  [.systemsRead, .systemsLoaded 0, .type .manufacturer "东", .type .manufacturer "东软", .put 1,
   .updated, .put 0, .updated, .typeSystem "HIS", .post 0, .created 0, .put 1, .updated,
   .put 0, .updated]

/-- The row has the first letter and no system. -/
theorem last_first_not_saved :
    ∃ s, exec CellSession.step (.start 1 editedVendors ⟨[], by decide⟩) lastFirst =
      some s ∧ s.Quiet ∧
      s.typed .manufacturer = some "东软" ∧ s.typedSystem = some "HIS" ∧
      (s.server.rows.map fun v => (v.manufacturer, v.systemId)) = [("东", none)] ∧ ¬ s.Saved := by
  refine ⟨_, rfl, ⟨rfl, rfl, rfl, rfl, rfl, rfl⟩, rfl, rfl, by decide, ?_⟩
  rintro ⟨v, hv, -, htext, -⟩
  have hmanufacturer := htext .manufacturer "东软" rfl
  rw [List.mem_singleton.mp hv] at hmanufacturer
  exact absurd hmanufacturer (by decide)

/-- The same is typed and the PUTs are carried out as they were sent. -/
def firstFirst : List CellEvent :=
  [.systemsRead, .systemsLoaded 0, .type .manufacturer "东", .type .manufacturer "东软", .put 0,
   .updated, .put 0, .updated, .typeSystem "HIS", .put 0, .updated, .post 0, .created 0,
   .put 0, .updated]

/-- The row has what was typed last. -/
theorem first_first_saved :
    ∃ s, exec CellSession.step (.start 1 editedVendors ⟨[], by decide⟩) firstFirst = some s ∧
      s.Saved := by
  obtain ⟨s, hs, hquiet⟩ : ∃ s,
      exec CellSession.step (.start 1 editedVendors ⟨[], by decide⟩) firstFirst = some s ∧
      s.Quiet := ⟨_, rfl, rfl, rfl, rfl, rfl, rfl, rfl⟩
  exact ⟨s, hs, last_typed_saved 1 editedVendors ⟨[], by decide⟩
    ⟨_, List.mem_cons_self, rfl⟩ firstFirst s hs
    (by decide) hquiet⟩

/-! ## Late PUTs -/

/-- Nothing is typed. -/
def CellEvent.Silent : CellEvent → Prop
  | .type _ _ => False
  | .typeSystem _ => False
  | _ => True

namespace CellSession

/-- The text typed last in a cell is neither in the row nor on its way. -/
structure TextLost (s : CellSession) (cell : TextCell) (text : String) : Prop where
  typed : s.typed cell = some text
  updates : .text cell text ∉ s.updates
  rows : ∀ v ∈ s.server.rows, v.id = s.vendor → v.text cell ≠ some text

/-- The system typed last is neither that of the row nor on its way. -/
structure SystemLost (s : CellSession) (systemName : String) : Prop where
  typed : s.typedSystem = some systemName
  way : ¬ s.SystemOnItsWay systemName
  rows : ∀ v ∈ s.server.rows, v.id = s.vendor → ¬ v.HasSystem s.dictionary.entries systemName

/-- What was typed last in one of the cells is lost. -/
def Lost (s : CellSession) : Prop :=
  (∃ cell text, s.TextLost cell text) ∨ ∃ systemName, s.SystemLost systemName

theorem Lost.not_saved {s : CellSession} (h : s.Lost) : ¬ s.Saved := by
  rintro ⟨v, hv, hid, htext, hsystem⟩
  rcases h with ⟨cell, text, hlost⟩ | ⟨systemName, hlost⟩
  · exact hlost.rows v hv hid (htext cell text hlost.typed)
  · exact hlost.rows v hv hid (hsystem systemName hlost.typed)

/-- A row after a PUT. -/
theorem mem_update_vendor {s : CellSession} {u : VendorUpdate} {v : Vendor}
    (hv : v ∈ (s.server.update s.vendor u).rows) (hid : v.id = s.vendor) :
    ∃ w ∈ s.server.rows, w.id = s.vendor ∧ v = u.apply w := by
  obtain ⟨w, hw, hsame⟩ := VendorTable.mem_update.mp hv
  split_ifs at hsame with hwid
  · exact ⟨w, hw, hwid, hsame.symm⟩
  · exact absurd (hsame ▸ hid) hwid

/-- A PUT that is not of the text typed last leaves another text. -/
theorem TextLost.put {s : CellSession} {cell : TextCell} {text : String} {i : ℕ} {u : VendorUpdate}
    (hu : s.updates[i]? = some u) (htyped : s.typed cell = some text)
    (hupdates : .text cell text ∉ s.updates)
    (hrows : (∃ value, u = .text cell value) ∨ ∀ v ∈ s.server.rows,
      v.id = s.vendor → v.text cell ≠ some text) :
    TextLost { s with
      server := s.server.update s.vendor u
      updates := s.updates.eraseIdx i
      updated := s.updated + 1 } cell text where
  typed := htyped
  updates := fun hmem => hupdates (List.mem_of_mem_eraseIdx hmem)
  rows := by
    intro v hv hid htext
    obtain ⟨w, hw, hwid, rfl⟩ := mem_update_vendor hv hid
    have hne : u ≠ .text cell text := fun hsame => hupdates (hsame ▸ List.mem_of_getElem? hu)
    cases u with
    | text cell' value =>
      by_cases hcell : cell = cell'
      · subst hcell
        rw [VendorUpdate.apply_text_same] at htext
        exact hne (congrArg _ (Option.some.inj htext))
      · rw [VendorUpdate.apply_text_other hcell] at htext
        rcases hrows with ⟨value', hsame⟩ | hrows
        · exact hcell (VendorUpdate.text.inj hsame).1.symm
        · exact hrows w hw hwid htext
    | system name id =>
      rw [VendorUpdate.apply_system_text] at htext
      rcases hrows with ⟨value', hsame⟩ | hrows
      · cases hsame
      · exact hrows w hw hwid htext

/-- A PUT that does not name the system typed last leaves another system. -/
theorem SystemLost.put {s : CellSession} {systemName : String} {i : ℕ} {u : VendorUpdate}
    (hu : s.updates[i]? = some u) (htyped : s.typedSystem = some systemName)
    (hway : ¬ s.SystemOnItsWay systemName)
    (hrows : (∃ name id, u = .system name id) ∨
      ∀ v ∈ s.server.rows, v.id = s.vendor → ¬ v.HasSystem s.dictionary.entries systemName) :
    SystemLost { s with
      server := s.server.update s.vendor u
      updates := s.updates.eraseIdx i
      updated := s.updated + 1 } systemName where
  typed := htyped
  way := fun h =>
    hway (h.mono (fun _ => List.mem_of_mem_eraseIdx) (fun _ => id) (fun _ => id) fun _ => id)
  rows := by
    intro v hv hid hsystem
    obtain ⟨w, hw, hwid, rfl⟩ := mem_update_vendor hv hid
    cases u with
    | text cell value =>
      rw [VendorUpdate.apply_text_hasSystem] at hsystem
      rcases hrows with ⟨name, id, hsame⟩ | hrows
      · cases hsame
      · exact hrows w hw hwid hsystem
    | system name id =>
      rw [VendorUpdate.apply_hasSystem] at hsystem
      exact hway (Or.inl ⟨_, List.mem_of_getElem? hu, hsystem⟩)

/-- The POST of another system. -/
theorem SystemLost.post {s s' : CellSession} {systemName : String}
    (h : s.SystemLost systemName) {i : ℕ}
    (hstep : s.step (.post i) = some s') : s'.SystemLost systemName := by
  obtain ⟨posted, hpost, rfl⟩ := Option.map_eq_some_iff.mp hstep
  have hne : posted ≠ systemName := by
    rintro rfl
    exact h.way (Or.inr (Or.inl (List.mem_of_getElem? hpost)))
  have hold : ∀ entry ∈ (s.dictionary.create posted).entries, entry.systemName = systemName →
      entry ∈ s.dictionary.entries := by
    intro entry hentry hname
    refine (SystemTable.mem_create.mp hentry).resolve_right fun hnew => ?_
    rw [hnew] at hname
    exact hne hname
  refine ⟨h.typed, ?_, ?_⟩
  · rintro (⟨u, hu, hnames⟩ | hposts | ⟨entry, hentry, hname⟩)
    · cases u with
      | text cell value => exact hnames
      | system name id =>
        obtain ⟨entry, hentry, hname, hid⟩ := hnames
        exact h.way (Or.inl ⟨_, hu, entry, hold entry hentry hname, hname, hid⟩)
    · exact h.way (Or.inr (Or.inl (List.mem_of_mem_eraseIdx hposts)))
    · rcases List.mem_append.mp hentry with hentry | hentry
      · exact h.way (Or.inr (Or.inr ⟨entry, hentry, hname⟩))
      · rw [List.mem_singleton.mp hentry] at hname
        exact hne hname
  · rintro v hv hid ⟨entry, hentry, hname, hsystem⟩
    exact h.rows v hv hid ⟨entry, hold entry hentry hname, hname, hsystem⟩

/-- The answer of the POST of another system. -/
theorem SystemLost.answer {s s' : CellSession} {systemName : String} (h : s.SystemLost systemName)
    (hknown : s.Known)
    {i : ℕ} (hstep : s.step (.created i) = some s') : s'.SystemLost systemName := by
  obtain ⟨system, hsystem, rfl⟩ := Option.map_eq_some_iff.mp hstep
  have hmem := List.mem_of_getElem? hsystem
  refine ⟨h.typed, ?_, h.rows⟩
  rintro (⟨u, hu, hnames⟩ | hposts | ⟨entry, hentry, hname⟩)
  · rcases List.mem_append.mp hu with hu | hu
    · exact h.way (Or.inl ⟨u, hu, hnames⟩)
    · rw [List.mem_singleton.mp hu] at hnames
      obtain ⟨entry, hentry, hname, hid⟩ := hnames
      obtain rfl := List.inj_on_of_nodup_map s.dictionary.keys (hknown.created system hmem) hentry
        (Option.some.inj hid)
      exact h.way (Or.inr (Or.inr ⟨system, hmem, hname⟩))
  · exact h.way (Or.inr (Or.inl hposts))
  · exact h.way (Or.inr (Or.inr ⟨entry, List.mem_of_mem_eraseIdx hentry, hname⟩))

/-- **One event** without typing leaves lost what is lost. -/
theorem Lost.step {s s' : CellSession} (h : s.Lost) (hknown : s.Known) {e : CellEvent}
    (hsilent : e.Silent)
    (hstep : s.step e = some s') : s'.Lost := by
  cases e with
  | type cell value => exact absurd hsilent id
  | typeSystem systemName => exact absurd hsilent id
  | put i =>
    obtain ⟨u, hu, rfl⟩ := Option.map_eq_some_iff.mp hstep
    rcases h with ⟨cell, text, hlost⟩ | ⟨systemName, hlost⟩
    · exact Or.inl ⟨cell, text, TextLost.put hu hlost.typed hlost.updates (Or.inr hlost.rows)⟩
    · exact Or.inr ⟨systemName, SystemLost.put hu hlost.typed hlost.way (Or.inr hlost.rows)⟩
  | post i =>
    rcases h with ⟨cell, text, hlost⟩ | ⟨systemName, hlost⟩
    · obtain ⟨systemName, -, rfl⟩ := Option.map_eq_some_iff.mp hstep
      exact Or.inl ⟨cell, text, hlost.typed, hlost.updates, hlost.rows⟩
    · exact Or.inr ⟨systemName, hlost.post hstep⟩
  | created i =>
    rcases h with ⟨cell, text, hlost⟩ | ⟨systemName, hlost⟩
    · obtain ⟨system, -, rfl⟩ := Option.map_eq_some_iff.mp hstep
      refine Or.inl ⟨cell, text, hlost.typed, fun hmem => ?_, hlost.rows⟩
      rcases List.mem_append.mp hmem with hmem | hmem
      · exact hlost.updates hmem
      · cases List.mem_singleton.mp hmem
    · exact Or.inr ⟨systemName, hlost.answer hknown hstep⟩
  | updated =>
    simp only [CellSession.step] at hstep
    split_ifs at hstep
    cases hstep
    exact h.imp (fun ⟨cell, text, hlost⟩ => ⟨cell, text, hlost.typed, hlost.updates, hlost.rows⟩)
      fun ⟨systemName, hlost⟩ => ⟨systemName, hlost.typed, hlost.way, hlost.rows⟩
  | systemsRead =>
    simp only [CellSession.step] at hstep
    split_ifs at hstep
    cases hstep
    exact h.imp (fun ⟨cell, text, hlost⟩ => ⟨cell, text, hlost.typed, hlost.updates, hlost.rows⟩)
      fun ⟨systemName, hlost⟩ => ⟨systemName, hlost.typed, hlost.way, hlost.rows⟩
  | systemsLoaded i =>
    obtain ⟨systems, -, rfl⟩ := Option.map_eq_some_iff.mp hstep
    exact h.imp (fun ⟨cell, text, hlost⟩ => ⟨cell, text, hlost.typed, hlost.updates, hlost.rows⟩)
      fun ⟨systemName, hlost⟩ => ⟨systemName, hlost.typed, hlost.way, hlost.rows⟩

/-- A PUT out of order loses what was typed last in its cell. -/
theorem lost_of_late {s s' : CellSession} {i : ℕ} (hlate : ¬ s.InOrder (.put i))
    (hstep : s.step (.put i) = some s') :
    s'.Lost := by
  obtain ⟨u, hu, rfl⟩ := Option.map_eq_some_iff.mp hstep
  have hway : ¬ s.OnItsWay u := by
    intro hway
    refine hlate fun u' hu' => ?_
    rwa [Option.some.inj (hu'.symm.trans hu)]
  cases u with
  | text cell value =>
    simp only [OnItsWay, not_forall] at hway
    obtain ⟨text, htyped, hupdates⟩ := hway
    exact Or.inl ⟨cell, text, TextLost.put hu htyped hupdates (Or.inl ⟨value, rfl⟩)⟩
  | system name id =>
    simp only [OnItsWay, not_forall] at hway
    obtain ⟨systemName, htyped, hway⟩ := hway
    exact Or.inr ⟨systemName, SystemLost.put hu htyped hway (Or.inl ⟨name, id, rfl⟩)⟩

end CellSession

/-- **Late PUTs.** Once a PUT was carried out out of order, what was typed last in its cell
    is not saved in any state that is reached without typing again. -/
theorem late_put_lost (vendor : ℕ) (server : VendorTable) (dictionary : SystemTable)
    (es es' : List CellEvent)
    (s s' t : CellSession) (i : ℕ)
    (hexec : exec CellSession.step (.start vendor server dictionary) es = some s)
    (hlate : ¬ s.InOrder (.put i)) (hput : s.step (.put i) = some s')
    (hexec' : exec CellSession.step s' es' = some t) (hsilent : ∀ e ∈ es', e.Silent) :
    ¬ t.Saved := by
  have hknown : s.Known := invariant (I := CellSession.Known) (fun _ _ _ h hstep => h.step hstep)
    (CellSession.known_start vendor server dictionary) hexec
  have hlost : t.Known ∧ t.Lost :=
    (always_of_forall hsilent).invariant (I := fun s => s.Known ∧ s.Lost)
    (fun _ _ _ h hsilent hstep => ⟨h.1.step hstep, h.2.step h.1 hsilent hstep⟩)
    ⟨hknown.step hput, CellSession.lost_of_late hlate hput⟩ hexec'
  exact hlost.2.not_saved

end ProjectEvaluation.Pages
