import Mathlib.Data.List.Forall2
import Mathlib.Data.List.Nodup
import ProjectEvaluation.Lib.Relational

/-!
# Saving items by their key

Items are saved one after the other: one whose key is that of a row in a snapshot replaces the
first such row, any other becomes a new row. The snapshot is taken before the first item and is
not renewed, so that two items with a new key become two rows.

Results:
* `Scheme.one_row_iff`: a key has one row, with the content of the last item of the key, unless
  the key is new and has two items.
* `Scheme.saveAll_again_iff`: saving the items again changes nothing unless the first and the
  last item of a new key differ.
-/

namespace ProjectEvaluation.Upsert

/-- Items that are saved as rows: both have a key and a content, the rows have ids. -/
structure Scheme (ρ ι κ ω : Type) where
  id : ρ → ℕ
  rowKey : ρ → κ
  content : ρ → ω
  key : ι → κ
  given : ι → ω
  make : ℕ → ι → ρ
  replace : ι → ρ → ρ
  id_make : ∀ n i, id (make n i) = n
  rowKey_make : ∀ n i, rowKey (make n i) = key i
  content_make : ∀ n i, content (make n i) = given i
  id_replace : ∀ i r, id (replace i r) = id r
  rowKey_replace : ∀ i r, rowKey (replace i r) = key i
  content_replace : ∀ i r, content (replace i r) = given i

namespace Scheme

variable {ρ ι κ ω : Type} [DecidableEq κ] (S : Scheme ρ ι κ ω)

/-- The row that a snapshot has for an item. -/
def existing (snapshot : List ρ) (i : ι) : Option ρ := snapshot.find? fun r => S.rowKey r = S.key i

/-- Saving one item. -/
def save (snapshot rows : List ρ) (i : ι) : List ρ :=
  match S.existing snapshot i with
  | some e => rows.map fun r => if S.id r = S.id e then S.replace i r else r
  | none => rows ++ [S.make ((rows.map S.id).foldr max 0 + 1) i]

/-- Saving items one after the other. -/
def saveAll (snapshot rows : List ρ) (items : List ι) : List ρ := items.foldl (S.save snapshot) rows

/-- The rows with a key. -/
def rowsOf (rows : List ρ) (k : κ) : List ρ := rows.filter fun r => S.rowKey r = k

/-- The items with a key. -/
def itemsOf (items : List ι) (k : κ) : List ι := items.filter fun i => S.key i = k

theorem mem_rowsOf {rows : List ρ} {k : κ} {r : ρ} :
    r ∈ S.rowsOf rows k ↔ r ∈ rows ∧ S.rowKey r = k := by
  simp [rowsOf]

theorem mem_itemsOf {items : List ι} {k : κ} {i : ι} :
    i ∈ S.itemsOf items k ↔ i ∈ items ∧ S.key i = k := by
  simp [itemsOf]

/-! ## All rows -/

/-- What becomes of an old row. -/
def settle (snapshot : List ρ) (items : List ι) (r : ρ) : ρ :=
  (items.filter fun i => (S.existing snapshot i).map S.id = some (S.id r)).foldl
    (fun r i => S.replace i r) r

omit [DecidableEq κ] in
theorem id_foldl_replace (items : List ι) (r : ρ) :
    S.id (items.foldl (fun r i => S.replace i r) r) = S.id r := by
  induction items generalizing r with
  | nil => rfl
  | cons i items ih => rw [List.foldl_cons, ih, S.id_replace]

@[simp] theorem id_settle (snapshot : List ρ) (items : List ι) (r : ρ) :
    S.id (S.settle snapshot items r) = S.id r :=
  S.id_foldl_replace _ r

@[simp] theorem settle_nil (snapshot : List ρ) (r : ρ) : S.settle snapshot [] r = r := rfl

theorem settle_concat_of_eq {snapshot : List ρ} {i : ι} {r : ρ}
    (h : (S.existing snapshot i).map S.id = some (S.id r))
    (items : List ι) : S.settle snapshot (items ++ [i]) r = S.replace i
    (S.settle snapshot items r) := by
  rw [settle, List.filter_append, List.filter_cons_of_pos (by simpa using h), List.foldl_append]
  rfl

theorem settle_concat_of_ne {snapshot : List ρ} {i : ι} {r : ρ}
    (h : (S.existing snapshot i).map S.id ≠ some (S.id r))
    (items : List ι) : S.settle snapshot (items ++ [i]) r = S.settle snapshot items r := by
  rw [settle, List.filter_append, List.filter_cons_of_neg (by simpa using h), List.filter_nil,
    List.append_nil]
  rfl

/-- An item and the row it was added as. -/
def Added (i : ι) (r : ρ) : Prop := r = S.make (S.id r) i

variable {S} in
omit [DecidableEq κ] in
theorem Added.rowKey {i : ι} {r : ρ} (h : S.Added i r) : S.rowKey r = S.key i :=
  (congrArg S.rowKey h).trans (S.rowKey_make _ i)

variable {S} in
omit [DecidableEq κ] in
theorem Added.content {i : ι} {r : ρ} (h : S.Added i r) : S.content r = S.given i :=
  (congrArg S.content h).trans (S.content_make _ i)

/-- **The rows after all items are saved**: the old ones, and a new one for each item whose key
    no old row has. -/
theorem saveAll_eq {rows : List ρ} (hids : (rows.map S.id).Nodup) (items : List ι) :
    ((S.saveAll rows rows items).map S.id).Nodup ∧
      ∃ new, S.saveAll rows rows items = rows.map (S.settle rows items) ++ new ∧
        List.Forall₂ S.Added (items.filter fun i => (S.existing rows i).isNone) new := by
  induction items using List.reverseRecOn with
  | nil =>
    refine ⟨hids, [], ?_, List.Forall₂.nil⟩
    rw [List.append_nil]
    exact (List.map_id rows).symm
  | append_singleton items i ih =>
    obtain ⟨hnodup, new, hrows, hnew⟩ := ih
    have hstep : S.saveAll rows rows (items ++ [i]) =
        S.save rows (S.saveAll rows rows items) i := by
      rw [saveAll, List.foldl_append]
      rfl
    rw [hstep, List.filter_append, List.filter_singleton]
    cases hexisting : S.existing rows i with
    | some e =>
      have hsettle : ∀ r, S.settle rows (items ++ [i]) r =
          if S.id (S.settle rows items r) = S.id e then S.replace i (S.settle rows items r)
            else S.settle rows items r := by
        intro r
        rw [id_settle]
        split_ifs with hid
        · exact S.settle_concat_of_eq (by rw [hexisting, hid]; rfl) items
        · refine S.settle_concat_of_ne ?_ items
          rw [hexisting]
          exact fun hsame => hid (Option.some.inj hsame).symm
      have hsave : S.save rows (S.saveAll rows rows items) i =
          (S.saveAll rows rows items).map fun r => if S.id r = S.id e then S.replace i r
            else r := by
        rw [save, hexisting]
      -- the rows that were added have other ids than the old ones
      have hother : ∀ r ∈ new, S.id r ≠ S.id e := by
        intro r hr hsame
        rw [hrows, List.map_append, List.nodup_append] at hnodup
        refine hnodup.2.2 (S.id e) ?_ (S.id r) (List.mem_map_of_mem hr) hsame.symm
        exact List.mem_map.mpr ⟨_, List.mem_map_of_mem (List.mem_of_find?_eq_some hexisting),
          S.id_settle _ _ e⟩
      refine ⟨?_, new, ?_, by simpa using hnew⟩
      · rw [hsave, List.map_map]
        refine (List.map_congr_left fun r _ => ?_) ▸ hnodup
        rw [Function.comp_apply]
        split_ifs
        · exact (S.id_replace i r).symm
        · rfl
      · rw [hsave, hrows, List.map_append, List.map_map]
        refine congrArg₂ _ (List.map_congr_left fun r _ => ?_) ?_
        · rw [hsettle r, Function.comp_apply]
        · refine (List.map_congr_left fun r hr => ?_).trans (List.map_id _)
          rw [if_neg (hother r hr), id_eq]
    | none =>
      have hsettle : ∀ r, S.settle rows (items ++ [i]) r = S.settle rows items r := by
        intro r
        exact S.settle_concat_of_ne (by simp [hexisting]) items
      have hsave : S.save rows (S.saveAll rows rows items) i =
          S.saveAll rows rows items ++
            [S.make (((S.saveAll rows rows items).map S.id).foldr max 0 + 1) i] := by
        rw [save, hexisting]
      refine ⟨?_, new ++ [S.make (((S.saveAll rows rows items).map S.id).foldr max 0 + 1) i], ?_,
        ?_⟩
      · rw [hsave, List.map_append, List.map_singleton, S.id_make, List.nodup_append]
        refine ⟨hnodup, List.nodup_singleton _, fun a ha b hb => ?_⟩
        have hlt := Relational.lt_nextKey ha
        have hb := List.mem_singleton.mp hb
        omega
      · rw [hsave, hrows, List.append_assoc]
        exact congrArg (· ++ _) (List.map_congr_left fun r _ => (hsettle r).symm)
      · refine List.rel_append hnew (List.Forall₂.cons ?_ List.Forall₂.nil)
        rw [Added, S.id_make]

/-! ## The rows of a key -/

section

variable {rows : List ρ} (hids : (rows.map S.id).Nodup) {items : List ι} {k : κ}

omit [DecidableEq κ] in
theorem rowKey_foldl_replace {r : ρ} (hr : S.rowKey r = k) (hitems : ∀ i ∈ items, S.key i = k) :
    S.rowKey (items.foldl (fun r i => S.replace i r) r) = k := by
  induction items generalizing r with
  | nil => exact hr
  | cons i items ih =>
    rw [List.foldl_cons]
    refine ih ?_ fun j hj => hitems j (List.mem_cons_of_mem i hj)
    rw [S.rowKey_replace]
    exact hitems i List.mem_cons_self

omit [DecidableEq κ] in
theorem content_foldl_replace (items : List ι) (r : ρ) :
    S.content (items.foldl (fun r i => S.replace i r) r) =
      items.getLast?.elim (S.content r) S.given := by
  induction items using List.reverseRecOn with
  | nil => rfl
  | append_singleton items i _ =>
    rw [List.foldl_append, List.getLast?_concat]
    exact S.content_replace i _

include hids in
theorem existing_iff {r : ρ} (hr : r ∈ rows) {i : ι} :
    (S.existing rows i).map S.id = some (S.id r) ↔ S.existing rows i = some r := by
  constructor
  · intro h
    obtain ⟨e, he, hid⟩ := Option.map_eq_some_iff.mp h
    rwa [← List.inj_on_of_nodup_map hids (List.mem_of_find?_eq_some he) hr hid]
  · intro h
    rw [h, Option.map_some]

/-- An item replaces the first row of its key. -/
theorem existing_eq (snapshot : List ρ) (i : ι) :
    S.existing snapshot i = (S.rowsOf snapshot (S.key i)).head? :=
  List.head?_filter.symm

theorem key_of_existing {snapshot : List ρ} {i : ι} {r : ρ} (h : S.existing snapshot i = some r) :
    S.rowKey r = S.key i := by
  simpa using List.find?_some h

theorem existing_isNone {snapshot : List ρ} {i : ι} :
    (S.existing snapshot i).isNone = true ↔ ∀ r ∈ snapshot, S.rowKey r ≠ S.key i := by
  simp [existing]

include hids in
theorem rowKey_settle {r : ρ} (hr : r ∈ rows) : S.rowKey (S.settle rows items r) = S.rowKey r := by
  refine S.rowKey_foldl_replace rfl fun i hi => ?_
  have hexisting := (S.existing_iff hids hr).mp (by simpa using (List.mem_filter.mp hi).2)
  exact (S.key_of_existing hexisting).symm

include hids in
/-- The first row of a key gets the content of the last item of the key. -/
theorem content_settle_first {e : ρ} (he : (S.rowsOf rows k).head? = some e) :
    S.content (S.settle rows items e) =
      (S.itemsOf items k).getLast?.elim (S.content e) S.given := by
  have hmem := S.mem_rowsOf.mp (List.mem_of_mem_head? he)
  have hitems : (items.filter fun i => (S.existing rows i).map S.id = some (S.id e)) =
      S.itemsOf items k := by
    refine List.filter_congr fun i _ => ?_
    rw [decide_eq_decide, S.existing_iff hids hmem.1, existing_eq]
    constructor
    · intro h
      have hkey := S.key_of_existing ((S.existing_eq rows i).trans h)
      exact hkey.symm.trans hmem.2
    · intro h
      rw [h, he]
  rw [settle, S.content_foldl_replace, hitems]

include hids in
/-- The other rows of a key stay. -/
theorem settle_other {r : ρ} (hr : r ∈ rows)
    (hother : (S.rowsOf rows (S.rowKey r)).head? ≠ some r) :
    S.settle rows items r = r := by
  have hitems : (items.filter fun i => (S.existing rows i).map S.id = some (S.id r)) = [] := by
    refine List.filter_eq_nil_iff.mpr fun i _ h => ?_
    have hexisting := (S.existing_iff hids hr).mp (by simpa using h)
    rw [S.key_of_existing hexisting, ← existing_eq] at hother
    exact hother hexisting
  rw [settle, hitems, List.foldl_nil]

include hids in
theorem rowsOf_saveAll (items : List ι) (k : κ) :
    ∃ new, S.rowsOf (S.saveAll rows rows items) k =
      (S.rowsOf rows k).map (S.settle rows items) ++ new ∧
      List.Forall₂ S.Added (S.itemsOf (items.filter fun i => (S.existing rows i).isNone) k)
        new := by
  obtain ⟨-, new, hrows, hnew⟩ := S.saveAll_eq hids items
  refine ⟨S.rowsOf new k, ?_, ?_⟩
  · rw [hrows, rowsOf, List.filter_append, List.filter_map]
    refine congrArg (fun old => old.map (S.settle rows items) ++ _)
      (List.filter_congr fun r hr => ?_)
    rw [Function.comp_apply, S.rowKey_settle hids hr]
  · refine List.rel_filter (fun i r hadded => ?_) hnew
    simp [hadded.rowKey]

include hids in
/-- A key that an old row has gets no new row. -/
theorem rowsOf_known (items : List ι) (hknown : ∃ r ∈ rows, S.rowKey r = k) :
    S.rowsOf (S.saveAll rows rows items) k = (S.rowsOf rows k).map (S.settle rows items) := by
  obtain ⟨new, hrows, hnew⟩ := S.rowsOf_saveAll hids items k
  have hnone : S.itemsOf (items.filter fun i => (S.existing rows i).isNone) k = [] := by
    refine List.eq_nil_iff_forall_not_mem.mpr fun i hi => ?_
    obtain ⟨hmem, rfl⟩ := S.mem_itemsOf.mp hi
    obtain ⟨r, hr, hkey⟩ := hknown
    exact S.existing_isNone.mp (List.mem_filter.mp hmem).2 r hr hkey
  rw [hnone, List.forall₂_nil_left_iff] at hnew
  rw [hrows, hnew, List.append_nil]

include hids in
/-- A key that no old row has gets a row for each of its items. -/
theorem rowsOf_unknown (items : List ι) (hunknown : ∀ r ∈ rows, S.rowKey r ≠ k) :
    List.Forall₂ S.Added (S.itemsOf items k) (S.rowsOf (S.saveAll rows rows items) k) := by
  obtain ⟨new, hrows, hnew⟩ := S.rowsOf_saveAll hids items k
  have hold : S.rowsOf rows k = [] :=
    List.filter_eq_nil_iff.mpr fun r hr => by simpa using hunknown r hr
  have hall : S.itemsOf (items.filter fun i => (S.existing rows i).isNone) k =
      S.itemsOf items k := by
    rw [itemsOf, List.filter_filter]
    refine List.filter_congr fun i _ => ?_
    by_cases hkey : S.key i = k
    · have hnone := S.existing_isNone.mpr (hkey ▸ hunknown)
      simp [hkey, hnone]
    · simp [hkey]
  rw [hrows, hold, ← hall]
  exact hnew

include hids in
/-- **One row for a key.** Where there was one at most, a key with items has one row with a given
    content iff it had one before or has one item, and the last item has that content. -/
theorem one_row_iff (hone : (S.rowsOf rows k).length ≤ 1) {last : ι}
    (hlast : (S.itemsOf items k).getLast? = some last)
    (w : ω) :
    (∃ r, S.rowsOf (S.saveAll rows rows items) k = [r] ∧ S.content r = w) ↔
      ((∃ r ∈ rows, S.rowKey r = k) ∨ (S.itemsOf items k).length = 1) ∧ S.given last = w := by
  by_cases hknown : ∃ r ∈ rows, S.rowKey r = k
  · obtain ⟨r, hr, hkey⟩ := hknown
    obtain ⟨e, he⟩ : ∃ e, S.rowsOf rows k = [e] := by
      refine List.length_eq_one_iff.mp (le_antisymm hone ?_)
      exact List.length_pos_of_mem (S.mem_rowsOf.mpr ⟨hr, hkey⟩)
    have hcontent : S.content (S.settle rows items e) = S.given last := by
      rw [S.content_settle_first hids (k := k) (by rw [he]; rfl), hlast]
      rfl
    rw [S.rowsOf_known hids items ⟨r, hr, hkey⟩, he, List.map_singleton]
    constructor
    · rintro ⟨r', hr', hw⟩
      obtain rfl := (List.cons.inj hr').1
      exact ⟨Or.inl ⟨r, hr, hkey⟩, hcontent.symm.trans hw⟩
    · rintro ⟨-, hw⟩
      exact ⟨_, rfl, hcontent.trans hw⟩
  · have hadded := S.rowsOf_unknown hids items (k := k) fun r hr hkey => hknown ⟨r, hr, hkey⟩
    constructor
    · rintro ⟨r, hr, hw⟩
      rw [hr] at hadded
      obtain ⟨i, _, hi, hnil, hitems⟩ := List.forall₂_cons_right_iff.mp hadded
      rw [List.forall₂_nil_right_iff] at hnil
      rw [hitems, hnil] at hlast ⊢
      obtain rfl := Option.some.inj hlast
      exact ⟨Or.inr rfl, hi.content.symm.trans hw⟩
    · rintro ⟨hitems, hw⟩
      obtain ⟨i, hi⟩ := List.length_eq_one_iff.mp (hitems.resolve_left hknown)
      rw [hi] at hlast hadded
      obtain rfl := Option.some.inj hlast
      obtain ⟨r, _, hr, hnil, hrows⟩ := List.forall₂_cons_left_iff.mp hadded
      rw [List.forall₂_nil_left_iff] at hnil
      exact ⟨r, by rw [hrows, hnil], hr.content.trans hw⟩

/-! ## Saving again -/

/-- The id and the content of a row. -/
def shown (r : ρ) : ℕ × ω := (S.id r, S.content r)

include hids in
/-- Items whose keys all have rows leave the ids and contents as they are iff the last item of a key
    has the content of the first row. -/
theorem saveAll_known_iff (hknown : ∀ i ∈ items, ∃ r ∈ rows, S.rowKey r = S.key i) :
    (S.saveAll rows rows items).map S.shown = rows.map S.shown ↔
      ∀ k e last, (S.rowsOf rows k).head? = some e → (S.itemsOf items k).getLast? = some last →
        S.given last = S.content e := by
  obtain ⟨-, new, hrows, hnew⟩ := S.saveAll_eq hids items
  have hnone : items.filter (fun i => (S.existing rows i).isNone) = [] := by
    refine List.filter_eq_nil_iff.mpr fun i hi h => ?_
    obtain ⟨r, hr, hkey⟩ := hknown i hi
    exact S.existing_isNone.mp h r hr hkey
  rw [hnone, List.forall₂_nil_left_iff] at hnew
  rw [hrows, hnew, List.append_nil, List.map_map, List.map_inj_left]
  constructor
  · intro h k e last he hlast
    have hsame := congrArg Prod.snd (h e (S.mem_rowsOf.mp (List.mem_of_mem_head? he)).1)
    rw [Function.comp_apply, shown, shown, S.content_settle_first hids he, hlast] at hsame
    exact hsame
  · intro h r hr
    rw [Function.comp_apply, shown, shown, S.id_settle]
    refine congrArg (Prod.mk (S.id r)) ?_
    by_cases hfirst : (S.rowsOf rows (S.rowKey r)).head? = some r
    · rw [S.content_settle_first hids hfirst]
      cases hlast : (S.itemsOf items (S.rowKey r)).getLast? with
      | none => rfl
      | some last => exact h _ r last hfirst hlast
    · rw [S.settle_other hids hr hfirst]

include hids in
/-- Every item has a row. -/
theorem has_row {i : ι} (hi : i ∈ items) :
    ∃ r ∈ S.saveAll rows rows items, S.rowKey r = S.key i := by
  by_cases hknown : ∃ r ∈ rows, S.rowKey r = S.key i
  · obtain ⟨r, hr, hkey⟩ := hknown
    have hrows := S.rowsOf_known hids items ⟨r, hr, hkey⟩
    have hmem := hrows ▸ List.mem_map_of_mem (S.mem_rowsOf.mpr ⟨hr, hkey⟩)
    exact ⟨_, S.mem_rowsOf.mp hmem⟩
  · have hadded := S.rowsOf_unknown hids items (k := S.key i) fun r hr hkey => hknown ⟨r, hr, hkey⟩
    have hpos := List.length_pos_of_mem (S.mem_itemsOf.mpr ⟨hi, rfl⟩)
    rw [hadded.length_eq] at hpos
    exact ⟨_, S.mem_rowsOf.mp (List.getElem_mem hpos)⟩

/-- The key and the content of an item. -/
def entry (i : ι) : κ × ω := (S.key i, S.given i)

theorem given_itemsOf (items : List ι) (k : κ) :
    (S.itemsOf items k).map S.given =
      ((items.map S.entry).filter fun e => e.1 = k).map Prod.snd := by
  rw [List.filter_map, List.map_map]
  rfl

include hids in
/-- **Saving again**, with rows read in the same way. Items that have the keys and contents of those
    saved before leave the ids and contents as they are iff the first and the last item of each key
    that was new have the same content. -/
theorem saveAll_again_iff (S' : Scheme ρ ι κ ω) (hid : S'.id = S.id)
    (hrowKey : S'.rowKey = S.rowKey)
    (hcontent : S'.content = S.content) {items' : List ι}
    (hsame : items'.map S'.entry = items.map S.entry) :
    (S'.saveAll (S.saveAll rows rows items) (S.saveAll rows rows items) items').map S'.shown =
        (S.saveAll rows rows items).map S'.shown ↔
      ∀ k first last, (S.itemsOf items k).head? = some first →
        (S.itemsOf items k).getLast? = some last →
        (∃ r ∈ rows, S.rowKey r = k) ∨ S.given first = S.given last := by
  have hlasts : ∀ k, (S'.itemsOf items' k).getLast?.map S'.given =
      (S.itemsOf items k).getLast?.map S.given := by
    intro k
    rw [← List.getLast?_map, ← List.getLast?_map, given_itemsOf, given_itemsOf, hsame]
  have hknown : ∀ i' ∈ items', ∃ r ∈ S.saveAll rows rows items, S'.rowKey r = S'.key i' := by
    intro i' hi'
    obtain ⟨i, hi, hentry⟩ := List.mem_map.mp (hsame ▸ List.mem_map_of_mem hi')
    rw [← show S.key i = S'.key i' from congrArg Prod.fst hentry, hrowKey]
    exact S.has_row hids hi
  have hids' : ((S.saveAll rows rows items).map S'.id).Nodup := hid ▸ (S.saveAll_eq hids items).1
  have hrowsOf : ∀ k, S'.rowsOf (S.saveAll rows rows items) k =
      S.rowsOf (S.saveAll rows rows items) k := by
    intro k
    rw [rowsOf, rowsOf, hrowKey]
  rw [S'.saveAll_known_iff hids' hknown, hcontent]
  simp only [hrowsOf]
  constructor
  · intro h k first last hfirst hlast
    refine or_iff_not_imp_left.mpr fun hnew => ?_
    have hadded := S.rowsOf_unknown hids items (k := k) fun r hr hkey => hnew ⟨r, hr, hkey⟩
    obtain ⟨rest, hitems⟩ := List.head?_eq_some_iff.mp hfirst
    rw [hitems] at hadded
    obtain ⟨e, es, he, -, hrows⟩ := List.forall₂_cons_left_iff.mp hadded
    obtain ⟨last', hlast', hgiven⟩ :=
      Option.map_eq_some_iff.mp ((hlasts k).trans (congrArg _ hlast))
    have hread := h k e last' (by rw [hrows]; rfl) hlast'
    exact he.content.symm.trans (hread.symm.trans hgiven)
  · intro h k e last' he hlast'
    obtain ⟨last, hlast, hgiven⟩ :=
      Option.map_eq_some_iff.mp ((hlasts k).symm.trans (congrArg _ hlast'))
    obtain ⟨first, hfirst⟩ : ∃ first, (S.itemsOf items k).head? = some first :=
      Option.isSome_iff_exists.mp (by simpa using List.ne_nil_of_mem (List.mem_of_getLast? hlast))
    by_cases hold : ∃ r ∈ rows, S.rowKey r = k
    · rw [S.rowsOf_known hids items hold, List.head?_map] at he
      obtain ⟨e₀, he₀, rfl⟩ := Option.map_eq_some_iff.mp he
      rw [S.content_settle_first hids he₀, hlast]
      exact hgiven.symm
    · have hadded := S.rowsOf_unknown hids items (k := k) fun r hr hkey => hold ⟨r, hr, hkey⟩
      obtain ⟨es, hrows⟩ := List.head?_eq_some_iff.mp he
      obtain ⟨rest, hitems⟩ := List.head?_eq_some_iff.mp hfirst
      rw [hrows, hitems] at hadded
      have hfirst' := (List.forall₂_cons.mp hadded).1
      have hequal := (h k first last hfirst hlast).resolve_left hold
      exact hgiven.symm.trans (hequal.symm.trans hfirst'.content.symm)

end

end Scheme

end ProjectEvaluation.Upsert
