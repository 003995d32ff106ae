import Mathlib.Data.Set.Function
import Mathlib.Data.Set.Insert
import Mathlib.Tactic

/-!
# Undoing changes of linked nodes

A set of nodes with ids, in which a node may have another one as its parent. Nodes are added,
changed and removed, and the changes are undone in the opposite order. A node that is put back
may get a new id, so what is restored is the set up to a renaming of ids.

Results:
* `SameUpTo.undo_add`, `SameUpTo.undo_update`, `SameUpTo.undo_remove`: undoing one change.
-/

namespace ProjectEvaluation.UndoLog

/-- A node, with the id of its parent. -/
@[ext] structure Node (α : Type) where
  id : ℕ
  parent : Option ℕ
  data : α

variable {α : Type}

/-- A node with other ids. -/
def Node.rename (ρ : ℕ → ℕ) (a : Node α) : Node α := ⟨ρ a.id, a.parent.map ρ, a.data⟩

/-- A node after the node `x` was removed. -/
def Node.unlink (x : ℕ) (a : Node α) : Node α :=
  ⟨a.id, if a.parent = some x then none else a.parent, a.data⟩

theorem Node.unlink_of_ne {x : ℕ} {a : Node α} (h : a.parent ≠ some x) : a.unlink x = a := by
  rw [Node.unlink, if_neg h]

/-- The ids of some nodes. -/
def ids (A : Set (Node α)) : Set ℕ := Set.image Node.id A

theorem mem_ids {A : Set (Node α)} {a : Node α} (h : a ∈ A) : a.id ∈ ids A := ⟨a, h, rfl⟩

/-- Ids are unique, and parents are nodes. -/
structure Linked (A : Set (Node α)) : Prop where
  unique : ∀ a ∈ A, ∀ b ∈ A, a.id = b.id → a = b
  closed : ∀ a ∈ A, ∀ p ∈ a.parent, p ∈ ids A

/-! ## Changes -/

/-- The nodes after one was removed. -/
def remove (x : ℕ) (A : Set (Node α)) : Set (Node α) := {y | ∃ a ∈ A, a.id ≠ x ∧ a.unlink x = y}

/-- The nodes after the one with the id of `n` became `n`. -/
def replace (n : Node α) (A : Set (Node α)) : Set (Node α) := {y | y = n ∨ y ∈ A ∧ y.id ≠ n.id}

/-- Without the parent of another node, the others stay as they are. -/
theorem remove_of_leaf {x : ℕ} {A : Set (Node α)} (h : ∀ a ∈ A, a.parent ≠ some x) :
    remove x A = {y | y ∈ A ∧ y.id ≠ x} := by
  ext y
  constructor
  · rintro ⟨a, ha, hne, rfl⟩
    rw [Node.unlink_of_ne (h a ha)]
    exact ⟨ha, hne⟩
  · rintro ⟨hy, hne⟩
    exact ⟨y, hy, hne, Node.unlink_of_ne (h y hy)⟩

theorem Linked.add {A : Set (Node α)} (h : Linked A) {n : Node α} (hid : n.id ∉ ids A)
    (hparent : ∀ p ∈ n.parent, p ∈ ids A) : Linked (insert n A) := by
  have hsub : ids A ⊆ ids (insert n A) := Set.image_mono (Set.subset_insert n A)
  constructor
  · rintro a (rfl | ha) b (rfl | hb) hab
    · rfl
    · exact absurd (hab ▸ mem_ids hb) hid
    · exact absurd (hab ▸ mem_ids ha) hid
    · exact h.unique a ha b hb hab
  · rintro a (rfl | ha) p hp
    · exact hsub (hparent p hp)
    · exact hsub (h.closed a ha p hp)

theorem ids_replace {A : Set (Node α)} {n : Node α} (hid : n.id ∈ ids A) :
    ids (replace n A) = ids A := by
  ext m
  constructor
  · rintro ⟨y, rfl | ⟨hy, -⟩, rfl⟩
    · exact hid
    · exact mem_ids hy
  · rintro ⟨y, hy, rfl⟩
    by_cases hne : y.id = n.id
    · exact ⟨n, Or.inl rfl, hne.symm⟩
    · exact ⟨y, Or.inr ⟨hy, hne⟩, rfl⟩

theorem Linked.update {A : Set (Node α)} (h : Linked A) {n : Node α} (hid : n.id ∈ ids A)
    (hparent : ∀ p ∈ n.parent, p ∈ ids A) : Linked (replace n A) := by
  constructor
  · rintro a (rfl | ⟨ha, hane⟩) b (rfl | ⟨hb, hbne⟩) hab
    · rfl
    · exact absurd hab.symm hbne
    · exact absurd hab hane
    · exact h.unique a ha b hb hab
  · rw [ids_replace hid]
    rintro a (rfl | ⟨ha, -⟩) p hp
    · exact hparent p hp
    · exact h.closed a ha p hp

theorem Linked.remove {A : Set (Node α)} (h : Linked A) (x : ℕ) : Linked (remove x A) := by
  constructor
  · rintro _ ⟨a, ha, -, rfl⟩ _ ⟨b, hb, -, rfl⟩ hab
    rw [h.unique a ha b hb hab]
  · rintro _ ⟨a, ha, -, rfl⟩ p hp
    have hkept : p ∈ (if a.parent = some x then none else a.parent) := hp
    split_ifs at hkept with hx
    · cases hkept
    · obtain ⟨b, hb, rfl⟩ := h.closed a ha p hkept
      have hne : b.id ≠ x := by
        rintro rfl
        exact hx hkept
      exact ⟨b.unlink x, ⟨b, hb, hne, rfl⟩, rfl⟩

/-! ## Up to a renaming -/

/-- The nodes `B` are the nodes `A` with other ids. -/
structure SameUpTo (ρ : ℕ → ℕ) (A B : Set (Node α)) : Prop where
  injOn : Set.InjOn ρ (ids A)
  image : B = Set.image (Node.rename ρ) A

theorem SameUpTo.refl (A : Set (Node α)) : SameUpTo id A A where
  injOn := Function.injective_id.injOn
  image := by
    have hrename : Node.rename (α := α) id = id := by
      funext a
      rw [Node.rename, Option.map_id]
      rfl
    rw [hrename, Set.image_id]

/-- **Undoing an addition** removes the node. -/
theorem SameUpTo.undo_add {ρ : ℕ → ℕ} {A B : Set (Node α)} {n : Node α}
    (h : SameUpTo ρ (insert n A) B)
    (hA : Linked A) (hid : n.id ∉ ids A) (hfix : ρ n.id = n.id) : SameUpTo ρ A (remove n.id B) := by
  have hsub : ids A ⊆ ids (insert n A) := Set.image_mono (Set.subset_insert n A)
  have hn : n.id ∈ ids (insert n A) := mem_ids (Set.mem_insert n A)
  -- no other node is renamed to the id of the one that goes
  have hne : ∀ m ∈ ids A, ρ m ≠ n.id := by
    intro m hm heq
    have hmn : m = n.id := h.injOn (hsub hm) hn (heq.trans hfix.symm)
    exact hid (hmn ▸ hm)
  have hunlink : ∀ a ∈ A, (a.rename ρ).unlink n.id = a.rename ρ := by
    intro a ha
    refine Node.unlink_of_ne fun hparent => ?_
    obtain ⟨p, hp, heq⟩ := Option.map_eq_some_iff.mp hparent
    exact hne p (hA.closed a ha p hp) heq
  refine ⟨h.injOn.mono hsub, ?_⟩
  rw [h.image]
  ext y
  constructor
  · rintro ⟨_, ⟨a, rfl | ha, rfl⟩, hne', rfl⟩
    · exact absurd hfix hne'
    · exact ⟨a, ha, (hunlink a ha).symm⟩
  · rintro ⟨a, ha, rfl⟩
    exact ⟨a.rename ρ, ⟨a, Set.mem_insert_of_mem n ha, rfl⟩, hne a.id (mem_ids ha), hunlink a ha⟩

/-- **Undoing an update** brings the old node back. -/
theorem SameUpTo.undo_update {ρ : ℕ → ℕ} {A B : Set (Node α)} {a n : Node α}
    (h : SameUpTo ρ (replace n A) B)
    (hA : Linked A) (ha : a ∈ A) (hid : n.id = a.id) (hfix : ρ a.id = a.id)
    (hparent : a.parent.map ρ = a.parent) :
    SameUpTo ρ A (replace a B) := by
  have hids : ids (replace n A) = ids A := ids_replace (hid ▸ mem_ids ha)
  have hinj : Set.InjOn ρ (ids A) := hids ▸ h.injOn
  have hrename : a.rename ρ = a := Node.ext hfix hparent rfl
  refine ⟨hinj, ?_⟩
  rw [h.image]
  ext y
  constructor
  · rintro (rfl | ⟨⟨b, rfl | ⟨hb, -⟩, rfl⟩, hne⟩)
    · exact ⟨y, ha, hrename⟩
    · exact absurd ((congrArg ρ hid).trans hfix) hne
    · exact ⟨b, hb, rfl⟩
  · rintro ⟨b, hb, rfl⟩
    by_cases hba : b.id = a.id
    · rw [hA.unique b hb a ha hba, hrename]
      exact Or.inl rfl
    · refine Or.inr ⟨⟨b, Or.inr ⟨hb, hid ▸ hba⟩, rfl⟩, fun heq => hba ?_⟩
      exact hinj (mem_ids hb) (mem_ids ha) (heq.trans hfix.symm)

/-- **Undoing a removal** puts the node back, under an id that is not in use. No node lost its
    parent with it. -/
theorem SameUpTo.undo_remove {ρ : ℕ → ℕ} {A B : Set (Node α)} {a : Node α}
    (h : SameUpTo ρ (remove a.id A) B)
    (hA : Linked A) (ha : a ∈ A) (hleaf : ∀ b ∈ A, b.parent ≠ some a.id)
    (hparent : a.parent.map ρ = a.parent)
    {n : ℕ} (hn : n ∉ ids B) : SameUpTo (Function.update ρ a.id n) A
    (insert ⟨n, a.parent, a.data⟩ B) := by
  rw [remove_of_leaf hleaf] at h
  have hother : ∀ m, m ≠ a.id → Function.update ρ a.id n m = ρ m :=
    fun m hm => Function.update_of_ne hm _ _
  have hkept : ∀ m ∈ ids A, m ≠ a.id → m ∈ ids {y | y ∈ A ∧ y.id ≠ a.id} := by
    rintro _ ⟨b, hb, rfl⟩ hne
    exact ⟨b, ⟨hb, hne⟩, rfl⟩
  have hfresh : ∀ m ∈ ids A, m ≠ a.id → ρ m ≠ n := by
    intro m hm hne heq
    obtain ⟨b, hb, rfl⟩ := hkept m hm hne
    refine hn ⟨b.rename ρ, ?_, heq⟩
    rw [h.image]
    exact ⟨b, hb, rfl⟩
  have hothers : ∀ b ∈ A, b.id ≠ a.id → b.rename (Function.update ρ a.id n) = b.rename ρ := by
    intro b hb hne
    refine Node.ext (hother b.id hne) (Option.map_congr fun p hp => hother p fun hpa => ?_) rfl
    exact hleaf b hb (hpa ▸ hp)
  have hself : a.rename (Function.update ρ a.id n) = ⟨n, a.parent, a.data⟩ := by
    refine Node.ext (Function.update_self ..) ?_ rfl
    rw [← hparent]
    exact Option.map_congr fun p hp => hother p fun hpa => hleaf a ha (hpa ▸ hp)
  constructor
  · intro x hx y hy hxy
    by_cases hxa : x = a.id
    · by_cases hya : y = a.id
      · rw [hxa, hya]
      · rw [hxa, Function.update_self, hother y hya] at hxy
        exact absurd hxy.symm (hfresh y hy hya)
    · by_cases hya : y = a.id
      · rw [hya, Function.update_self, hother x hxa] at hxy
        exact absurd hxy (hfresh x hx hxa)
      · rw [hother x hxa, hother y hya] at hxy
        exact h.injOn (hkept x hx hxa) (hkept y hy hya) hxy
  · rw [h.image]
    ext y
    constructor
    · rintro (rfl | ⟨b, ⟨hb, hne⟩, rfl⟩)
      · exact ⟨a, ha, hself⟩
      · exact ⟨b, hb, hothers b hb hne⟩
    · rintro ⟨b, hb, rfl⟩
      by_cases hba : b.id = a.id
      · rw [hA.unique b hb a ha hba, hself]
        exact Or.inl rfl
      · rw [hothers b hb hba]
        exact Or.inr ⟨b, ⟨hb, hba⟩, rfl⟩

end ProjectEvaluation.UndoLog
