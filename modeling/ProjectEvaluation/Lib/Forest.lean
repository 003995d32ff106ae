import Mathlib.Data.List.Nodup
import Mathlib.Data.List.Perm.Subperm
import Mathlib.Logic.Relation
import Mathlib.Tactic

/-!
# Forests read off a parent relation

A list of nodes, some of them roots, and a relation between parents and
children. The forest is built from the roots downwards, with fuel.

Results:
* `mem_of_build`, `nodup_of_build`: a tree has the nodes below its root, each once.
* `forest_spec`: the forest is always built, and has each grounded node once.
* `unfolds_of_build`, `build_of_le`: in a tree every node has its children below it, and more
  fuel builds the same tree.
* `not_grounded_of_cycle`: no node of a cycle is grounded.
* `Grounded.mono`, `Grounded.reparent`, `Grounded.prune`: what keeps nodes
  grounded.
* `Grounded.simulate`: grounded nodes of forests that correspond.
* `forall_way_iff`, `Unfolds.locally_map_iff`: conditions on the ways and on the children in a tree
  are conditions on its nodes.
-/

namespace ProjectEvaluation.Forest

/-! ## Trees -/

/-- A tree with values at its nodes. -/
inductive RoseTree (α : Type)
  | node (value : α) (children : List (RoseTree α))

variable {α β : Type}

mutual

/-- The values of a tree, parents before their children. -/
def RoseTree.nodes : RoseTree α → List α
  | .node a ts => a :: RoseTree.nodesAll ts

/-- The values of a list of trees. -/
def RoseTree.nodesAll : List (RoseTree α) → List α
  | [] => []
  | t :: ts => t.nodes ++ RoseTree.nodesAll ts

end

mutual

/-- Compute a value for each node from those of its children. -/
def RoseTree.fold (f : α → List β → β) : RoseTree α → β
  | .node a ts => f a (RoseTree.foldAll f ts)

/-- The values of a list of trees. -/
def RoseTree.foldAll (f : α → List β → β) : List (RoseTree α) → List β
  | [] => []
  | t :: ts => t.fold f :: RoseTree.foldAll f ts

end

theorem RoseTree.nodesAll_eq (ts : List (RoseTree α)) :
    RoseTree.nodesAll ts = ts.flatMap RoseTree.nodes := by
  induction ts with
  | nil => rfl
  | cons t ts ih => rw [RoseTree.nodesAll, ih, List.flatMap_cons]

theorem RoseTree.foldAll_eq (f : α → List β → β) (ts : List (RoseTree α)) :
    RoseTree.foldAll f ts = ts.map (RoseTree.fold f) := by
  induction ts with
  | nil => rfl
  | cons t ts ih => rw [RoseTree.foldAll, ih, List.map_cons]

/-- The value at the root of a tree. -/
def RoseTree.top : RoseTree α → α
  | .node a _ => a

/-- A tree with other values. -/
def RoseTree.map (g : α → β) : RoseTree α → RoseTree β := RoseTree.fold fun a ts => .node (g a) ts

mutual

theorem RoseTree.fold_map {γ : Type} (g : α → β) (f : β → List γ → γ) :
    ∀ t : RoseTree α, (t.map g).fold f = t.fold fun a => f (g a)
  | .node a ts => by
    rw [RoseTree.map, RoseTree.fold, RoseTree.fold, RoseTree.fold]
    exact congrArg _ (RoseTree.foldAll_map g f ts)

theorem RoseTree.foldAll_map {γ : Type} (g : α → β) (f : β → List γ → γ) :
    ∀ ts : List (RoseTree α),
      RoseTree.foldAll f (RoseTree.foldAll (fun a ts => .node (g a) ts) ts) =
      RoseTree.foldAll (fun a => f (g a)) ts
  | [] => rfl
  | t :: ts => by
    have hfirst := RoseTree.fold_map g f t
    rw [RoseTree.map] at hfirst
    rw [RoseTree.foldAll, RoseTree.foldAll, RoseTree.foldAll, hfirst, RoseTree.foldAll_map g f ts]

end

mutual

theorem RoseTree.nodes_map (g : α → β) : ∀ t : RoseTree α, (t.map g).nodes = t.nodes.map g
  | .node a ts => by
    rw [RoseTree.map, RoseTree.fold, RoseTree.nodes, RoseTree.nodes, List.map_cons]
    exact congrArg _ (RoseTree.nodesAll_map g ts)

theorem RoseTree.nodesAll_map (g : α → β) :
    ∀ ts : List (RoseTree α), RoseTree.nodesAll (RoseTree.foldAll (fun a ts => .node (g a) ts) ts) =
      (RoseTree.nodesAll ts).map g
  | [] => rfl
  | t :: ts => by
    have hfirst := RoseTree.nodes_map g t
    rw [RoseTree.map] at hfirst
    rw [RoseTree.foldAll, RoseTree.nodesAll, RoseTree.nodesAll, List.map_append, hfirst,
      RoseTree.nodesAll_map g ts]

end

/-! ## Building -/

section Building

variable (nodes : List α) (root : α → Bool) (child : α → α → Bool)

/-- Both ends are nodes, and the second is a child of the first. -/
def Edge (p a : α) : Prop := p ∈ nodes ∧ a ∈ nodes ∧ child p a = true

/-- A node is below another, or the same. -/
abbrev Descends : α → α → Prop := Relation.ReflTransGen (Edge nodes child)

/-- A node reached from a root in a number of steps. -/
inductive Depth : ℕ → α → Prop
  | root {a : α} : a ∈ nodes → root a = true → Depth 0 a
  | child {d : ℕ} {p a : α} : Depth d p → Edge nodes child p a → Depth (d + 1) a

/-- A node reached from a root. -/
def Grounded (a : α) : Prop := ∃ d, Depth nodes root child d a

/-- A node has one parent at most, and a root has none. -/
structure OneParent : Prop where
  unique : ∀ {p q a}, Edge nodes child p a → Edge nodes child q a → p = q
  root : ∀ {p a}, Edge nodes child p a → root a = false

/-- The tree below a node; `none` when the fuel runs out. -/
def build : ℕ → α → Option (RoseTree α)
  | 0, _ => none
  | n + 1, a => ((nodes.filter (child a)).mapM (build n)).map (.node a)

/-- The trees below the roots. -/
def forest : Option (List (RoseTree α)) := (nodes.filter root).mapM (build nodes child nodes.length)

variable {nodes root child}

theorem mem_children {p a : α} (hp : p ∈ nodes) :
    a ∈ nodes.filter (child p) ↔ Edge nodes child p a := by
  rw [List.mem_filter]
  exact ⟨fun h => ⟨hp, h⟩, fun h => h.2⟩

/-! ## Depth -/

theorem Depth.mem {d : ℕ} {a : α} (h : Depth nodes root child d a) : a ∈ nodes := by
  cases h with
  | root ha _ => exact ha
  | child _ he => exact he.2.1

/-- A node is at one depth only. -/
theorem Depth.unique (hp : OneParent nodes root child) {d e : ℕ} {a : α}
    (h : Depth nodes root child d a)
    (h' : Depth nodes root child e a) : d = e := by
  induction h generalizing e with
  | root ha hroot =>
    cases h' with
    | root _ _ => rfl
    | child _ he => rw [hp.root he] at hroot; cases hroot
  | child _ he ih =>
    cases h' with
    | root _ hroot => rw [hp.root he] at hroot; cases hroot
    | child hd' he' =>
      obtain rfl := hp.unique he he'
      exact congrArg (· + 1) (ih hd')

theorem Depth.descends {d : ℕ} {a b : α} (h : Depth nodes root child d a)
    (hab : Descends nodes child a b) :
    ∃ e, d ≤ e ∧ Depth nodes root child e b := by
  induction hab with
  | refl => exact ⟨d, le_refl d, h⟩
  | tail _ he ih =>
    obtain ⟨e, hle, hd⟩ := ih
    exact ⟨e + 1, by omega, hd.child he⟩

/-- **The nodes of a cycle are not grounded.** -/
theorem not_grounded_of_cycle (hp : OneParent nodes root child) {a b : α}
    (hab : Descends nodes child a b)
    (hba : Edge nodes child b a) : ¬ Grounded nodes root child a := by
  rintro ⟨d, hd⟩
  obtain ⟨e, hle, he⟩ := hd.descends hab
  have heq : d = e + 1 := hd.unique hp (he.child hba)
  omega

/-- Two nodes of one depth that have a node below both are the same. -/
theorem Depth.eq_of_descends (hp : OneParent nodes root child) {d : ℕ} {a b x : α}
    (ha : Depth nodes root child d a) (hb : Depth nodes root child d b)
    (hax : Descends nodes child a x)
    (hbx : Descends nodes child b x) : a = b := by
  -- a node that is also strictly below one of its depth would be deeper than itself
  have hstrict : ∀ {a b y : α}, Depth nodes root child d a → Depth nodes root child d b →
      Descends nodes child a y → ¬ Edge nodes child y b := by
    intro a b y ha hb hay hyb
    obtain ⟨e, hle, hy⟩ := ha.descends hay
    have heq : d = e + 1 := hb.unique hp (hy.child hyb)
    omega
  induction hax with
  | refl =>
    cases hbx with
    | refl => rfl
    | tail hby hya => exact absurd hya (hstrict hb ha hby)
  | tail hay hyx ih =>
    cases hbx with
    | refl => exact absurd hyx (hstrict ha hb hay)
    | tail hbz hzx =>
      obtain rfl := hp.unique hyx hzx
      exact ih hbz

/-- A node lies on a path of distinct nodes from a root. -/
theorem Depth.path (hp : OneParent nodes root child) {d : ℕ} {a : α}
    (h : Depth nodes root child d a) :
    ∃ path : List α, path.length = d + 1 ∧ path.Nodup ∧ path ⊆ nodes ∧
      ∀ b ∈ path, ∃ e ≤ d, Depth nodes root child e b := by
  induction h with
  | @root a ha hroot =>
    refine ⟨[a], rfl, List.nodup_singleton a, by simpa using ha, fun b hb => ?_⟩
    rw [List.mem_singleton.mp hb]
    exact ⟨0, le_refl 0, .root ha hroot⟩
  | @child d p a hd he ih =>
    obtain ⟨path, hlength, hnodup, hsub, hdepth⟩ := ih
    refine ⟨a :: path, by rw [List.length_cons, hlength],
      List.nodup_cons.mpr ⟨fun ha => ?_, hnodup⟩, List.cons_subset.mpr ⟨he.2.1, hsub⟩,
      fun b hb => ?_⟩
    · obtain ⟨e, hle, hda⟩ := hdepth a ha
      have heq : e = d + 1 := hda.unique hp (hd.child he)
      omega
    · rcases List.mem_cons.mp hb with rfl | hb
      · exact ⟨d + 1, le_refl _, hd.child he⟩
      · obtain ⟨e, hle, hdb⟩ := hdepth b hb
        exact ⟨e, by omega, hdb⟩

/-- No node is deeper than there are nodes. -/
theorem Depth.lt_length (hp : OneParent nodes root child) {d : ℕ} {a : α}
    (h : Depth nodes root child d a) : d < nodes.length := by
  obtain ⟨path, hlength, hnodup, hsub, -⟩ := h.path hp
  have hle : path.length ≤ nodes.length := (hnodup.subperm hsub).length_le
  omega

theorem grounded_of_descends {r a : α} (hr : r ∈ nodes) (hroot : root r = true)
    (h : Descends nodes child r a) : Grounded nodes root child a := by
  obtain ⟨e, -, he⟩ := (Depth.root hr hroot).descends h
  exact ⟨e, he⟩

theorem Grounded.from_root {a : α} (h : Grounded nodes root child a) :
    ∃ r ∈ nodes, root r = true ∧ Descends nodes child r a := by
  obtain ⟨d, h⟩ := h
  induction h with
  | @root a ha hroot => exact ⟨a, ha, hroot, .refl⟩
  | child _ he ih =>
    obtain ⟨r, hr, hroot, hd⟩ := ih
    exact ⟨r, hr, hroot, hd.tail he⟩

/-! ## The built forest -/

/-- The nodes of the tree below a node. -/
def treeNodes (nodes : List α) (child : α → α → Bool) (n : ℕ) (a : α) : List α :=
  (build nodes child n a).elim [] RoseTree.nodes

/-- A list of trees has the nodes of its trees, in order. -/
theorem nodes_of_mapM {n : ℕ} {as : List α} {ts : List (RoseTree α)}
    (h : as.mapM (build nodes child n) = some ts) :
    ts.flatMap RoseTree.nodes = as.flatMap (treeNodes nodes child n) := by
  induction as generalizing ts with
  | nil => rw [List.mapM_nil] at h; cases h; rfl
  | cons a as ih =>
    rw [List.mapM_cons] at h
    obtain ⟨t, ht, h⟩ := Option.bind_eq_some_iff.mp h
    obtain ⟨rest, hrest, h⟩ := Option.bind_eq_some_iff.mp h
    cases h
    rw [List.flatMap_cons, List.flatMap_cons, ih hrest, treeNodes, ht]
    rfl

theorem isSome_of_mapM {n : ℕ} {as : List α} (h : ∀ a ∈ as, (build nodes child n a).isSome) :
    ∃ ts, as.mapM (build nodes child n) = some ts := by
  induction as with
  | nil => exact ⟨[], rfl⟩
  | cons a as ih =>
    obtain ⟨t, ht⟩ := Option.isSome_iff_exists.mp (h a (List.mem_cons_self ..))
    obtain ⟨ts, hts⟩ := ih fun b hb => h b (List.mem_cons_of_mem _ hb)
    exact ⟨t :: ts, by rw [List.mapM_cons, ht, hts]; rfl⟩

theorem build_mapM {n : ℕ} {as : List α} {ts : List (RoseTree α)}
    (h : as.mapM (build nodes child n) = some ts) :
    ∀ a ∈ as, ∃ t, build nodes child n a = some t := by
  induction as generalizing ts with
  | nil => exact fun a ha => nomatch ha
  | cons b as ih =>
    rw [List.mapM_cons] at h
    obtain ⟨t, ht, h⟩ := Option.bind_eq_some_iff.mp h
    obtain ⟨rest, hrest, -⟩ := Option.bind_eq_some_iff.mp h
    intro a ha
    rcases List.mem_cons.mp ha with rfl | ha
    · exact ⟨t, ht⟩
    · exact ih hrest a ha

/-- A tree and the trees of its children. -/
theorem build_succ {n : ℕ} {a : α} {t : RoseTree α} (h : build nodes child (n + 1) a = some t) :
    ∃ ts, (nodes.filter (child a)).mapM (build nodes child n) = some ts ∧
      t.nodes = a :: (nodes.filter (child a)).flatMap (treeNodes nodes child n) := by
  rw [build] at h
  obtain ⟨ts, hts, rfl⟩ := Option.map_eq_some_iff.mp h
  exact ⟨ts, hts, by rw [RoseTree.nodes, RoseTree.nodesAll_eq, nodes_of_mapM hts]⟩

/-- With enough fuel the tree below a grounded node is built. -/
theorem build_isSome (hp : OneParent nodes root child) {n d : ℕ} {a : α}
    (ha : Depth nodes root child d a) (hfuel : nodes.length ≤ d + n) :
    (build nodes child n a).isSome := by
  induction n generalizing d a with
  | zero =>
    have hlt : d < nodes.length := ha.lt_length hp
    omega
  | succ n ih =>
    obtain ⟨ts, hts⟩ : ∃ ts, (nodes.filter (child a)).mapM (build nodes child n) = some ts :=
      isSome_of_mapM fun b hb => ih (ha.child ((mem_children ha.mem).mp hb)) (by omega)
    rw [build, hts]
    rfl

/-- **A tree has the nodes below its root.** -/
theorem mem_of_build {n : ℕ} {a : α} {t : RoseTree α} (ha : a ∈ nodes)
    (h : build nodes child n a = some t)
    (x : α) : x ∈ t.nodes ↔ Descends nodes child a x := by
  induction n generalizing a t with
  | zero => cases h
  | succ n ih =>
    obtain ⟨ts, hts, hnodes⟩ := build_succ h
    show x ∈ t.nodes ↔ Relation.ReflTransGen (Edge nodes child) a x
    rw [hnodes, List.mem_cons, List.mem_flatMap, Relation.ReflTransGen.cases_head_iff]
    refine or_congr eq_comm (exists_congr fun b => ?_)
    rw [mem_children ha]
    refine and_congr_right fun hab => ?_
    obtain ⟨t', ht'⟩ := build_mapM hts b ((mem_children ha).mpr hab)
    rw [treeNodes, ht']
    exact ih hab.2.1 ht'

/-- Trees below different nodes of one depth have no node in common. -/
theorem nodup_treeNodes (hp : OneParent nodes root child) {n d : ℕ} {as : List α}
    {ts : List (RoseTree α)}
    (has : as.Nodup) (hdepth : ∀ a ∈ as, Depth nodes root child d a)
    (hts : as.mapM (build nodes child n) = some ts)
    (hnodup : ∀ a ∈ as, ∀ t, build nodes child n a = some t → t.nodes.Nodup) :
    (as.flatMap (treeNodes nodes child n)).Nodup := by
  have hmem : ∀ {a x}, a ∈ as → x ∈ treeNodes nodes child n a → Descends nodes child a x := by
    intro a x ha hx
    obtain ⟨t, ht⟩ := build_mapM hts a ha
    rw [treeNodes, ht] at hx
    exact (mem_of_build (hdepth a ha).mem ht x).mp hx
  refine List.nodup_flatMap.mpr ⟨fun a ha => ?_, ?_⟩
  · obtain ⟨t, ht⟩ := build_mapM hts a ha
    rw [treeNodes, ht]
    exact hnodup a ha t ht
  · refine List.Pairwise.imp_of_mem ?_ has
    intro a b ha hb hne x hxa hxb
    exact hne ((hdepth a ha).eq_of_descends hp (hdepth b hb) (hmem ha hxa) (hmem hb hxb))

/-- **A tree has each of its nodes once.** -/
theorem nodup_of_build (hnodes : nodes.Nodup) (hp : OneParent nodes root child) {n d : ℕ} {a : α}
    {t : RoseTree α} (ha : Depth nodes root child d a) (h : build nodes child n a = some t) :
    t.nodes.Nodup := by
  induction n generalizing d a t with
  | zero => cases h
  | succ n ih =>
    obtain ⟨ts, hts, hchildren⟩ := build_succ h
    have hdepth : ∀ b ∈ nodes.filter (child a), Depth nodes root child (d + 1) b :=
      fun b hb => ha.child ((mem_children ha.mem).mp hb)
    rw [hchildren, List.nodup_cons]
    refine ⟨fun hmem => ?_, nodup_treeNodes hp (hnodes.filter _) hdepth hts fun b hb t ht =>
      ih (hdepth b hb) ht⟩
    -- a node below a child of `a` is deeper than `a`
    obtain ⟨b, hb, hab⟩ := List.mem_flatMap.mp hmem
    obtain ⟨t', ht'⟩ := build_mapM hts b hb
    rw [treeNodes, ht'] at hab
    obtain ⟨e, hle, he⟩ := (hdepth b hb).descends ((mem_of_build (hdepth b hb).mem ht' a).mp hab)
    have heq : d = e := ha.unique hp he
    omega

/-- **The forest** is built, and has each grounded node once. -/
theorem forest_spec (hnodes : nodes.Nodup) (hp : OneParent nodes root child) :
    ∃ ts, forest nodes root child = some ts ∧ (ts.flatMap RoseTree.nodes).Nodup ∧
      ∀ a, a ∈ ts.flatMap RoseTree.nodes ↔ Grounded nodes root child a := by
  have hroots : ∀ r ∈ nodes.filter root, Depth nodes root child 0 r := fun r hr =>
    .root (List.mem_filter.mp hr).1 (List.mem_filter.mp hr).2
  obtain ⟨ts, hts⟩ : ∃ ts, forest nodes root child = some ts :=
    isSome_of_mapM fun r hr => build_isSome hp (hroots r hr) (Nat.le_of_eq (Nat.zero_add _).symm)
  refine ⟨ts, hts, ?_, fun a => ?_⟩
  · rw [nodes_of_mapM hts]
    exact nodup_treeNodes hp (hnodes.filter _) hroots hts fun r hr t ht =>
      nodup_of_build hnodes hp (hroots r hr) ht
  · rw [nodes_of_mapM hts, List.mem_flatMap]
    constructor
    · rintro ⟨r, hr, ha⟩
      obtain ⟨t, ht⟩ := build_mapM hts r hr
      rw [treeNodes, ht] at ha
      obtain ⟨hmem, hroot⟩ := List.mem_filter.mp hr
      exact grounded_of_descends hmem hroot ((mem_of_build hmem ht a).mp ha)
    · intro ha
      obtain ⟨r, hmem, hroot, hd⟩ := ha.from_root
      have hr : r ∈ nodes.filter root := List.mem_filter.mpr ⟨hmem, hroot⟩
      obtain ⟨t, ht⟩ := build_mapM hts r hr
      refine ⟨r, hr, ?_⟩
      rw [treeNodes, ht]
      exact (mem_of_build hmem ht a).mpr hd

/-! ## Parents and children in the forest -/

/-- Every node of a tree has its children below it, in the order of the nodes. -/
inductive Unfolds (nodes : List α) (child : α → α → Bool) : RoseTree α → Prop
  | node {a : α} {ts : List (RoseTree α)} : ts.map RoseTree.top = nodes.filter (child a) →
      (∀ t ∈ ts, Unfolds nodes child t) → Unfolds nodes child (.node a ts)

theorem tops_of_mapM {f : α → Option (RoseTree α)} {P : RoseTree α → Prop} {as : List α}
    {ts : List (RoseTree α)}
    (hf : ∀ a t, f a = some t → t.top = a ∧ P t) (h : as.mapM f = some ts) :
    ts.map RoseTree.top = as ∧ ∀ t ∈ ts, P t := by
  induction as generalizing ts with
  | nil =>
    obtain rfl : [] = ts := Option.some.inj h
    exact ⟨rfl, List.forall_mem_nil P⟩
  | cons a as ih =>
    rw [List.mapM_cons] at h
    obtain ⟨t, ht, h⟩ := Option.bind_eq_some_iff.mp h
    obtain ⟨rest, hrest, h⟩ := Option.bind_eq_some_iff.mp h
    obtain rfl : t :: rest = ts := Option.some.inj h
    obtain ⟨htop, hP⟩ := hf a t ht
    obtain ⟨htops, hall⟩ := ih hrest
    exact ⟨by rw [List.map_cons, htop, htops], List.forall_mem_cons.mpr ⟨hP, hall⟩⟩

/-- **In a built tree** every node has its children below it. -/
theorem unfolds_of_build {n : ℕ} {a : α} {t : RoseTree α} (h : build nodes child n a = some t) :
    t.top = a ∧ Unfolds nodes child t := by
  induction n generalizing a t with
  | zero => cases h
  | succ n ih =>
    rw [build] at h
    obtain ⟨ts, hts, rfl⟩ := Option.map_eq_some_iff.mp h
    obtain ⟨htops, hall⟩ := tops_of_mapM (fun _ _ ht => ih ht) hts
    exact ⟨rfl, .node htops hall⟩

theorem mapM_mono {f g : α → Option β} {as : List α} {bs : List β}
    (hfg : ∀ a b, f a = some b → g a = some b)
    (h : as.mapM f = some bs) : as.mapM g = some bs := by
  induction as generalizing bs with
  | nil => exact h
  | cons a as ih =>
    rw [List.mapM_cons] at h
    obtain ⟨b, hb, h⟩ := Option.bind_eq_some_iff.mp h
    obtain ⟨rest, hrest, h⟩ := Option.bind_eq_some_iff.mp h
    rw [List.mapM_cons, hfg a b hb, ih hrest]
    exact h

/-- More fuel builds the same tree. -/
theorem build_of_le {n m : ℕ} (hle : n ≤ m) {a : α} {t : RoseTree α}
    (h : build nodes child n a = some t) :
    build nodes child m a = some t := by
  induction n generalizing m a t with
  | zero => cases h
  | succ n ih =>
    obtain ⟨m, rfl⟩ : ∃ m', m = m' + 1 := ⟨m - 1, by omega⟩
    rw [build] at h ⊢
    obtain ⟨ts, hts, rfl⟩ := Option.map_eq_some_iff.mp h
    rw [mapM_mono (fun _ _ ht => ih (by omega) ht) hts]
    rfl

end Building

/-! ## What keeps nodes grounded -/

section Changes

variable {nodes : List α} {root : α → Bool} {child : α → α → Bool} {nodes' : List β}
  {root' : β → Bool}
  {child' : β → β → Bool}

theorem Grounded.of_root {a : α} (ha : a ∈ nodes) (h : root a = true) :
    Grounded nodes root child a :=
  ⟨0, .root ha h⟩

theorem Grounded.of_parent {p a : α} (h : Grounded nodes root child p) (he : Edge nodes child p a) :
    Grounded nodes root child a :=
  let ⟨d, hd⟩ := h
  ⟨d + 1, hd.child he⟩

/-- Grounded nodes other than roots have a grounded parent. -/
theorem Grounded.parent {a : α} (h : Grounded nodes root child a) :
    root a = true ∨ ∃ p, Grounded nodes root child p ∧ Edge nodes child p a := by
  obtain ⟨d, h⟩ := h
  cases h with
  | root _ hroot => exact Or.inl hroot
  | child hd he => exact Or.inr ⟨_, ⟨_, hd⟩, he⟩

theorem Grounded.mem {a : α} (h : Grounded nodes root child a) : a ∈ nodes := by
  obtain ⟨d, h⟩ := h
  exact h.mem

/-- **Nodes that correspond.** Where roots correspond to roots, and the parents of
    corresponding nodes correspond, grounded nodes correspond to grounded nodes. -/
theorem Grounded.simulate {R : α → β → Prop}
    (hroot : ∀ a b, R a b → a ∈ nodes → root a = true → b ∈ nodes' ∧ root' b = true)
    (hedge : ∀ p a b, R a b → Edge nodes child p a → ∃ q, R p q ∧ Edge nodes' child' q b)
    {a : α} {b : β}
    (hab : R a b) (h : Grounded nodes root child a) : Grounded nodes' root' child' b := by
  obtain ⟨d, h⟩ := h
  induction h generalizing b with
  | @root a ha hr =>
    obtain ⟨hb, hr'⟩ := hroot a b hab ha hr
    exact .of_root hb hr'
  | @child d p a _ he ih =>
    obtain ⟨q, hpq, he'⟩ := hedge p a b hab he
    exact (ih hpq).of_parent he'

/-- More nodes. -/
theorem Grounded.mono {more : List α} (hsub : nodes ⊆ more) {a : α}
    (h : Grounded nodes root child a) :
    Grounded more root child a := by
  obtain ⟨d, h⟩ := h
  induction h with
  | root ha hroot => exact .of_root (hsub ha) hroot
  | child _ he ih => exact ih.of_parent ⟨hsub he.1, hsub he.2.1, he.2.2⟩

/-- **A node gets another parent**, or becomes a root. The nodes stay grounded when
    the new parent is not below the node. -/
theorem Grounded.reparent (g : α → β) {m : α} (hmem : ∀ a ∈ nodes, g a ∈ nodes')
    (hroot : ∀ a ∈ nodes, a ≠ m → root a = true → root' (g a) = true)
    (hchild : ∀ p, ∀ a ∈ nodes, a ≠ m → child p a = true → child' (g p) (g a) = true)
    (hm : root' (g m) = true ∨ ∃ p, Grounded nodes root child p ∧ ¬ Descends nodes child m p ∧
      child' (g p) (g m) = true) (hmnodes : m ∈ nodes) {a : α} (h : Grounded nodes root child a) :
    Grounded nodes' root' child' (g a) := by
  have hedge : ∀ {p a}, a ≠ m → Edge nodes child p a → Edge nodes' child' (g p) (g a) :=
    fun hne he => ⟨hmem _ he.1, hmem _ he.2.1, hchild _ _ he.2.1 hne he.2.2⟩
  -- the path to a node that is not below `m` avoids `m`
  have houtside : ∀ {d a}, Depth nodes root child d a → ¬ Descends nodes child m a →
      Grounded nodes' root' child' (g a) := by
    intro d a hd
    induction hd with
    | @root a ha hr =>
      exact fun hna => .of_root (hmem a ha) (hroot a ha (fun he => hna (he ▸ .refl)) hr)
    | @child d p a _ he ih =>
      intro hna
      have hnp : ¬ Descends nodes child m p := fun hp => hna (hp.tail he)
      exact (ih hnp).of_parent (hedge (fun heq => hna (heq ▸ .refl)) he)
  have hground : Grounded nodes' root' child' (g m) := by
    rcases hm with hm | ⟨p, ⟨d, hd⟩, hnp, hpm⟩
    · exact .of_root (hmem m hmnodes) hm
    · exact (houtside hd hnp).of_parent ⟨hmem p hd.mem, hmem m hmnodes, hpm⟩
  obtain ⟨d, hd⟩ := h
  induction hd with
  | @root a ha hr =>
    by_cases he : a = m
    · rw [he]; exact hground
    · exact .of_root (hmem a ha) (hroot a ha he hr)
  | @child d p a _ hpa ih =>
    by_cases he : a = m
    · rw [he]; exact hground
    · exact ih.of_parent (hedge he hpa)

/-- Below a node that got another parent are the nodes that were. -/
theorem Descends.reparent (g : α → β) {m : α} (hmem : ∀ a ∈ nodes, g a ∈ nodes')
    (hchild : ∀ p, ∀ a ∈ nodes, a ≠ m → child p a = true → child' (g p) (g a) = true) {a : α}
    (h : Descends nodes child m a) : Descends nodes' child' (g m) (g a) := by
  induction h with
  | refl => exact .refl
  | @tail b c _ he ih =>
    by_cases heq : c = m
    · rw [heq]
    · exact ih.tail ⟨hmem b he.1, hmem c he.2.1, hchild b c he.2.1 heq he.2.2⟩

/-- **A node goes** and its children become roots: the other nodes stay grounded. -/
theorem Grounded.prune (g : α → β) {m : α} (hmem : ∀ a ∈ nodes, a ≠ m → g a ∈ nodes')
    (hroot : ∀ a, root a = true → root' (g a) = true)
    (horphan : ∀ a, child m a = true → root' (g a) = true)
    (hchild : ∀ p a, p ≠ m → child p a = true → child' (g p) (g a) = true ∨ root' (g a) = true)
    {a : α}
    (ha : a ≠ m) (h : Grounded nodes root child a) : Grounded nodes' root' child' (g a) := by
  obtain ⟨d, hd⟩ := h
  induction hd with
  | @root a hmema hr => exact .of_root (hmem a hmema ha) (hroot a hr)
  | @child d p a _ he ih =>
    obtain ⟨hp, hmema, hpa⟩ := he
    by_cases heq : p = m
    · exact .of_root (hmem a hmema ha) (horphan a (heq ▸ hpa))
    · rcases hchild p a heq hpa with hedge | hr
      · exact (ih heq).of_parent ⟨hmem p hp heq, hmem a hmema ha, hedge⟩
      · exact .of_root (hmem a hmema ha) hr

end Changes

/-! ## Ways down, and conditions on a node and its children -/

/-- The values on a way from a top of some trees down to a node. -/
inductive Way : List (RoseTree α) → List α → Prop
  | stop {a : α} {ts us : List (RoseTree α)} : .node a ts ∈ us → Way us [a]
  | down {a : α} {as : List α} {ts us : List (RoseTree α)} : .node a ts ∈ us → Way ts as →
      Way us (a :: as)

theorem mem_nodes_node {a b : α} {ts : List (RoseTree α)} :
    b ∈ (RoseTree.node a ts).nodes ↔ b = a ∨ b ∈ ts.flatMap RoseTree.nodes := by
  rw [RoseTree.nodes, List.mem_cons, RoseTree.nodesAll_eq]

theorem Way.mem {us : List (RoseTree α)} {as : List α} (h : Way us as) :
    ∀ a ∈ as, a ∈ us.flatMap RoseTree.nodes := by
  induction h with
  | stop hmem =>
    intro b hb
    rw [List.mem_singleton.mp hb]
    exact List.mem_flatMap.mpr ⟨_, hmem, mem_nodes_node.mpr (Or.inl rfl)⟩
  | down hmem _ ih =>
    intro b hb
    refine List.mem_flatMap.mpr ⟨_, hmem, mem_nodes_node.mpr ?_⟩
    exact (List.mem_cons.mp hb).imp_right (ih b)

mutual

theorem way_of_mem_nodes {b : α} : ∀ (t : RoseTree α) {us : List (RoseTree α)},
    t ∈ us → b ∈ t.nodes →
    ∃ as, Way us as ∧ b ∈ as
  | .node a ts, us, ht, hb => by
    rcases mem_nodes_node.mp hb with rfl | hb
    · exact ⟨[b], .stop ht, List.mem_singleton_self b⟩
    · obtain ⟨as, hway, hmem⟩ := way_of_mem_nodesAll ts (fun _ h => h) hb
      exact ⟨a :: as, .down ht hway, List.mem_cons_of_mem a hmem⟩

theorem way_of_mem_nodesAll {b : α} : ∀ (ts : List (RoseTree α)) {us : List (RoseTree α)},
    (∀ t ∈ ts, t ∈ us) →
    b ∈ ts.flatMap RoseTree.nodes → ∃ as, Way us as ∧ b ∈ as
  | [], _, _, hb => by cases hb
  | t :: ts, us, hsub, hb => by
    rw [List.flatMap_cons, List.mem_append] at hb
    rcases hb with hb | hb
    · exact way_of_mem_nodes t (hsub t List.mem_cons_self) hb
    · exact way_of_mem_nodesAll ts (fun u hu => hsub u (List.mem_cons_of_mem t hu)) hb

end

/-- Every node is on a way, and there is nothing else on the ways. -/
theorem forall_way_iff {P : α → Prop} {us : List (RoseTree α)} :
    (∀ as, Way us as → ∀ a ∈ as, P a) ↔ ∀ a ∈ us.flatMap RoseTree.nodes, P a := by
  constructor
  · intro h a ha
    obtain ⟨as, hway, hmem⟩ := way_of_mem_nodesAll us (fun _ h => h) ha
    exact h as hway a hmem
  · intro h as hway a ha
    exact h a (hway.mem a ha)

/-- Every node and its children meet a condition. -/
inductive Locally (R : α → List α → Prop) : RoseTree α → Prop
  | node {a : α} {ts : List (RoseTree α)} : R a (ts.map RoseTree.top) → (∀ t ∈ ts, Locally R t) →
      Locally R (.node a ts)

theorem locally_node {R : α → List α → Prop} {a : α} {ts : List (RoseTree α)} :
    Locally R (.node a ts) ↔ R a (ts.map RoseTree.top) ∧ ∀ t ∈ ts, Locally R t := by
  constructor
  · rintro ⟨hnode, hchildren⟩
    exact ⟨hnode, hchildren⟩
  · rintro ⟨hnode, hchildren⟩
    exact .node hnode hchildren

theorem RoseTree.map_node (g : α → β) (a : α) (ts : List (RoseTree α)) :
    (RoseTree.node a ts).map g = .node (g a) (ts.map (RoseTree.map g)) := by
  rw [RoseTree.map, RoseTree.fold, RoseTree.foldAll_eq]

theorem RoseTree.map_map {γ : Type} (g : α → β) (h : β → γ) (t : RoseTree α) :
    (t.map g).map h = t.map fun a => h (g a) :=
  RoseTree.fold_map g _ t

mutual

theorem RoseTree.map_id : ∀ t : RoseTree α, (t.map fun a => a) = t
  | .node a ts => by rw [RoseTree.map_node, RoseTree.map_id_all ts]

theorem RoseTree.map_id_all : ∀ ts : List (RoseTree α), ts.map (RoseTree.map fun a => a) = ts
  | [] => rfl
  | t :: ts => by rw [List.map_cons, RoseTree.map_id t, RoseTree.map_id_all ts]

end

@[simp] theorem RoseTree.top_map (g : α → β) (t : RoseTree α) : (t.map g).top = g t.top := by
  cases t with
  | node a ts => rw [RoseTree.map_node, RoseTree.top, RoseTree.top]

/-- In an unfolded tree the condition is one on the nodes. -/
theorem Unfolds.locally_map_iff {nodes : List α} {child : α → α → Bool} {t : RoseTree α}
    (h : Unfolds nodes child t)
    (g : α → β) (R : β → List β → Prop) :
    Locally R (t.map g) ↔ ∀ a ∈ t.nodes, R (g a) ((nodes.filter (child a)).map g) := by
  induction h with
  | @node a ts htops _ ih =>
    have htop : (ts.map (RoseTree.map g)).map RoseTree.top = (nodes.filter (child a)).map g := by
      rw [← htops, List.map_map, List.map_map]
      exact List.map_congr_left fun t _ => t.top_map g
    rw [RoseTree.map_node, locally_node, htop, List.forall_mem_map]
    constructor
    · rintro ⟨hnode, hchildren⟩ b hb
      rcases mem_nodes_node.mp hb with rfl | hb
      · exact hnode
      · obtain ⟨t, ht, hb⟩ := List.mem_flatMap.mp hb
        exact (ih t ht).mp (hchildren t ht) b hb
    · intro hall
      refine ⟨hall a (mem_nodes_node.mpr (Or.inl rfl)), fun t ht => (ih t ht).mpr fun b hb => ?_⟩
      exact hall b (mem_nodes_node.mpr (Or.inr (List.mem_flatMap.mpr ⟨t, ht, hb⟩)))

mutual

/-- A tree can be read off what is computed from it, if each node can. -/
theorem RoseTree.fold_injective {f : α → List β → β}
    (hf : ∀ a b xs ys, f a xs = f b ys → a = b ∧ xs = ys) :
    ∀ t u : RoseTree α, t.fold f = u.fold f → t = u
  | .node a ts, .node b us, h => by
    rw [RoseTree.fold, RoseTree.fold] at h
    obtain ⟨rfl, hrest⟩ := hf _ _ _ _ h
    rw [RoseTree.foldAll_injective hf ts us hrest]

theorem RoseTree.foldAll_injective {f : α → List β → β}
    (hf : ∀ a b xs ys, f a xs = f b ys → a = b ∧ xs = ys) :
    ∀ ts us : List (RoseTree α), RoseTree.foldAll f ts = RoseTree.foldAll f us → ts = us
  | [], [], _ => rfl
  | [], u :: us, h => by cases h
  | t :: ts, [], h => by cases h
  | t :: ts, u :: us, h => by
    rw [RoseTree.foldAll, RoseTree.foldAll] at h
    obtain ⟨hfirst, hrest⟩ := List.cons.inj h
    rw [RoseTree.fold_injective hf t u hfirst, RoseTree.foldAll_injective hf ts us hrest]

end

end ProjectEvaluation.Forest
