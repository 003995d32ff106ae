import Mathlib.Data.Set.Lattice
import Mathlib.Order.CompletePartialOrder

/-!
# Clients with separate footprints

A server keeps a store made of parts, each with contents of its own type, and takes requests one
after the other. A request uses some parts and writes some of these; what it answers and what it
writes depend on the parts it uses only. Two requests are independent if neither writes a part
that the other uses.

The clients of a server send their requests in any order. Where requests of different clients
are independent, every client is served as if it were alone, and only the order of the
requests within each client matters.

Results:
* `Server.alone`: the answers a client gets, and the parts it uses, are those of its own
  requests.
* `Server.any_order`: two orders of the same requests of each client end in the same store.
-/

namespace ProjectEvaluation.Footprint

variable {L Q A C : Type} {X : L → Type}

/-- Two stores agree on some parts. -/
def Agree (s s' : ∀ l, X l) (U : Set L) : Prop := ∀ l ∈ U, s l = s' l

theorem Agree.mono {s s' : ∀ l, X l} {U V : Set L} (h : Agree s s' V) (hU : U ⊆ V) : Agree s s' U :=
  fun l hl => h l (hU hl)

theorem Agree.trans {s s' s'' : ∀ l, X l} {U : Set L} (h : Agree s s' U) (h' : Agree s' s'' U) :
    Agree s s'' U := fun l hl => (h l hl).trans (h' l hl)

/-- A server whose requests keep to their footprints. -/
structure Server (L : Type) (X : L → Type) (Q A : Type) where
  answer : Q → (∀ l, X l) → A
  next : Q → (∀ l, X l) → ∀ l, X l
  uses : Q → Set L
  writes : Q → Set L
  writes_uses : ∀ q, writes q ⊆ uses q
  answer_congr : ∀ q s s', Agree s s' (uses q) → answer q s = answer q s'
  next_congr : ∀ q s s', Agree s s' (uses q) → Agree (next q s) (next q s') (writes q)
  frame : ∀ q s l, l ∉ writes q → next q s l = s l

/-- What concerns one client. -/
def own {B : Type} [DecidableEq C] (c : C) (log : List (C × B)) : List (C × B) :=
  log.filter fun p => p.1 = c

theorem mem_own {B : Type} [DecidableEq C] {c : C} {log : List (C × B)} {p : C × B} :
    p ∈ own c log ↔ p ∈ log ∧ p.1 = c := by
  simp [own]

namespace Server

variable (v : Server L X Q A)

/-- Neither request writes what the other uses. -/
def Independent (q q' : Q) : Prop :=
  Disjoint (v.writes q) (v.uses q') ∧ Disjoint (v.writes q') (v.uses q)

/-- The answers to a log of requests, each with its client. -/
def answers : List (C × Q) → (∀ l, X l) → List (C × A)
  | [], _ => []
  | p :: log, s => (p.1, v.answer p.2 s) :: answers log (v.next p.2 s)

/-- The store after a log of requests. -/
def after : List (C × Q) → (∀ l, X l) → ∀ l, X l
  | [], s => s
  | p :: log, s => after log (v.next p.2 s)

/-- The requests of different clients are independent. -/
def Separate (log : List (C × Q)) : Prop :=
  ∀ p ∈ log, ∀ p' ∈ log, p.1 ≠ p'.1 → v.Independent p.2 p'.2

/-- A request keeps stores equal on parts that contain what it uses. -/
theorem next_eqOn {q : Q} {s s' : ∀ l, X l} {U : Set L} (hU : v.uses q ⊆ U) (h : Agree s s' U) :
    Agree (v.next q s) (v.next q s') U := by
  intro l hl
  by_cases hw : l ∈ v.writes q
  · exact v.next_congr q s s' (h.mono hU) l hw
  · rw [v.frame q s l hw, v.frame q s' l hw]
    exact h l hl

/-- A request leaves the parts it does not write. -/
theorem next_frame {q : Q} {s : ∀ l, X l} {U : Set L} (hU : Disjoint (v.writes q) U) :
    Agree (v.next q s) s U :=
  fun l hl => v.frame q s l fun hw => Set.disjoint_left.mp hU hw hl

theorem after_frame {log : List (C × Q)} {s : ∀ l, X l} {l : L} (h : ∀ p ∈ log, l ∉ v.writes p.2) :
    v.after log s l = s l := by
  induction log generalizing s with
  | nil => rfl
  | cons p log ih =>
    rw [after, ih fun p' hp' => h p' (List.mem_cons_of_mem p hp')]
    exact v.frame p.2 s l (h p List.mem_cons_self)

variable {v} in
theorem Separate.other {log : List (C × Q)} (hsep : v.Separate log) (c : C) :
    ∀ p ∈ log, p.1 ≠ c → ∀ p' ∈ log, p'.1 = c → Disjoint (v.writes p.2) (v.uses p'.2) :=
  fun p hp hc p' hp' hc' => (hsep p hp p' hp' fun heq => hc (heq.trans hc')).1

variable [DecidableEq C]

/-- A client whose parts the others do not write: `U` contains all it uses. -/
theorem own_run {c : C} {U : Set L} {log : List (C × Q)} {s s' : ∀ l, X l}
    (hmine : ∀ p ∈ log, p.1 = c → v.uses p.2 ⊆ U)
    (hother : ∀ p ∈ log, p.1 ≠ c → Disjoint (v.writes p.2) U) (h : Agree s s' U) :
    own c (v.answers log s) = v.answers (own c log) s' ∧
      Agree (v.after log s) (v.after (own c log) s') U := by
  induction log generalizing s s' with
  | nil => exact ⟨rfl, h⟩
  | cons p log ih =>
    have hrest := @ih (v.next p.2 s)
    by_cases hp : p.1 = c
    · have huses := hmine p List.mem_cons_self hp
      obtain ⟨hanswers, hafter⟩ :=
        @hrest (v.next p.2 s') (fun p' hp' => hmine p' (List.mem_cons_of_mem p hp'))
        (fun p' hp' => hother p' (List.mem_cons_of_mem p hp')) (v.next_eqOn huses h)
      have hown : own c (p :: log) = p :: own c log := List.filter_cons_of_pos (by simpa using hp)
      rw [hown]
      refine ⟨?_, hafter⟩
      rw [answers, answers, own, List.filter_cons_of_pos (by simpa using hp),
        v.answer_congr p.2 s s' (h.mono huses)]
      exact congrArg _ hanswers
    · have hframe := v.next_frame (s := s) (hother p List.mem_cons_self hp)
      obtain ⟨hanswers, hafter⟩ := @hrest s' (fun p' hp' => hmine p' (List.mem_cons_of_mem p hp'))
        (fun p' hp' => hother p' (List.mem_cons_of_mem p hp')) (hframe.trans h)
      have hown : own c (p :: log) = own c log := List.filter_cons_of_neg (by simpa using hp)
      rw [hown]
      refine ⟨?_, hafter⟩
      rw [answers, own, List.filter_cons_of_neg (by simpa using hp)]
      exact hanswers

/-- **A client is served as if it were alone** where the others write nothing it uses: it gets
    the answers of its own requests, and what it uses is what they leave. -/
theorem alone {log : List (C × Q)} {c : C}
    (hother : ∀ p ∈ log, p.1 ≠ c → ∀ p' ∈ log, p'.1 = c → Disjoint (v.writes p.2) (v.uses p'.2))
    (s : ∀ l, X l) :
    own c (v.answers log s) = v.answers (own c log) s ∧
      ∀ p ∈ log, p.1 = c → Agree (v.after log s) (v.after (own c log) s) (v.uses p.2) := by
  have hrun := @own_run _ _ _ _ _ v _ c {l | ∃ p ∈ log, p.1 = c ∧ l ∈ v.uses p.2} log s s
    (fun p hp hc l hl => ⟨p, hp, hc, hl⟩) (fun p hp hc => ?_) (fun _ _ => rfl)
  · exact ⟨hrun.1, fun p hp hc l hl => hrun.2 l ⟨p, hp, hc, hl⟩⟩
  · rw [Set.disjoint_left]
    rintro l hl ⟨p', hp', hc', hl'⟩
    exact Set.disjoint_left.mp (hother p hp hc p' hp' hc') hl hl'

/-- **Only the order within each client matters.** -/
theorem any_order {log log' : List (C × Q)} (hsep : v.Separate log)
    (hown : ∀ c, own c log = own c log') (s : ∀ l, X l) :
    v.after log s = v.after log' s ∧ ∀ c, own c (v.answers log s) = own c (v.answers log' s) := by
  have hmem : ∀ p, p ∈ log ↔ p ∈ log' := by
    intro p
    have h := congrArg (p ∈ ·) (hown p.1)
    simpa [mem_own] using h
  have hsep' : v.Separate log' := fun p hp p' hp' => hsep p ((hmem p).mpr hp) p' ((hmem p').mpr hp')
  constructor
  · funext l
    by_cases hw : ∃ p ∈ log, l ∈ v.writes p.2
    · obtain ⟨p, hp, hl⟩ := hw
      have huses := v.writes_uses p.2 hl
      calc v.after log s l
        _ = v.after (own p.1 log) s l := (v.alone (hsep.other p.1) s).2 p hp rfl l huses
        _ = v.after (own p.1 log') s l := by rw [hown]
        _ = v.after log' s l :=
          ((v.alone (hsep'.other p.1) s).2 p ((hmem p).mp hp) rfl l huses).symm
    · push Not at hw
      rw [v.after_frame hw, v.after_frame fun p hp => hw p ((hmem p).mpr hp)]
  · intro c
    rw [(v.alone (hsep.other c) s).1, (v.alone (hsep'.other c) s).1, hown]

end Server

end ProjectEvaluation.Footprint
