import Mathlib.Data.List.Basic

/-!
# Machines

A machine takes one event after the other; an event may be impossible in a state. Rules
about whole runs from what one step preserves.

Results:
* `exec_append`: a run is made of its parts.
* `Always.invariant`: what every step of a certain kind preserves holds after every run
  of such steps.
* `exec_undone`: a run whose steps can be undone one by one can be undone.
-/

namespace ProjectEvaluation.Machine

variable {S E : Type}

/-- The state after a run of events; `none` where one of them is not possible. -/
def exec (step : S → E → Option S) : S → List E → Option S
  | s, [] => some s
  | s, e :: es => (step s e).bind fun s' => exec step s' es

/-- Every event of a run meets a condition in the state it comes to. -/
def Always (step : S → E → Option S) (good : S → E → Prop) : S → List E → Prop
  | _, [] => True
  | s, e :: es => good s e ∧ ∀ s', step s e = some s' → Always step good s' es

variable {step : S → E → Option S} {good : S → E → Prop}

instance Always.decidable [∀ s e, Decidable (good s e)] : ∀ s es, Decidable (Always step good s es)
  | _, [] => isTrue trivial
  | s, e :: es =>
    have : Decidable (∀ s', step s e = some s' → Always step good s' es) :=
      match step s e with
      | none => isTrue fun _ hs => (nomatch hs)
      | some w =>
        match Always.decidable w es with
        | isTrue hrest => isTrue fun _ hs => Option.some.inj hs ▸ hrest
        | isFalse hrest => isFalse fun hall => hrest (hall w rfl)
    inferInstanceAs (Decidable (good s e ∧ ∀ s', step s e = some s' → Always step good s' es))

@[simp] theorem exec_nil (s : S) : exec step s [] = some s := rfl

theorem exec_cons (s : S) (e : E) (es : List E) :
    exec step s (e :: es) = (step s e).bind fun s' => exec step s' es := rfl

theorem exec_cons_eq_some {s t : S} {e : E} {es : List E} :
    exec step s (e :: es) = some t ↔ ∃ s', step s e = some s' ∧ exec step s' es = some t :=
  Option.bind_eq_some_iff

theorem exec_append (s : S) (es es' : List E) :
    exec step s (es ++ es') = (exec step s es).bind fun s' => exec step s' es' := by
  induction es generalizing s with
  | nil => rfl
  | cons e es ih =>
    rw [List.cons_append, exec_cons, exec_cons, Option.bind_assoc]
    exact congrArg _ (funext ih)

theorem exec_append_eq_some {s t : S} {es es' : List E} :
    exec step s (es ++ es') = some t ↔ ∃ s',
      exec step s es = some s' ∧ exec step s' es' = some t := by
  rw [exec_append]
  exact Option.bind_eq_some_iff

theorem Always.append {s : S} {es es' : List E} (h : Always step good s (es ++ es')) :
    Always step good s es ∧ ∀ s', exec step s es = some s' → Always step good s' es' := by
  induction es generalizing s with
  | nil => exact ⟨trivial, fun s' hs => by cases hs; exact h⟩
  | cons e es ih =>
    obtain ⟨hgood, hrest⟩ := h
    refine ⟨⟨hgood, fun s' hs => (ih (hrest s' hs)).1⟩, fun s' hs => ?_⟩
    obtain ⟨w, hw, hs⟩ := exec_cons_eq_some.mp hs
    exact (ih (hrest w hw)).2 s' hs

/-- **Invariants.** What holds at first, and is preserved by every step under the
    condition, holds after every run under the condition. -/
theorem Always.invariant {I : S → Prop}
    (hstep : ∀ s e s', I s → good s e → step s e = some s' → I s') {s t : S}
    {es : List E} (hgood : Always step good s es) (hs : I s)
    (hexec : exec step s es = some t) : I t := by
  induction es generalizing s with
  | nil => cases hexec; exact hs
  | cons e es ih =>
    obtain ⟨w, hw, hexec⟩ := exec_cons_eq_some.mp hexec
    exact ih (hgood.2 w hw) (hstep s e w hs hgood.1 hw) hexec

/-- Two conditions that say the same in the states of an invariant hold along the same runs. -/
theorem Always.iff_of_invariant {good' : S → E → Prop} {I : S → Prop}
    (hiff : ∀ s e, I s → (good s e ↔ good' s e))
    (hstep : ∀ s e s', I s → good s e → step s e = some s' → I s') {s : S} {es : List E}
    (hs : I s) :
    Always step good s es ↔ Always step good' s es := by
  induction es generalizing s with
  | nil => exact Iff.rfl
  | cons e es ih =>
    constructor
    · rintro ⟨hgood, hrest⟩
      exact ⟨(hiff s e hs).mp hgood,
        fun s' hs' => (ih (hstep s e s' hs hgood hs')).mp (hrest s' hs')⟩
    · rintro ⟨hgood', hrest⟩
      have hgood := (hiff s e hs).mpr hgood'
      exact ⟨hgood, fun s' hs' => (ih (hstep s e s' hs hgood hs')).mpr (hrest s' hs')⟩

/-- So do two conditions that say the same of the steps that a run takes from such states. -/
theorem Always.iff_of_exec {good' : S → E → Prop} {I : S → Prop}
    (hiff : ∀ s e s', I s → step s e = some s' → (good s e ↔ good' s e))
    (hstep : ∀ s e s', I s → good s e → step s e = some s' → I s') {s t : S}
    {es : List E} (hs : I s)
    (hexec : exec step s es = some t) : Always step good s es ↔ Always step good' s es := by
  induction es generalizing s with
  | nil => exact Iff.rfl
  | cons e es ih =>
    obtain ⟨w, hw, hexec⟩ := exec_cons_eq_some.mp hexec
    have hsame := hiff s e w hs hw
    constructor
    · rintro ⟨hgood, hrest⟩
      refine ⟨hsame.mp hgood, fun s' hs' => ?_⟩
      obtain rfl := Option.some.inj (hw.symm.trans hs')
      exact (ih (hstep s e w hs hgood hw) hexec).mp (hrest w hw)
    · rintro ⟨hgood', hrest⟩
      have hgood := hsame.mpr hgood'
      refine ⟨hgood, fun s' hs' => ?_⟩
      obtain rfl := Option.some.inj (hw.symm.trans hs')
      exact (ih (hstep s e w hs hgood hw) hexec).mpr (hrest w hw)

/-- What every step preserves holds after every run. -/
theorem invariant {I : S → Prop} (hstep : ∀ s e s', I s → step s e = some s' → I s') {s t : S}
    {es : List E}
    (hs : I s) (hexec : exec step s es = some t) : I t := by
  induction es generalizing s with
  | nil => cases hexec; exact hs
  | cons e es ih =>
    obtain ⟨w, hw, hexec⟩ := exec_cons_eq_some.mp hexec
    exact ih (hstep s e w hs hw) hexec

theorem always_of_forall {P : E → Prop} {s : S} {es : List E} (h : ∀ e ∈ es, P e) :
    Always step (fun _ e => P e) s es := by
  induction es generalizing s with
  | nil => trivial
  | cons e es ih =>
    exact ⟨h e List.mem_cons_self, fun s' _ => ih fun e' he' => h e' (List.mem_cons_of_mem e he')⟩

/-! ## Undoing -/

/-- **Undoing a run.** The invariant knows the events that are still to come. Where an event
    can be undone in every state that is related to the one it led to, a run is undone by as
    many undos as it has events. -/
theorem exec_undone {U : Type} {undo : U → E} {I : List E → S → Prop} {R : S → S → Prop}
    (hrefl : ∀ s, I [] s → R s s)
    (hstep : ∀ s e es s', I (e :: es) s → good s e → step s e = some s' → I es s' ∧
      ∀ t u, R s' t → good t (undo u) → ∃ t', step t (undo u) = some t' ∧ R s t')
    {es : List E} {us : List U} (hlength : us.length = es.length) {s s' : S} (hs : I es s)
    (hexec : exec step s es = some s') (hgood : Always step good s es)
    (hgood' : Always step good s' (us.map undo)) :
    ∃ t, exec step s' (us.map undo) = some t ∧ R s t := by
  induction es generalizing s us with
  | nil =>
    rw [List.length_eq_zero_iff.mp hlength]
    cases hexec
    exact ⟨_, rfl, hrefl _ hs⟩
  | cons e es ih =>
    obtain ⟨w, hw, hexec⟩ := exec_cons_eq_some.mp hexec
    obtain ⟨hI, hundo⟩ := hstep s e es w hs hgood.1 hw
    -- the last undo is the one of the first event
    obtain ⟨front, u, rfl⟩ : ∃ front u, us = front ++ [u] := by
      rcases List.eq_nil_or_concat' us with rfl | h
      · cases hlength
      · exact h
    rw [List.map_append, List.map_singleton] at hgood' ⊢
    have hfront : front.length = es.length := by
      rw [List.length_append, List.length_singleton, List.length_cons] at hlength
      omega
    obtain ⟨hgoodFront, hgoodLast⟩ := hgood'.append
    obtain ⟨t, ht, hR⟩ := ih hfront hI hexec (hgood.2 w hw) hgoodFront
    obtain ⟨t', ht', hR'⟩ := hundo t u hR (hgoodLast t ht).1
    refine ⟨t', exec_append_eq_some.mpr ⟨t, ht, ?_⟩, hR'⟩
    rw [exec_cons, ht']
    rfl

/-! ## Messages in flight -/

/-- When one message is taken, the others stay. -/
theorem mem_eraseIdx_of_ne {M : Type} {messages : List M} {i : ℕ} {m m' : M} (h : m ∈ messages)
    (htaken : messages[i]? = some m') (hne : m ≠ m') : m ∈ messages.eraseIdx i := by
  obtain ⟨j, hj⟩ := List.mem_iff_getElem?.mp h
  have hij : j ≠ i := by
    rintro rfl
    exact hne (Option.some.inj (hj.symm.trans htaken))
  exact List.mem_eraseIdx_iff_getElem?.mpr ⟨j, hij, hj⟩

end ProjectEvaluation.Machine
