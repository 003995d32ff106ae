import ProjectEvaluation.Lib.Transaction

/-!
# Two runs of one program

A program is run on two stores that are related. Where each of its steps answers alike on
related stores and leaves related stores, so does the program.

The relation `R` of the stores and the condition `G` on the operations that may be staged
are parameters; that each operation with `G` keeps stores related is the one assumption.

Results:
* `Lockstep.bind`, `Lockstep.query`, `Lockstep.commit`, ...: the rules of the programs.
* `Lockstep.serve`: a request gives related stores the same answer and leaves them related.
-/

namespace ProjectEvaluation.Transaction

variable {σ ω ε α β : Type}

/-- Two computations raise the same exception, or end in related stores. -/
def SameEnd (R : σ → σ → Prop) : Except ε σ → Except ε σ → Prop
  | .ok w, .ok w' => R w w'
  | .error e, .error e' => e = e'
  | _, _ => False

theorem SameEnd.cases {R : σ → σ → Prop} {x x' : Except ε σ} (h : SameEnd R x x') :
    (∃ e, x = .error e ∧ x' = .error e) ∨ ∃ w w', x = .ok w ∧ x' = .ok w' ∧ R w w' := by
  cases x with
  | error e =>
    cases x' with
    | error e' => exact Or.inl ⟨e, rfl, congrArg _ (show e = e' from h).symm⟩
    | ok w' => exact absurd h id
  | ok w =>
    cases x' with
    | error e' => exact absurd h id
    | ok w' => exact Or.inr ⟨w, w', rfl, rfl, h⟩

theorem SameEnd.error {R : σ → σ → Prop} (e : ε) : SameEnd R (.error e) (.error e) := rfl

theorem SameEnd.bind {R : σ → σ → Prop} {x x' : Except ε σ} {f f' : σ → Except ε σ}
    (h : SameEnd R x x')
    (hf : ∀ w w', R w w' → SameEnd R (f w) (f' w')) : SameEnd R (x.bind f) (x'.bind f') := by
  rcases h.cases with ⟨e, rfl, rfl⟩ | ⟨w, w', rfl, rfl, hw⟩
  · exact SameEnd.error e
  · exact hf w w' hw

/-- Two sessions on related stores with the same pending operations. -/
structure Alike (R : σ → σ → Prop) (G : ω → Prop) (s s' : Session σ ω) : Prop where
  committed : R s.committed s'.committed
  work : R s.work s'.work
  pending : s.pending = s'.pending
  good : ∀ o ∈ s.pending, G o

theorem Alike.init {R : σ → σ → Prop} {G : ω → Prop} {db db' : σ} (h : R db db') :
    Alike R G (Session.init db) (Session.init db') := ⟨h, h, rfl, nofun⟩

theorem Alike.discarded {R : σ → σ → Prop} {G : ω → Prop} {s s' : Session σ ω}
    (h : Alike R G s s') :
    Alike R G { s with work := s.committed, pending := [] }
      { s' with work := s'.committed, pending := [] } :=
  ⟨h.committed, h.committed, rfl, nofun⟩

/-- A program that answers alike in sessions that are alike, and leaves them alike. -/
def Lockstep (R : σ → σ → Prop) (G : ω → Prop) (m : Txn σ ω ε α) : Prop :=
  ∀ s s', Alike R G s s' → (exec m s).1 = (exec m s').1 ∧ Alike R G (exec m s).2 (exec m s').2

section Rules

variable {R : σ → σ → Prop} {G : ω → Prop}

theorem Lockstep.pure (a : α) : Lockstep R G (pure a : Txn σ ω ε α) := fun _ _ h => ⟨rfl, h⟩

theorem Lockstep.throw (e : ε) : Lockstep R G (throw e : Txn σ ω ε α) := fun _ _ h => ⟨rfl, h⟩

theorem Lockstep.ofResult (x : Except ε α) : Lockstep R G (ofResult x : Txn σ ω ε α) :=
  fun _ _ h => ⟨rfl, h⟩

/-- One program after another, which may rely on what is true of every result of the first. -/
theorem Lockstep.bind_of {m : Txn σ ω ε α} {f : α → Txn σ ω ε β} {P : α → Prop}
    (hm : Lockstep R G m)
    (hP : ∀ s a, (exec m s).1 = .ok a → P a) (hf : ∀ a, P a → Lockstep R G (f a)) :
    Lockstep R G (m >>= f) := by
  intro s s' h
  obtain ⟨hresult, hleft⟩ := hm s s' h
  have hP := hP s
  rw [exec_bind, exec_bind]
  rcases hexec : exec m s with ⟨x, w⟩
  rcases hexec' : exec m s' with ⟨x', w'⟩
  rw [hexec, hexec'] at hresult hleft
  rw [hexec] at hP
  obtain rfl : x = x' := hresult
  cases x with
  | error e => exact ⟨rfl, hleft⟩
  | ok a => exact hf a (hP a rfl) w w' hleft

theorem Lockstep.bind {m : Txn σ ω ε α} {f : α → Txn σ ω ε β} (hm : Lockstep R G m)
    (hf : ∀ a, Lockstep R G (f a)) : Lockstep R G (m >>= f) :=
  hm.bind_of (fun _ _ _ => trivial) fun a _ => hf a

theorem Lockstep.map {m : Txn σ ω ε α} (f : α → β) (hm : Lockstep R G m) :
    Lockstep R G (f <$> m) := by
  rw [← bind_pure_comp]
  exact hm.bind fun a => Lockstep.pure (f a)

theorem Lockstep.catching {m : Txn σ ω ε α} {handle : ε → Txn σ ω ε α} (hm : Lockstep R G m)
    (hhandle : ∀ e, Lockstep R G (handle e)) : Lockstep R G (catching m handle) := by
  intro s s' h
  obtain ⟨hresult, hleft⟩ := hm s s' h
  rw [exec_catching, exec_catching]
  rcases hexec : exec m s with ⟨x, w⟩
  rcases hexec' : exec m s' with ⟨x', w'⟩
  rw [hexec, hexec'] at hresult hleft
  obtain rfl : x = x' := hresult
  cases x with
  | error e => exact hhandle e w w' hleft
  | ok a => exact ⟨rfl, hleft⟩

theorem Lockstep.stage {o : ω} (ho : G o) : Lockstep R G (stage o : Txn σ ω ε Unit) := by
  intro s s' h
  refine ⟨rfl, h.committed, h.work, congrArg (· ++ [o]) h.pending, ?_⟩
  intro o' ho'
  rcases List.mem_append.mp ho' with ho' | ho'
  · exact h.good o' ho'
  · rw [List.mem_singleton.mp ho']
    exact ho

/-- A loop that stages operations. -/
theorem Lockstep.stageAll {xs : List (Except ε (Option ω))} (hxs : ∀ o, .ok (some o) ∈ xs → G o) :
    Lockstep R G (stageAll xs) := by
  induction xs with
  | nil => exact Lockstep.pure ()
  | cons x xs ih =>
    have hrest := ih fun o ho => hxs o (List.mem_cons_of_mem x ho)
    intro s s' h
    match x with
    | .error e =>
      rw [Transaction.stageAll, exec_bind_error (exec_ofResult _ _),
        exec_bind_error (exec_ofResult _ _)]
      exact ⟨rfl, h⟩
    | .ok none =>
      rw [Transaction.stageAll, exec_bind_ok (exec_ofResult _ _), exec_bind_ok (exec_ofResult _ _)]
      exact hrest s s' h
    | .ok (some o) =>
      rw [Transaction.stageAll, exec_bind_ok (exec_ofResult _ _), exec_bind_ok (exec_ofResult _ _)]
      exact ((Lockstep.stage (hxs o List.mem_cons_self)).bind fun _ => hrest) s s' h

theorem Lockstep.rollback : Lockstep R G (rollback : Txn σ ω ε Unit) :=
  fun _ _ h => ⟨rfl, h.discarded⟩

variable {apply : ω → σ → Except ε σ}
  (happly : ∀ o, G o → ∀ w w', R w w' → SameEnd R (apply o w) (apply o w'))
include happly

/-- Operations that are carried out in order. -/
theorem sameEnd_applyAll {os : List ω} (hos : ∀ o ∈ os, G o) {w w' : σ} (h : R w w') :
    SameEnd R (applyAll apply os w) (applyAll apply os w') := by
  induction os generalizing w w' with
  | nil => exact h
  | cons o os ih =>
    rw [applyAll_cons, applyAll_cons]
    exact (happly o (hos o List.mem_cons_self) w w' h).bind fun _ _ hw =>
      ih (fun o' ho' => hos o' (List.mem_cons_of_mem o ho')) hw

theorem Lockstep.flush : Lockstep R G (flush apply) := by
  intro s s' h
  rw [exec_flush, exec_flush, ← h.pending]
  rcases (sameEnd_applyAll happly h.good h.work).cases with ⟨e, hw, hw'⟩ | ⟨w, w', hw, hw', hR⟩
  · rw [hw, hw']
    exact ⟨rfl, h.discarded⟩
  · rw [hw, hw']
    exact ⟨rfl, h.committed, hR, rfl, nofun⟩

/-- A query that reads what is the same in related stores. -/
theorem Lockstep.query {f : σ → Except ε α} (hf : ∀ w w', R w w' → f w = f w') :
    Lockstep R G (query apply f) :=
  (Lockstep.flush happly).bind fun _ _ _ h => ⟨hf _ _ h.work, h⟩

theorem Lockstep.execute {o : ω} (ho : G o) : Lockstep R G (execute apply o) := by
  refine (Lockstep.flush happly).bind fun _ s s' h => ?_
  rw [exec_step, exec_step]
  rcases (happly o ho s.work s'.work h.work).cases with ⟨e, hw, hw'⟩ | ⟨w, w', hw, hw', hR⟩
  · rw [hw, hw']
    exact ⟨rfl, h⟩
  · rw [hw, hw']
    exact ⟨rfl, h.committed, hR, h.pending, h.good⟩

theorem Lockstep.commit : Lockstep R G (commit apply) :=
  (Lockstep.flush happly).bind fun _ _ _ h => ⟨rfl, h.work, h.work, h.pending, h.good⟩

end Rules

/-- The result of a query is that of its function on some store. -/
theorem query_result {apply : ω → σ → Except ε σ} {f : σ → Except ε α} {s : Session σ ω} {a : α}
    (h : (exec (query apply f) s).1 = .ok a) : ∃ w, f w = .ok a := by
  rw [query, exec_bind, exec_flush] at h
  cases hall : applyAll apply s.pending s.work with
  | error e =>
    rw [hall] at h
    cases h
  | ok w =>
    rw [hall] at h
    exact ⟨w, h⟩

/-- **A request on related stores** gets the same answer, and leaves related stores. -/
theorem Lockstep.serve {R : σ → σ → Prop} {G : ω → Prop} {m : Txn σ ω ε α} (hm : Lockstep R G m)
    (onError : ε → α)
    {db db' : σ} (h : R db db') :
    (serve onError m db).1 = (serve onError m db').1 ∧
      R (serve onError m db).2 (serve onError m db').2 := by
  obtain ⟨hresult, hleft⟩ := hm _ _ (Alike.init h)
  unfold Transaction.serve
  rcases hexec : exec m (Session.init db) with ⟨x, s⟩
  rcases hexec' : exec m (Session.init db') with ⟨x', s'⟩
  rw [hexec, hexec'] at hresult hleft
  obtain rfl : x = x' := hresult
  cases x with
  | error e => exact ⟨rfl, hleft.committed⟩
  | ok a => exact ⟨rfl, hleft.committed⟩

end ProjectEvaluation.Transaction
