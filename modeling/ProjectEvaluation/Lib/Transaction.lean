import Mathlib.Control.Basic
import Mathlib.Logic.Basic

/-!
# Sessions of pending changes

A session works on a copy of a committed store. Changes are staged, a flush
applies them to the working copy, and only a commit makes the working copy
durable. Programs on a session can raise; whatever they did not commit is lost
when the session is closed.

The store `σ`, the staged operations `ω`, the errors `ε` and the function
`apply` that carries out one operation are parameters.

Results:
* `exec_stageAll`: staging a list of operations one by one only extends the
  list of pending operations.
* `exec_commit`: a commit carries out the pending operations in order, or drops
  all of them.
* `applyAll_preserves`: an invariant of the operations is an invariant of lists
  of them.
-/

namespace ProjectEvaluation.Transaction

variable {σ ω ε α β : Type}

/-! ## Results -/

theorem bind_eq_ok {x : Except ε α} {f : α → Except ε β} {b : β} :
    x.bind f = .ok b ↔ ∃ a, x = .ok a ∧ f a = .ok b := by
  cases x <;> simp [Except.bind]

theorem do_eq_ok {x : Except ε α} {f : α → Except ε β} {b : β} :
    (x >>= f) = .ok b ↔ ∃ a, x = .ok a ∧ f a = .ok b := bind_eq_ok

theorem map_eq_ok {x : Except ε α} {f : α → β} {b : β} :
    x.map f = .ok b ↔ ∃ a, x = .ok a ∧ f a = b := by
  cases x <;> simp [Except.map]

/-- The error of a result. -/
def failure : Except ε α → Option ε
  | .error e => some e
  | .ok _ => none

theorem failure_eq_none {x : Except ε α} : failure x = none ↔ ∃ a, x = .ok a := by
  cases x <;> simp [failure]

/-! ## Sessions -/

/-- A session: the durable store, the working copy and the staged operations. -/
structure Session (σ ω : Type) where
  committed : σ
  work : σ
  pending : List ω

/-- The session opened on a store. -/
def Session.init (db : σ) : Session σ ω := { committed := db, work := db, pending := [] }

@[simp] theorem Session.init_committed (db : σ) : (Session.init db : Session σ ω).committed = db :=
  rfl
@[simp] theorem Session.init_work (db : σ) : (Session.init db : Session σ ω).work = db := rfl
@[simp] theorem Session.init_pending (db : σ) : (Session.init db : Session σ ω).pending = [] := rfl

/-- Programs on a session that may raise `ε`. The changes made before a raise
    stay in the session. -/
abbrev Txn (σ ω ε : Type) := ExceptT ε (StateM (Session σ ω))

/-- The result of a program and the session it leaves. -/
def exec (m : Txn σ ω ε α) (s : Session σ ω) : Except ε α × Session σ ω := (ExceptT.run m).run s

/-- A primitive step on the session. -/
def step (f : Session σ ω → Except ε α × Session σ ω) : Txn σ ω ε α := ExceptT.mk f

@[simp] theorem exec_step (f : Session σ ω → Except ε α × Session σ ω) (s : Session σ ω) :
    exec (step f) s = f s := rfl

/-! ## Control -/

@[simp] theorem exec_pure (a : α) (s : Session σ ω) :
    exec (pure a : Txn σ ω ε α) s = (.ok a, s) := rfl

@[simp] theorem exec_throw (e : ε) (s : Session σ ω) :
    exec (throw e : Txn σ ω ε α) s = (.error e, s) := rfl

theorem exec_bind (m : Txn σ ω ε α) (f : α → Txn σ ω ε β) (s : Session σ ω) :
    exec (m >>= f) s =
      match exec m s with
      | (.ok a, s') => exec (f a) s'
      | (.error e, s') => (.error e, s') := by
  simp only [exec, ExceptT.run_bind, StateT.run_bind]
  rcases (ExceptT.run m).run s with ⟨_ | _, _⟩ <;> rfl

theorem exec_bind_ok {m : Txn σ ω ε α} {f : α → Txn σ ω ε β} {s s' : Session σ ω} {a : α}
    (h : exec m s = (.ok a, s')) : exec (m >>= f) s = exec (f a) s' := by
  rw [exec_bind, h]

theorem exec_bind_error {m : Txn σ ω ε α} {f : α → Txn σ ω ε β} {s s' : Session σ ω} {e : ε}
    (h : exec m s = (.error e, s')) : exec (m >>= f) s = (.error e, s') := by
  rw [exec_bind, h]

theorem exec_map (f : α → β) (m : Txn σ ω ε α) (s : Session σ ω) :
    exec (f <$> m) s =
      match exec m s with
      | (.ok a, s') => (.ok (f a), s')
      | (.error e, s') => (.error e, s') := by
  rw [← bind_pure_comp, exec_bind]
  rfl

/-- `try: m except Exception as e: handle(e)`; the changes `m` made stay. -/
def catching (m : Txn σ ω ε α) (handle : ε → Txn σ ω ε α) : Txn σ ω ε α :=
  step fun s =>
    match exec m s with
    | (.ok a, s') => (.ok a, s')
    | (.error e, s') => exec (handle e) s'

theorem exec_catching (m : Txn σ ω ε α) (handle : ε → Txn σ ω ε α) (s : Session σ ω) :
    exec (catching m handle) s =
      match exec m s with
      | (.ok a, s') => (.ok a, s')
      | (.error e, s') => exec (handle e) s' := rfl

/-- A pure computation that may raise. -/
def ofResult (x : Except ε α) : Txn σ ω ε α := step fun s => (x, s)

@[simp] theorem exec_ofResult (x : Except ε α) (s : Session σ ω) :
    exec (ofResult x) s = (x, s) := rfl

/-! ## Staging, flushing, committing -/

/-- `session.add` and attribute assignment: one more pending operation. -/
def stage (o : ω) : Txn σ ω ε Unit := step fun s => (.ok (), { s with pending := s.pending ++ [o] })

@[simp] theorem exec_stage (o : ω) (s : Session σ ω) :
    exec (stage o : Txn σ ω ε Unit) s = (.ok (), { s with pending := s.pending ++ [o] }) := rfl

/-- `session.rollback()`. -/
def rollback : Txn σ ω ε Unit :=
  step fun s => (.ok (), { s with work := s.committed, pending := [] })

@[simp] theorem exec_rollback (s : Session σ ω) :
    exec (rollback : Txn σ ω ε Unit) s = (.ok (), { s with work := s.committed, pending := [] }) :=
      rfl

section Apply

variable (apply : ω → σ → Except ε σ)

/-- A list of operations carried out in order. -/
def applyAll : List ω → σ → Except ε σ
  | [], w => .ok w
  | o :: os, w => (apply o w).bind (applyAll os)

@[simp] theorem applyAll_nil (w : σ) : applyAll apply [] w = .ok w := rfl

theorem applyAll_cons (o : ω) (os : List ω) (w : σ) :
    applyAll apply (o :: os) w = (apply o w).bind (applyAll apply os) := rfl

@[simp] theorem applyAll_singleton (o : ω) (w : σ) : applyAll apply [o] w = apply o w := by
  rw [applyAll_cons]; cases apply o w <;> rfl

theorem applyAll_append (os os' : List ω) (w : σ) :
    applyAll apply (os ++ os') w = (applyAll apply os w).bind (applyAll apply os') := by
  induction os generalizing w with
  | nil => rfl
  | cons o os ih =>
    rw [List.cons_append, applyAll_cons, applyAll_cons]
    cases apply o w with
    | error e => rfl
    | ok w' => exact ih w'

theorem applyAll_map {ι : Type} (f : ι → ω) (is : List ι) (w : σ) :
    applyAll apply (is.map f) w = applyAll (fun i => apply (f i)) is w := by
  induction is generalizing w with
  | nil => rfl
  | cons i is ih =>
    rw [List.map_cons, applyAll_cons, applyAll_cons]
    exact congrArg _ (funext ih)

/-- An invariant of the operations of a list is an invariant of the list. -/
theorem applyAll_preserves_mem {P : σ → Prop} :
    ∀ {os w w'}, (∀ o ∈ os, ∀ w w', P w → apply o w = .ok w' → P w') → P w →
      applyAll apply os w = .ok w' → P w' := by
  intro os
  induction os with
  | nil => rintro w _ - hw ⟨⟩; exact hw
  | cons o os ih =>
    intro w w' hP hw h
    rw [applyAll_cons, bind_eq_ok] at h
    obtain ⟨w₁, ho, h⟩ := h
    exact ih (fun o' ho' => hP o' (List.mem_cons_of_mem o ho'))
      (hP o List.mem_cons_self w w₁ hw ho) h

/-- An invariant of single operations is an invariant of lists of operations. -/
theorem applyAll_preserves {P : σ → Prop} (hP : ∀ o w w', P w → apply o w = .ok w' → P w')
    {os w w'} (hw : P w) (h : applyAll apply os w = .ok w') : P w' :=
  applyAll_preserves_mem apply (fun o _ => hP o) hw h

/-- `session.flush()`: carry out the pending operations on the working copy. A
    flush that fails rolls the session back. -/
def flush : Txn σ ω ε Unit :=
  step fun s =>
    match applyAll apply s.pending s.work with
    | .ok w => (.ok (), { s with work := w, pending := [] })
    | .error e => (.error e, { s with work := s.committed, pending := [] })

theorem exec_flush (s : Session σ ω) :
    exec (flush apply) s =
      match applyAll apply s.pending s.work with
      | .ok w => (.ok (), { s with work := w, pending := [] })
      | .error e => (.error e, { s with work := s.committed, pending := [] }) := rfl

/-- A query: the pending operations are flushed first (autoflush), then the
    working copy is read. -/
def query (f : σ → Except ε α) : Txn σ ω ε α := do
  flush apply
  step fun s => (f s.work, s)

theorem exec_query_clean (f : σ → Except ε α) {s : Session σ ω} (hs : s.pending = []) :
    exec (query apply f) s = (f s.work, s) := by
  obtain ⟨c, w, p⟩ := s
  subst hs
  exact exec_bind_ok (exec_flush apply _)

/-- A statement that bypasses the list of pending operations, such as a bulk
    delete: flush, then carry it out at once. -/
def execute (o : ω) : Txn σ ω ε Unit := do
  flush apply
  step fun s =>
    match apply o s.work with
    | .ok w => (.ok (), { s with work := w })
    | .error e => (.error e, s)

theorem exec_execute_clean (o : ω) {s : Session σ ω} (hs : s.pending = []) :
    exec (execute apply o) s =
      match apply o s.work with
      | .ok w => (.ok (), { s with work := w })
      | .error e => (.error e, s) := by
  obtain ⟨c, w, p⟩ := s
  subst hs
  exact exec_bind_ok (exec_flush apply _)

/-- `session.commit()`: flush, then make the working copy durable. -/
def commit : Txn σ ω ε Unit := do
  flush apply
  step fun s => (.ok (), { s with committed := s.work })

theorem exec_commit (s : Session σ ω) :
    exec (commit apply) s =
      match applyAll apply s.pending s.work with
      | .ok w => (.ok (), { committed := w, work := w, pending := [] })
      | .error e => (.error e, { s with work := s.committed, pending := [] }) := by
  rw [commit, exec_bind, exec_flush]
  cases applyAll apply s.pending s.work <;> rfl

/-! ## Requests -/

/-- Run a request on a store: open a session, run the program, answer an
    uncaught error by `onError`, drop what was not committed. -/
def serve (onError : ε → α) (m : Txn σ ω ε α) (db : σ) : α × σ :=
  match exec m (Session.init db) with
  | (.ok a, s) => (a, s.committed)
  | (.error e, s) => (onError e, s.committed)

theorem serve_of_exec_ok {onError : ε → α} {m : Txn σ ω ε α} {db : σ} {a : α} {s : Session σ ω}
    (h : exec m (Session.init db) = (.ok a, s)) : serve onError m db = (a, s.committed) := by
  simp only [serve, h]

theorem serve_of_exec_error {onError : ε → α} {m : Txn σ ω ε α} {db : σ} {e : ε} {s : Session σ ω}
    (h : exec m (Session.init db) = (.error e, s)) :
    serve onError m db = (onError e, s.committed) := by
  simp only [serve, h]

end Apply

/-! ## Staging loops -/

/-- Stage the operations of a list one by one, the way a loop of `session.add`
    or of attribute assignments does. Evaluating an entry may raise. -/
def stageAll : List (Except ε (Option ω)) → Txn σ ω ε Unit
  | [] => pure ()
  | x :: xs => do
    match ← ofResult x with
    | some o => stage o
    | none => pure ()
    stageAll xs

/-- The operations a staging loop stages, unless it raises. -/
def stagedOps : List (Except ε (Option ω)) → Except ε (List ω)
  | [] => .ok []
  | .error e :: _ => .error e
  | .ok none :: xs => stagedOps xs
  | .ok (some o) :: xs => (stagedOps xs).map (o :: ·)

/-- The operations of a staging loop that does not raise. -/
theorem stagedOps_eq_ok {xs : List (Except ε (Option ω))} {os : List ω} :
    stagedOps xs = .ok os ↔ (∀ x ∈ xs, ∃ y, x = .ok y) ∧ os = xs.filterMap fun x =>
      x.toOption.join := by
  induction xs generalizing os with
  | nil => simp [stagedOps, eq_comm]
  | cons x xs ih =>
    match x with
    | .error e => simp [stagedOps]
    | .ok none => simp [stagedOps, ih, Except.toOption]
    | .ok (some o) =>
      simp only [stagedOps, map_eq_ok, ih, List.forall_mem_cons, Except.toOption]
      constructor
      · rintro ⟨os', ⟨hall, rfl⟩, rfl⟩
        exact ⟨⟨⟨some o, rfl⟩, hall⟩, rfl⟩
      · rintro ⟨⟨-, hall⟩, rfl⟩
        exact ⟨_, ⟨hall, rfl⟩, rfl⟩

/-- A staging loop changes nothing but the pending operations, also when it
    raises half way. -/
theorem exec_stageAll (xs : List (Except ε (Option ω))) (s : Session σ ω) :
    (∃ e p, stagedOps xs = .error e ∧ exec (stageAll xs) s = (.error e, { s with pending := p })) ∨
    (∃ os, stagedOps xs = .ok os ∧
      exec (stageAll xs) s = (.ok (), { s with pending := s.pending ++ os })) := by
  induction xs generalizing s with
  | nil => exact Or.inr ⟨[], rfl, by simp [stageAll]⟩
  | cons x xs ih =>
    match x with
    | .error e =>
      refine Or.inl ⟨e, s.pending, rfl, ?_⟩
      rw [stageAll, exec_bind_error (exec_ofResult _ _)]
    | .ok none =>
      rw [stageAll, exec_bind_ok (exec_ofResult _ _)]
      exact ih s
    | .ok (some o) =>
      have hstep : exec (stageAll (.ok (some o) :: xs)) s =
          exec (stageAll xs) { s with pending := s.pending ++ [o] } := by
        rw [stageAll, exec_bind_ok (exec_ofResult _ _)]
        exact exec_bind_ok (exec_stage o s)
      rw [hstep]
      rcases ih { s with pending := s.pending ++ [o] } with ⟨e, p, h, hexec⟩ | ⟨os, h, hexec⟩
      · exact Or.inl ⟨e, p, by simp [stagedOps, h, Except.map], hexec⟩
      · refine Or.inr ⟨o :: os, by simp [stagedOps, h, Except.map], ?_⟩
        rw [hexec]
        simp

theorem stagedOps_filterMap (f : β → Option ω) (xs : List β) :
    stagedOps (xs.map fun x => (.ok (f x) : Except ε (Option ω))) = .ok (xs.filterMap f) := by
  induction xs with
  | nil => rfl
  | cons x xs ih =>
    cases hx : f x with
    | none => simp [stagedOps, hx, ih]
    | some o => simp [stagedOps, hx, ih, Except.map]

/-- Staging where no entry raises. -/
theorem exec_stageAll_filterMap (f : β → Option ω) (xs : List β) (s : Session σ ω) :
    exec (stageAll (xs.map fun x => (.ok (f x) : Except ε (Option ω)))) s =
      (.ok (), { s with pending := s.pending ++ xs.filterMap f }) := by
  rcases exec_stageAll (xs.map fun x => (.ok (f x) : Except ε (Option ω))) s with
    ⟨e, p, h, -⟩ | ⟨os, h, hexec⟩
  · rw [stagedOps_filterMap] at h; cases h
  · rw [stagedOps_filterMap] at h; cases h; exact hexec

/-- Staging operations that are all known. -/
theorem exec_stageAll_ok (os : List ω) (s : Session σ ω) :
    exec (stageAll (os.map fun o => (.ok (some o) : Except ε (Option ω)))) s =
      (.ok (), { s with pending := s.pending ++ os }) := by
  rw [exec_stageAll_filterMap, List.filterMap_some]

end ProjectEvaluation.Transaction
