import ProjectEvaluation.Lib.Machine
import ProjectEvaluation.Pages.Catalog
import ProjectEvaluation.Pages.EMRStandardClause

/-!
# Filtered lists

A page with filters sends a request at its start and at every change of a filter, and
shows the answer that arrived last, in whatever order the answers come.

Results:
* `filtered_list_settles`: the lists of the EMR clause page and of the catalog show an
  answer for their filters whenever no request is in flight, in every run where an answer
  for other filters arrives only while a request for those of the page is in flight.
-/

namespace ProjectEvaluation.Pages

open Machine

/-! ## The machine -/

/-- A page with filters `F`, whose requests have the parameters `Q` and whose answers are
    lists `α`. The requests are numbered in the order they were sent. -/
structure FilteredList (F Q α : Type) where
  filters : F
  sent : List Q
  inFlight : List ℕ
  list : α

/-- What happens to such a page. -/
inductive FilterEvent (F : Type)
  | change (filters : F)
  | answer (i : ℕ)

namespace FilteredList

section Steps

variable {F Q α : Type} [DecidableEq F] [DecidableEq Q] (params : F → Q) (answers : ℕ → α)

/-- The page after its first render, which sent a number of requests. -/
def mount (filters : F) (requests : ℕ) (list : α) : FilteredList F Q α where
  filters
  sent := List.replicate requests (params filters)
  inFlight := List.range requests
  list

/-- A new value of the filters; the effect sends a request. -/
def change (s : FilteredList F Q α) (filters : F) : FilteredList F Q α :=
  if filters = s.filters then s
  else
    { s with
      filters, sent := s.sent ++ [params filters], inFlight := s.inFlight ++ [s.sent.length] }

/-- One event. -/
def step (s : FilteredList F Q α) : FilterEvent F → Option (FilteredList F Q α)
  | .change filters => some (s.change params filters)
  | .answer i => if i ∈ s.inFlight
      then some { s with list := answers i, inFlight := s.inFlight.erase i } else none

/-- The list is an answer for the filters of the page. -/
def Right (s : FilteredList F Q α) : Prop :=
  ∃ i, s.sent[i]? = some (params s.filters) ∧ s.list = answers i

/-- A request for the filters of the page is in flight. -/
def Awaited (s : FilteredList F Q α) : Prop :=
  ∃ i ∈ s.inFlight, s.sent[i]? = some (params s.filters)

instance (s : FilteredList F Q α) : Decidable (s.Awaited params) := by
  unfold Awaited; infer_instance

/-- An answer for other filters arrives only while a request for those of the page is in
    flight. -/
def InOrder (s : FilteredList F Q α) : FilterEvent F → Prop
  | .change _ => True
  | .answer i => s.sent[i]? ≠ some (params s.filters) → s.Awaited params

instance (s : FilteredList F Q α) (e : FilterEvent F) : Decidable (s.InOrder params e) := by
  cases e <;> (unfold InOrder; infer_instance)

end Steps

section Runs

variable {F Q α : Type} {params : F → Q} {answers : ℕ → α}

/-- A page that sent a request at its start awaits the answer. -/
theorem mount_awaited (filters : F) {requests : ℕ} (h : 0 < requests) (list : α) :
    (mount params filters requests list).Awaited params := by
  refine ⟨0, List.mem_range.mpr h, ?_⟩
  rw [mount, List.getElem?_replicate]
  exact if_pos h

variable [DecidableEq F]

theorem change_awaited {s : FilteredList F Q α} (h : s.Awaited params ∨ s.Right params answers)
    (filters : F) :
    (s.change params filters).Awaited params ∨ (s.change params filters).Right params answers := by
  unfold change
  split_ifs
  · exact h
  · refine Or.inl ⟨s.sent.length, List.mem_append_right _ List.mem_cons_self, ?_⟩
    exact List.getElem?_concat_length

variable [DecidableEq Q]

/-- **One event** in order: the list is an answer for the filters, or one is awaited. -/
theorem step_awaited {s s' : FilteredList F Q α} {e : FilterEvent F}
    (h : s.Awaited params ∨ s.Right params answers) (horder : s.InOrder params e)
    (hstep : s.step params answers e = some s') : s'.Awaited params ∨ s'.Right params answers := by
  cases e with
  | change filters =>
    cases hstep
    exact change_awaited h filters
  | answer i =>
    simp only [step] at hstep
    split_ifs at hstep
    cases hstep
    by_cases hown : s.sent[i]? = some (params s.filters)
    · exact Or.inr ⟨i, hown, rfl⟩
    · obtain ⟨j, hj, hsent⟩ := horder hown
      have hne : j ≠ i := by
        rintro rfl
        exact hown hsent
      exact Or.inl ⟨j, (List.mem_erase_of_ne hne).mpr hj, hsent⟩

/-- **Runs in order** end with an answer for the filters when nothing is in flight. -/
theorem settles {s t : FilteredList F Q α} {es : List (FilterEvent F)}
    (hstart : s.Awaited params ∨ s.Right params answers)
    (horder : Always (step params answers) (InOrder params) s es)
    (h : exec (step params answers) s es = some t)
    (hquiet : t.inFlight = []) : t.Right params answers := by
  have hinv := horder.invariant (I := fun s => s.Awaited params ∨ s.Right params answers)
    (fun s e s' hs hgood hstep => step_awaited hs hgood hstep) hstart h
  rcases hinv with ⟨i, hi, -⟩ | hright
  · rw [hquiet] at hi
    cases hi
  · exact hright

end Runs

end FilteredList

/-! ## The two pages -/

/-- The EMR clause page after its first render: an unfiltered request, and another one if
    the URL names a standard. -/
def clausePage {α : Type} (urlStandardId : Option String) (clauses : α) :
    FilteredList ClauseFilters (List (String × String)) α :=
  let page := FilteredList.mount clauseParams ClauseFilters.initial 1 clauses
  if JavaScript.truthy urlStandardId then
    page.change clauseParams { ClauseFilters.initial with standardId := urlStandardId.getD "" }
  else page

/-- The catalog after its first render: both effects send a request. -/
def catalogPage {α : Type} (coursewareList : α) :
    FilteredList (Option String) (List (String × String)) α :=
  FilteredList.mount coursewareParams none 2 coursewareList

/-- **Filtered lists.** On the EMR clause page and in the catalog, in every run where an
    answer for other filters arrives only while a request for the filters of the page is in
    flight, the list is an answer for the filters of the page whenever nothing is in
    flight. -/
theorem filtered_list_settles {α : Type} (answers : ℕ → α) (list : α) :
    (∀ urlStandardId es s,
      exec (FilteredList.step clauseParams answers) (clausePage urlStandardId list) es = some s →
      Always (FilteredList.step clauseParams answers) (FilteredList.InOrder clauseParams)
        (clausePage urlStandardId list) es →
      s.inFlight = [] → s.Right clauseParams answers) ∧
    (∀ es s,
      exec (FilteredList.step coursewareParams answers) (catalogPage list) es = some s →
      Always (FilteredList.step coursewareParams answers) (FilteredList.InOrder coursewareParams)
        (catalogPage list) es →
      s.inFlight = [] → s.Right coursewareParams answers) := by
  constructor
  · intro urlStandardId es s h horder hquiet
    refine FilteredList.settles ?_ horder h hquiet
    have hmount : (FilteredList.mount clauseParams ClauseFilters.initial 1 list).Awaited
        clauseParams ∨
        (FilteredList.mount clauseParams ClauseFilters.initial 1 list).Right clauseParams answers :=
      Or.inl (FilteredList.mount_awaited ClauseFilters.initial Nat.one_pos list)
    unfold clausePage
    split_ifs
    · exact FilteredList.change_awaited hmount _
    · exact hmount
  · intro es s h horder hquiet
    exact FilteredList.settles
      (Or.inl (FilteredList.mount_awaited none Nat.two_pos list)) horder h hquiet

/-- The answers of a server: all clauses, and those of one standard. -/
def twoAnswers : ℕ → List ℕ
  | 0 => [1, 2]
  | _ => [1]

/-- The unfiltered answer arrives last and stays. -/
theorem late_answer_not_right :
    ∃ s, exec (FilteredList.step clauseParams twoAnswers) (clausePage (some "S1") []) [.answer 1,
      .answer 0] = some s ∧
      s.inFlight = [] ∧ s.list = [1, 2] ∧ ¬ s.Right clauseParams twoAnswers := by
  refine ⟨_, rfl, rfl, rfl, ?_⟩
  rintro ⟨i, hsent, hlist⟩
  rcases i with _ | i
  · exact absurd hsent (by decide)
  · exact absurd hlist (by simp [twoAnswers])

/-- The answers in the order of their requests. -/
theorem early_answers_right :
    ∃ s, exec (FilteredList.step clauseParams twoAnswers) (clausePage (some "S1") []) [.answer 0,
      .answer 1] = some s ∧
      s.list = [1] ∧ s.Right clauseParams twoAnswers :=
  ⟨_, rfl, rfl, (filtered_list_settles twoAnswers []).1 (some "S1") [.answer 0, .answer 1] _ rfl
    (by decide) rfl⟩

end ProjectEvaluation.Pages
