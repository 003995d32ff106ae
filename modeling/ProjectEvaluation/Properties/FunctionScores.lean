import ProjectEvaluation.Pages.EvaluationProject
import ProjectEvaluation.Properties.ClauseRows

/-!
# The list of the scores

The scores of the clauses are offered as options, under their integer parts. The handlers store any
number a client sends; an infinity has no integer part.

Results:
* `scores_offered`: what the list of the scores holds where no score is infinite.
* `scores_read_iff`: the list can be read iff no score is infinite.
* `options_throughout`: in a run that stores no infinite score the list can be read in every state.
-/

namespace ProjectEvaluation.Backend

open Python Relational Transaction

/-! ## Distinct values -/

theorem nodup_eraseDups {α : Type} [BEq α] [LawfulBEq α] (l : List α) : l.eraseDups.Nodup := by
  induction h : l.length using Nat.strong_induction_on generalizing l with
  | _ n ih =>
    cases l with
    | nil => exact List.nodup_nil
    | cons a l =>
      rw [List.eraseDups_cons]
      have hlt : (l.filter fun b => !b == a).length < n := by
        have hle := List.length_filter_le (fun b => !b == a) l
        rw [List.length_cons] at h
        omega
      refine List.nodup_cons.mpr ⟨fun hmem => ?_, ih _ hlt _ rfl⟩
      simp [List.mem_eraseDups] at hmem

/-! ## Options -/

/-- The integer part of a score. -/
def integerPart : Value → ℤ
  | .real (.finite x) => if 0 ≤ x.value then ⌊x.value⌋ else ⌈x.value⌉
  | _ => 0

/-- An option of the list. -/
def optionObject (score : Value) : Json :=
  .dict [(.value, score.toJson), (.name, .str (toString (integerPart score)))]

/-- No clause has an infinite score. -/
def ScoresFinite (db : DB) : Prop :=
  ∀ row ∈ db .emrStandardClause, ∀ negative, row.cell .functionScore ≠ .real (.inf negative)

/-- The list of the scores has one option for each score, under its integer part. -/
def OptionPerScore (db : DB) : Prop :=
  ∃ scores : List Value, getEmrFunctionScores db =
    { status := 200, body := .list (scores.map optionObject) } ∧
    scores.Nodup ∧ (∀ v, v ∈ scores ↔ v ≠ .null ∧ ∃ row ∈ db .emrStandardClause,
      row.cell .functionScore = v) ∧
    ((scores.map fun v => toString (integerPart v)).Nodup ↔
      ∀ v ∈ scores, ∀ w ∈ scores, integerPart v = integerPart w → v = w)

theorem tdiv_integerPart (x : Binary64.Finite) :
    x.value.num.tdiv x.value.den = integerPart (.real (.finite x)) := by
  rw [integerPart]
  generalize x.value = q
  split_ifs with hq
  · rw [Int.tdiv_eq_ediv_of_nonneg (Rat.num_nonneg.mpr hq), Rat.floor_def']
  · have hnonneg : 0 ≤ -q.num := by
      have hnum := Rat.num_neg.mpr (not_le.mp hq)
      omega
    rw [Rat.ceil_def', ← Int.tdiv_eq_ediv_of_nonneg hnonneg, Int.neg_tdiv, Int.neg_neg]

/-- The option of a score that a column of numbers holds. -/
theorem scoreOption_canonical {v : Value} (hcanonical : Canonical .float v) (hnull : v ≠ .null)
    (hfinite : ∀ negative, v ≠ .real (.inf negative)) : scoreOption v = .ok (optionObject v) := by
  have hfits := hcanonical.resolve_left hnull
  cases v with
  | real x =>
    cases x with
    | finite x =>
      rw [scoreOption, intOfValue, tdiv_integerPart]
      rfl
    | inf negative => exact absurd rfl (hfinite negative)
    | nan => cases hfits
  | _ => first | exact absurd rfl hnull | cases hfits

theorem mapM_ok {α β : Type} {f : α → Except Exn β} {g : α → β} {l : List α}
    (h : ∀ a ∈ l, f a = .ok (g a)) :
    l.mapM f = .ok (l.map g) := by
  induction l with
  | nil => rfl
  | cons a l ih =>
    rw [List.mapM_cons, h a List.mem_cons_self, ih fun b hb => h b (List.mem_cons_of_mem a hb)]
    rfl

/-- **The options** are those of the scores, where no score is infinite. -/
theorem scores_offered {db : DB} (hv : Valid db) (hfinite : ScoresFinite db) :
    OptionPerScore db := by
  have hmem : ∀ v, v ∈ (distinctValues .emrStandardClause .functionScore db).filter (· ≠ .null) ↔
      v ≠ .null ∧ ∃ row ∈ db .emrStandardClause, row.cell .functionScore = v := by
    intro v
    rw [List.mem_filter, distinctValues, List.mem_eraseDups, List.mem_map, decide_eq_true_eq]
    exact and_comm
  have hnodup : ((distinctValues .emrStandardClause .functionScore db).filter (· ≠ .null)).Nodup :=
    (nodup_eraseDups _).filter _
  refine ⟨_, ?_, hnodup, hmem, ?_⟩
  · have hoptions := mapM_ok (f := scoreOption) (g := optionObject) fun v hv' => by
      obtain ⟨hnull, row, hrow, rfl⟩ := (hmem v).mp hv'
      have hcanonical := hv.canonical _ _ (Table.mem_of_column scoreColumn) row hrow
      exact scoreOption_canonical hcanonical hnull (hfinite row hrow)
    rw [getEmrFunctionScores, hoptions]
  · rw [List.nodup_map_iff_inj_on hnodup]
    refine forall₂_congr fun v _ => forall₂_congr fun w _ => ?_
    rw [← String.toList_inj]
    exact ⟨fun h heq => h (congrArg _ (congrArg toString heq)),
      fun h heq => h (Pages.toString_inj heq)⟩

/-- Every value of a list that is read one by one can be read. -/
theorem ok_of_mapM {α β : Type} {f : α → Except Exn β} {l : List α} {bs : List β}
    (h : l.mapM f = .ok bs) :
    ∀ a ∈ l, ∃ b, f a = .ok b := by
  induction l generalizing bs with
  | nil => nofun
  | cons a l ih =>
    rw [List.mapM_cons] at h
    obtain ⟨b, hb, h⟩ := do_eq_ok.mp h
    obtain ⟨rest, hrest, -⟩ := do_eq_ok.mp h
    intro c hc
    rcases List.mem_cons.mp hc with rfl | hc
    · exact ⟨b, hb⟩
    · exact ih hrest c hc

/-- **The list can be read** iff no score is infinite. -/
theorem scores_read_iff {db : DB} (hv : Valid db) : (getEmrFunctionScores db).Success ↔
    ScoresFinite db := by
  constructor
  · intro hgood row hrow negative hinf
    unfold getEmrFunctionScores at hgood
    split at hgood
    case h_1 options hoptions =>
      have hscore : Value.real (.inf negative) ∈
          (distinctValues .emrStandardClause .functionScore db).filter (· ≠ .null) := by
        rw [List.mem_filter, distinctValues, List.mem_eraseDups, List.mem_map]
        exact ⟨⟨row, hrow, hinf⟩, decide_eq_true nofun⟩
      obtain ⟨_, hoption⟩ := ok_of_mapM hoptions _ hscore
      cases hoption
    case h_2 e _ => exact absurd hgood (uncaught_not_success e)
  · intro hfinite
    obtain ⟨_, hresponse, -⟩ := scores_offered hv hfinite
    rw [hresponse]
    exact (by norm_num : 200 < 400)

/-! ## Runs -/

/-- A request sends no infinite score for a clause. -/
def Request.SendsFinite : Request → Prop
  | .create .clause (.json data) | .update .clause _ (.json data) =>
    ∀ negative, scoreValue (bodyValue data .functionScore) ≠ .real (.inf negative)
  | _ => True

/-- A request that sends no infinite score stores none. -/
theorem finite_step {k : Clock} {request : Request} {db : DB} (hv : Valid db)
    (hfinite : ScoresFinite db)
    (hsends : request.SendsFinite) : ScoresFinite (handle k request db).2 := by
  rcases handle_cases k request db with ⟨-, hsame⟩ | ⟨hgood, -⟩
  · rw [hsame]
    exact hfinite
  by_cases hresource : request.resource = some .clause
  · refine bodyColumn_score.keeps hv
      (P := fun v => ∀ negative, v ≠ .real (.inf negative)) hfinite hgood hresource ?_ ?_
    · rintro data rfl
      exact hsends
    · rintro id data rfl -
      exact hsends
  · unfold ScoresFinite
    have hrows : (handle k request db).2 .emrStandardClause = db .emrStandardClause :=
      codeColumn_clause.other k request db hresource
    rw [hrows]
    exact hfinite

/-- **Every state of a run** that sends no infinite score has one option for each score, under its
    integer part; the list of the scores can be read. -/
theorem options_throughout (db : DB) (hv : Valid db) (hfinite : ScoresFinite db)
    (run : List (Clock × Request))
    (hsends : ∀ step ∈ run, step.2.SendsFinite) : Throughout OptionPerScore db run := by
  induction run generalizing db with
  | nil => exact scores_offered hv hfinite
  | cons step run ih =>
    obtain ⟨k, request⟩ := step
    have hnext := finite_step (k := k) hv hfinite (hsends _ List.mem_cons_self)
    exact ⟨scores_offered hv hfinite,
      ih _ (handle_valid hv) hnext fun step hstep => hsends step (List.mem_cons_of_mem _ hstep)⟩

/-- A clause with a score. -/
def scoredClause (score : ℚ) : Request :=
  .create .clause (.json (clauseBody (fun _ => "") (.float (.ofRat score))))

/-- A clause is created, given another score, and deleted. -/
theorem options_throughout_one : Throughout OptionPerScore (fun _ => [])
    [(.epoch, scoredClause (171 / 2)),
     (.epoch, .update .clause 1 (.json (.dict [(.functionScore, .str "90")]))),
     (.epoch, .delete .clause 1)] := by
  refine options_throughout (fun _ => []) valid_empty nofun _ fun step hstep => ?_
  simp only [List.mem_cons, List.not_mem_nil, or_false] at hstep
  obtain rfl | rfl | rfl := hstep
  · intro negative
    cases negative <;> decide +kernel
  · intro negative
    cases negative <;> decide +kernel
  · trivial

/-- The names of the options of a list. -/
def optionNames (response : Response) : List String :=
  match response.body with
  | .list options => options.filterMap fun
    | .dict [(.value, _), (.name, .str name)] => some name
    | _ => none
  | _ => []

/-- Two scores that are offered under one name. -/
theorem scores_one_name :
    ((afterRequests .epoch [scoredClause (6 / 5), scoredClause (3 / 2)] fun _ => [])
      .emrStandardClause).map
        (fun row => row.cell .functionScore) = [.real (.ofRat (6 / 5)), .real (.ofRat (3 / 2))] ∧
      optionNames (getEmrFunctionScores
        (afterRequests .epoch [scoredClause (6 / 5), scoredClause (3 / 2)] fun _ => [])) =
        ["1", "1"] := by
  decide +kernel

end ProjectEvaluation.Backend
