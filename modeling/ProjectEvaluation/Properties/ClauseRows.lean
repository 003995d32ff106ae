import ProjectEvaluation.Backend.Routes.Clauses
import ProjectEvaluation.Properties.CodeLinks
import ProjectEvaluation.Properties.StoredRows

/-!
# The rows of the EMR clauses

Results:
* `clause_created`: a body with texts and a score that can be stored becomes a row.
* `bodyColumn_score`: the scores are what the bodies of the requests have for them.
-/

namespace ProjectEvaluation.Backend

open Python Relational Transaction

/-! ## Bodies with texts -/

/-- A body with texts and a score. -/
def clauseBody (text : Field → String) (score : Json) : Json :=
  .dict [(.standardId, .str (text .standardId)), (.projectCode, .str (text .projectCode)),
    (.workRole, .str (text .workRole)), (.businessProject, .str (text .businessProject)),
    (.evaluationCategory, .str (text .evaluationCategory)),
    (.mainEvaluationContent, .str (text .mainEvaluationContent)), (.functionScore, score),
    (.dataQualityEvaluationContent, .str (text .dataQualityEvaluationContent))]

/-- The texts of a clause. -/
def clauseTexts : List Field :=
  [.standardId, .projectCode, .workRole, .businessProject, .evaluationCategory,
   .mainEvaluationContent, .dataQualityEvaluationContent]

/-- A row with some texts and a score. -/
structure HoldsClause (text : Field → String) (score : Value) (row : Record) : Prop where
  texts : ∀ f ∈ clauseTexts, row.cell f = .text (text f)
  score : row.cell .functionScore = score

/-- The attributes of a body with texts. -/
def clauseAttrs (text : Field → String) (score : Json) : List (Field × Attr) :=
  clauseFields.map fun f => (f, .json (if f = .functionScore then score else .str (text f)))

theorem construct_clauseBody (text : Field → String) (score : Json) :
    construct (clauseBody text score) clauseSources = .ok (clauseAttrs text score) := rfl

/-- What a column of a clause stores for its attribute. -/
theorem clause_initial (k : Clock) (text : Field → String) {score : Json} {v : Value}
    (hscore : bindJson .float score = .ok v) :
    ∀ c ∈ Table.columns .emrStandardClause, c.initial k (clauseAttrs text score) =
      .ok (if c.field = .functionScore then v else .text (text c.field)) := by
  intro c hc
  by_cases hf : c.field = .functionScore
  · have hcolumn : Table.column .emrStandardClause .functionScore = some c :=
      hf ▸ Table.column_of_mem hc
    cases hcolumn
    show (optional .functionScore .float).initial k (clauseAttrs text score) = .ok v
    rw [Column.initial_eq_bind k (a := .json score) rfl (Or.inl rfl)]
    exact hscore
  · rw [if_neg hf]
    simp only [Table.columns, List.mem_cons, List.not_mem_nil, or_false] at hc
    rcases hc with rfl | rfl | rfl | rfl | rfl | rfl | rfl | rfl <;>
      first | rfl | exact absurd rfl hf

/-- **A body with texts** is accepted, as long as there are ids left, and becomes the next row. -/
theorem clause_created (k : Clock) (text : Field → String) {score : Json} {v : Value}
    (hscore : bindJson .float score = .ok v) (db : DB)
    (hid : nextId (db .emrStandardClause) < 2 ^ 63) :
    (handle k (.create .clause (.json (clauseBody text score))) db).1.Success ∧
      ∃ row, (handle k (.create .clause (.json (clauseBody text score))) db).2 .emrStandardClause =
          db .emrStandardClause ++ [row] ∧ row.id = nextId (db .emrStandardClause) ∧
            HoldsClause text v row := by
  have hinitial := clause_initial k text hscore
  have hprepare : ((construct (clauseBody text score) clauseSources).map .inr :
      Except Exn (Response ⊕ List (Field × Attr))) = .ok (.inr (clauseAttrs text score)) := by
    rw [construct_clauseBody]
    rfl
  have hgood : (handle k (.create .clause (.json (clauseBody text score))) db).1.Success := by
    refine create_succeeds hprepare hid (fun c hc => ⟨_, hinitial c hc, ?_, ?_⟩)
      fun _ _ => ⟨_, rfl⟩
    · intro hnull
      simp only [Table.columns, List.mem_cons, List.not_mem_nil, or_false] at hc
      rcases hc with rfl | rfl | rfl | rfl | rfl | rfl | rfl | rfl <;> first | rfl | cases hnull
    · have hunique : ∀ c ∈ Table.columns .emrStandardClause, c.unique = false := by decide
      exact hunique c hc
  obtain ⟨_, attrs, row, hbody, hattrs, hbuilt, hrow, hrows⟩ := create_stores (by decide) hgood
  cases hbody
  obtain rfl : clauseAttrs text score = attrs := Except.ok.inj hattrs
  have hcells : ∀ c ∈ Table.columns .emrStandardClause,
      row.cell c.field = if c.field = .functionScore then v else .text (text c.field) := by
    intro c hc
    exact Except.ok.inj ((hbuilt c hc).symm.trans (hinitial c hc))
  refine ⟨hgood, row, hrows, hrow, fun f hf => ?_, ?_⟩
  · have hcolumns : ∀ f ∈ clauseTexts, f ≠ .functionScore ∧ ∃ c ∈ Table.columns .emrStandardClause,
        c.field = f := by
      decide
    obtain ⟨hne, c, hc, rfl⟩ := hcolumns f hf
    rw [hcells c hc, if_neg hne]
  · have hcolumn : ∃ c ∈ Table.columns .emrStandardClause, c.field = .functionScore := by decide
    obtain ⟨c, hc, hfield⟩ := hcolumn
    have hcell := hcells c hc
    rwa [if_pos hfield, hfield] at hcell

/-- Without an id left nothing is stored. -/
theorem clause_refused (k : Clock) (body : Body) {db : DB}
    (hid : 2 ^ 63 ≤ nextId (db .emrStandardClause)) :
    ¬ (handle k (.create .clause body) db).1.Success := by
  rcases handle_create k .clause body db with ⟨hbad, -⟩ | ⟨-, _, _, _, -, -, hins, -⟩
  · exact hbad
  · exact absurd (insertRow_eq_ok.mp hins).1 (Nat.not_lt.mpr hid)

/-! ## Scores -/

/-- The score a column stores for a JSON value. -/
def scoreValue (j : Json) : Value := (bindJson .float j).toOption.getD .null

/-- The column of the scores. -/
theorem scoreColumn : Table.column .emrStandardClause .functionScore = some
    (optional .functionScore .float) :=
  rfl

theorem bodyColumn_score : BodyColumn .clause .functionScore (optional .functionScore .float) where
  column := scoreColumn
  default := rfl
  created _ _ _ _ h := construct_key h rfl
  updated _ _ _ _ h := Except.ok.inj h ▸ List.mem_map_of_mem (by decide)
  unreferring := by decide
  plain := by decide

end ProjectEvaluation.Backend
