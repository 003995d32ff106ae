import Mathlib.Data.Nat.Log
import ProjectEvaluation.Pages.EMRStandardClause
import ProjectEvaluation.Properties.ClauseRows

/-!
# Importing clauses

The page POSTs the clauses of a file one after the other, and reports a failure at the first POST
that fails. Every POST is a transaction of its own.

Results:
* `postClauses_succeeds_iff`, `postClauses_once`: when all POSTs succeed, and what they add then.
* `failed_import_iff`: when a reported failure leaves the table as it was, so that the file can be
imported again. -/

namespace ProjectEvaluation.Pages

open Python Relational Backend

/-! ## The loop -/

/-- What becomes of a request: it is answered, it does not get to the server, or its answer does not
    get back. -/
inductive Delivery
  | answered
  | requestLost
  | answerLost
  deriving DecidableEq

/-- `axios.post` of a clause: whether it resolves, and the tables of the server. -/
def postClause (k : Clock) (delivery : Delivery) (clause : ClauseData) (db : DB) : Bool × DB :=
  let served := handle k (.create .clause (.json clause.json)) db
  match delivery with
  | .answered => (served.1.Success, served.2)
  | .requestLost => (false, db)
  | .answerLost => (false, served.2)

/-- The loop of `handleFileUpload`: whether the page reports a success, and the tables of the
    server. -/
def postClauses (k : ℕ → Clock) (delivery : ℕ → Delivery) : List ClauseData → DB → Bool × DB
  | [], db => (true, db)
  | clause :: clauses, db =>
    let posted := postClause (k 0) (delivery 0) clause db
    if posted.1 then postClauses (fun i => k (i + 1)) (fun i => delivery (i + 1)) clauses posted.2
    else (false, posted.2)

/-! ## One clause -/

/-- The texts of a clause. -/
def ClauseData.text (clause : ClauseData) : Field → String
  | .standardId => clause.standardId
  | .projectCode => clause.projectCode
  | .workRole => clause.workRole
  | .businessProject => clause.businessProject
  | .evaluationCategory => clause.evaluationCategory
  | .mainEvaluationContent => clause.mainEvaluationContent
  | .dataQualityEvaluationContent => clause.dataQualityEvaluationContent
  | _ => ""

/-- The score of a clause as a column holds it. -/
def ClauseData.score (clause : ClauseData) : Value := 
  clause.functionScore.elim .null fun x => .real (.finite x)

/-- A row with the values of a clause. -/
def IsClause (clause : ClauseData) (row : Record) : Prop := HoldsClause clause.text clause.score row

/-- A score of the page can be stored. -/
theorem bind_score (clause : ClauseData) :
    bindJson .float (scoreJson clause.functionScore) = .ok clause.score := by
  unfold ClauseData.score
  cases clause.functionScore with
  | none => rfl
  | some x =>
    rw [scoreJson]
    split_ifs with hint
    · have hvalue : (x.value.num : ℚ) = x.value := Rat.coe_int_num_of_den_eq_one hint.1
      have hfloat : intAsFloat x.value.num = .ok (.finite x) := by
        rw [intAsFloat, hvalue, if_pos x.small, Binary64.ofRat_value]
      rw [bindJson, hfloat]
      rfl
    · rfl

section Post

variable (k : Clock) (clause : ClauseData) {db : DB}

/-- A POST of a clause that gets to the server adds its row, as long as there are ids left. -/
theorem post_adds (hid : nextId (db .emrStandardClause) < 2 ^ 63) :
    (handle k (.create .clause (.json clause.json)) db).1.Success ∧
      ∃ row, (handle k (.create .clause (.json clause.json)) db).2 .emrStandardClause =
        db .emrStandardClause ++ [row] ∧
        row.id = nextId (db .emrStandardClause) ∧ IsClause clause row :=
  clause_created k clause.text (bind_score clause) db hid

/-- Without an id left a POST fails, and changes nothing. -/
theorem post_refused (hid : 2 ^ 63 ≤ nextId (db .emrStandardClause)) (delivery : Delivery) :
    postClause k delivery clause db = (false, db) := by
  have hbad := clause_refused k (.json clause.json) hid
  have hsame := unsuccessful_changes_nothing k _ db hbad
  cases delivery with
  | answered => exact Prod.ext (decide_eq_false hbad) hsame
  | requestLost => rfl
  | answerLost => exact Prod.ext rfl hsame

end Post

/-! ## A file -/

/-- **The first POST** of a file: its clause is stored and the loop goes on, or its clause is stored
    but the answer is lost, or nothing is stored. -/
theorem postClauses_cases (k : ℕ → Clock) (delivery : ℕ → Delivery) (clause : ClauseData)
    (clauses : List ClauseData) (db : DB) :
    (delivery 0 = .answered ∧ nextId (db .emrStandardClause) < 2 ^ 63 ∧ ∃ row db',
      db' .emrStandardClause = db .emrStandardClause ++ [row] ∧
      row.id = nextId (db .emrStandardClause) ∧ IsClause clause row ∧
      postClauses k delivery (clause :: clauses) db =
        postClauses (fun i => k (i + 1)) (fun i => delivery (i + 1)) clauses db') ∨
    (delivery 0 = .answerLost ∧ nextId (db .emrStandardClause) < 2 ^ 63 ∧ ∃ row db',
      db' .emrStandardClause = db .emrStandardClause ++ [row] ∧
      postClauses k delivery (clause :: clauses) db = (false, db')) ∨
    ((delivery 0 = .requestLost ∨ 2 ^ 63 ≤ nextId (db .emrStandardClause)) ∧
      postClauses k delivery (clause :: clauses) db = (false, db)) := by
  rcases lt_or_ge (nextId (db .emrStandardClause)) (2 ^ 63) with hid | hid
  · obtain ⟨hgood, row, hrows, hrow, hclause⟩ := post_adds (k 0) clause hid
    cases hdelivery : delivery 0 with
    | answered =>
      refine Or.inl ⟨rfl, hid, row, _, hrows, hrow, hclause, ?_⟩
      rw [postClauses, hdelivery]
      exact if_pos (decide_eq_true hgood)
    | requestLost =>
      refine Or.inr (Or.inr ⟨Or.inl rfl, ?_⟩)
      rw [postClauses, hdelivery]
      rfl
    | answerLost =>
      refine Or.inr (Or.inl ⟨rfl, hid, row, _, hrows, ?_⟩)
      rw [postClauses, hdelivery]
      rfl
  · refine Or.inr (Or.inr ⟨Or.inr hid, ?_⟩)
    rw [postClauses, post_refused (k 0) clause hid (delivery 0)]
    rfl

/-- An import only adds rows. -/
theorem postClauses_adds (k : ℕ → Clock) (delivery : ℕ → Delivery)
    (clauses : List ClauseData) (db : DB) :
    ∃ rows, (postClauses k delivery clauses db).2 .emrStandardClause =
      db .emrStandardClause ++ rows := by
  induction clauses generalizing k delivery db with
  | nil => exact ⟨[], (List.append_nil _).symm⟩
  | cons clause clauses ih =>
    rcases postClauses_cases k delivery clause clauses db with ⟨-, -, row, db', hrows, -, -, heq⟩ |
      ⟨-, -, row, db', hrows, heq⟩ | ⟨-, heq⟩
    · obtain ⟨rest, hrest⟩ := ih (fun i => k (i + 1)) (fun i => delivery (i + 1)) db'
      refine ⟨row :: rest, ?_⟩
      rw [heq, hrest, hrows, List.append_assoc]
      rfl
    · rw [heq]
      exact ⟨[row], hrows⟩
    · rw [heq]
      exact ⟨[], (List.append_nil _).symm⟩

/-- **An import succeeds** iff every POST is answered and there are ids left. -/
theorem postClauses_succeeds_iff (k : ℕ → Clock) (delivery : ℕ → Delivery)
    (clauses : List ClauseData) (db : DB) :
    (postClauses k delivery clauses db).1 = true ↔
      ∀ i < clauses.length, delivery i = .answered ∧
        nextId (db .emrStandardClause) + i < 2 ^ 63 := by
  induction clauses generalizing k delivery db with
  | nil => exact iff_of_true rfl nofun
  | cons clause clauses ih =>
    rw [List.length_cons, Nat.forall_lt_succ_left]
    rcases postClauses_cases k delivery clause clauses db with ⟨hdelivery, hid, row, db', hrows,
      hrow, -, heq⟩ |
      ⟨hdelivery, -, row, db', -, heq⟩ | ⟨hfail, heq⟩
    · rw [heq, ih, hrows, nextId_append_new _ hrow, hdelivery, and_iff_right ⟨rfl, hid⟩]
      refine forall₂_congr fun i _ => and_congr_right fun _ => ?_
      omega
    · rw [heq, hdelivery]
      exact iff_of_false Bool.false_ne_true fun h => nomatch h.1.1
    · rw [heq]
      refine iff_of_false Bool.false_ne_true fun h => ?_
      rcases hfail with hlost | hid
      · exact nomatch hlost.symm.trans h.1.1
      · exact absurd h.1.2 (by omega)

/-- **An import that succeeds** adds every clause once, in the order of the file. -/
theorem postClauses_once (k : ℕ → Clock) (delivery : ℕ → Delivery)
    (clauses : List ClauseData) (db : DB)
    (hgood : (postClauses k delivery clauses db).1 = true) :
    ∃ rows, (postClauses k delivery clauses db).2 .emrStandardClause =
      db .emrStandardClause ++ rows ∧
      List.Forall₂ IsClause clauses rows := by
  induction clauses generalizing k delivery db with
  | nil => exact ⟨[], (List.append_nil _).symm, .nil⟩
  | cons clause clauses ih =>
    rcases postClauses_cases k delivery clause clauses db with ⟨-, -, row, db', hrows, -,
      hclause, heq⟩ |
      ⟨-, -, row, db', -, heq⟩ | ⟨-, heq⟩
    · rw [heq] at hgood ⊢
      obtain ⟨rest, hrest, hall⟩ := ih _ _ db' hgood
      refine ⟨row :: rest, ?_, .cons hclause hall⟩
      rw [hrest, hrows, List.append_assoc]
      rfl
    · rw [heq] at hgood
      cases hgood
    · rw [heq] at hgood
      cases hgood

/-! ## Importing again -/

/-- Where the page reports a failure, no clause of the file was added, and the next import that
    succeeds adds each once. -/
def FailsClean (k : ℕ → Clock) (delivery : ℕ → Delivery) (clauses : List ClauseData)
    (db : DB) : Prop :=
  let first := postClauses k delivery clauses db
  first.1 = false → first.2 .emrStandardClause = db .emrStandardClause ∧
    ∀ k' delivery', let again := postClauses k' delivery' clauses first.2
      again.1 = true → ∃ rows, again.2 .emrStandardClause = db .emrStandardClause ++ rows ∧
        List.Forall₂ IsClause clauses rows

/-- **A failed import** of a file leaves the table as it was, so that the file can be imported
    again, iff the first POST stores nothing; otherwise no POST may fail. -/
theorem failed_import_iff (standardId csvContent : String) (k : ℕ → Clock)
    (delivery : ℕ → Delivery) (db : DB) :
    FailsClean k delivery (handleFileUpload standardId csvContent) db ↔
      (delivery 0 = .requestLost ∨ 2 ^ 63 ≤ nextId (db .emrStandardClause)) ∨
        ∀ i < (handleFileUpload standardId csvContent).length,
          delivery i = .answered ∧ nextId (db .emrStandardClause) + i < 2 ^ 63 := by
  generalize handleFileUpload standardId csvContent = clauses
  rw [← postClauses_succeeds_iff k delivery clauses db]
  cases clauses with
  | nil => exact iff_of_true (fun h => nomatch h) (Or.inr rfl)
  | cons clause clauses =>
    rcases postClauses_cases k delivery clause clauses db with ⟨hdelivery, hid, row, db', hrows,
      -, -, heq⟩ |
      ⟨hdelivery, hid, row, db', hrows, heq⟩ | ⟨hfail, heq⟩
    · have hfirst : ¬ (delivery 0 = .requestLost ∨ 2 ^ 63 ≤ nextId (db .emrStandardClause)) := by
        rw [hdelivery]
        exact fun h => h.elim nofun (by omega)
      rw [or_iff_right hfirst]
      constructor
      · intro hclean
        by_contra hbad
        obtain ⟨hsame, -⟩ := hclean (Bool.eq_false_of_not_eq_true hbad)
        obtain ⟨rest, hrest⟩ :=
          postClauses_adds (fun i => k (i + 1)) (fun i => delivery (i + 1)) clauses db'
        rw [heq, hrest, hrows, List.append_assoc] at hsame
        simp at hsame
      · intro hgood hbad
        exact absurd hbad (by rw [hgood]; decide)
    · refine iff_of_false (fun hclean => ?_) ?_
      · obtain ⟨hsame, -⟩ := hclean (by rw [heq])
        rw [heq] at hsame
        have hlength := congrArg List.length (hrows.symm.trans hsame)
        simp at hlength
      · rw [heq, hdelivery]
        exact fun h => h.elim (fun h => h.elim nofun (by omega)) nofun
    · refine iff_of_true (fun _ => ?_) (Or.inl hfail)
      rw [heq]
      exact ⟨rfl, fun k' delivery' hgood =>
        postClauses_once k' delivery' (clause :: clauses) db hgood⟩

/-- A file with two clauses. -/
def twoClauses : String := "h\nS1,P1,A,B,C,D,1,\nS1,P2,A,B,C,D,2,\n"

/-- The second POST of a file is lost: the first clause is stored although a failure is reported,
    and importing the file again stores it twice. -/
theorem failed_import_duplicates :
    let first := postClauses (fun _ => .epoch) (fun i => if i = 1 then .requestLost else .answered)
      (handleFileUpload "" twoClauses) fun _ => []
    let again :=
      postClauses (fun _ => .epoch) (fun _ => .answered) (handleFileUpload "" twoClauses) first.2
    first.1 = false ∧ again.1 = true ∧
      (first.2 .emrStandardClause).map (fun row => row.cell .projectCode) = [.text "P1"] ∧
      (again.2 .emrStandardClause).map (fun row => row.cell .projectCode) =
        [.text "P1", .text "P1", .text "P2"] := by
  decide +kernel

end ProjectEvaluation.Pages
