import ProjectEvaluation.Properties.ClauseRows

/-!
# The filters of the EMR clauses

Results:
* `plain_query`: the clauses of a query whose words hold no `%`, `_` and NUL and are not too long.
* `meant_iff`: the queries that are answered with the clauses that meet all their criteria, words
  compared as they are.
-/

namespace ProjectEvaluation.Backend

open Python Relational Sqlite

/-! ## Criteria -/

/-- The text of a criterion that is not blank. -/
def given (arg : Option String) : Option String := arg.filter fun s => strip s ≠ ""

/-- Is a cell a text with a property? -/
def cellText (p : String → Bool) : Value → Bool
  | .text t => p t
  | _ => false

/-- Is a cell a number? A NaN is no number. -/
def cellNumber (x : PyFloat) (v : Value) : Bool := x ≠ .nan && v = .real x

/-- What a query asks for: the standard, words in any case, and the score, where it can be read. -/
def ClauseArgs.asks (args : ClauseArgs) (clause : Record) : Bool :=
  (args.standardId.filter fun s => s ≠ "").all (fun s => clause.cell .standardId = .text s) &&
    (given args.workRole).all (fun s => cellText (containsFolded · s) (clause.cell .workRole)) &&
    (given args.businessProject).all
      (fun s => cellText (containsFolded · s) (clause.cell .businessProject)) &&
    (args.functionScore.bind pyFloat).all (fun x => cellNumber x (clause.cell .functionScore))

/-- What a query can be taken to mean: all criteria that are not blank, words as they are, and a
    score that can be read. -/
def ClauseArgs.means (args : ClauseArgs) (clause : Record) : Bool :=
  (given args.standardId).all (fun s => clause.cell .standardId = .text s) &&
    (given args.workRole).all
      (fun s => cellText (fun t => decide (s.toList <:+: t.toList)) (clause.cell .workRole)) &&
    (given args.businessProject).all
      (fun s => cellText (fun t => decide (s.toList <:+: t.toList))
        (clause.cell .businessProject)) &&
    (given args.functionScore).all fun s =>
      (pyFloat s).any fun x => cellNumber x (clause.cell .functionScore)

/-- The patterns of a query are not too long. -/
def ClauseArgs.Short (args : ClauseArgs) : Prop :=
  ∀ arg ∈ [args.workRole, args.businessProject], ∀ s ∈ given arg, ¬ TooLong (containing s)

/-- The words of a query hold no `%`, no `_` and no NUL. -/
def ClauseArgs.Plain (args : ClauseArgs) : Prop :=
  ∀ arg ∈ [args.workRole, args.businessProject], ∀ s ∈ given arg, PlainWord s

section Filters

variable (f : Field) (arg : Option String) (clause : Record)

theorem equalFilter_eq :
    equalFilter f arg clause = (arg.filter fun s => s ≠ "").all fun s =>
      clause.cell f = .text s := by
  cases arg with
  | none => rfl
  | some s => by_cases hs : s = "" <;> simp [equalFilter, hs]

theorem likeFilter_eq (hshort : ∀ s ∈ given arg, ¬ TooLong (containing s)) :
    likeFilter f arg clause =
      .ok ((given arg).all fun s => cellText (sqlLike (containing s)) (clause.cell f)) := by
  cases arg with
  | none => rfl
  | some s =>
    by_cases hs : strip s = ""
    · simp [likeFilter, given, hs]
    · have hne : s ≠ "" := by
        rintro rfl
        exact hs (by decide)
      have hgiven : given (some s) = some s := by simp [given, hs]
      rw [likeFilter, if_pos ⟨hne, hs⟩, if_neg (hshort s (by rw [hgiven]; rfl)), hgiven,
        Option.all_some]
      cases clause.cell f <;> rfl

/-- A pattern that is too long ends the query. -/
theorem likeFilter_long {s : String} (hs : s ∈ given arg) (hlong : TooLong (containing s)) :
    likeFilter f arg clause = .error .operationalError := by
  obtain ⟨rfl, hblank⟩ := Option.filter_eq_some_iff.mp hs
  have hstrip : strip s ≠ "" := by simpa using hblank
  have hne : s ≠ "" := by
    rintro rfl
    exact hstrip (by decide)
  rw [likeFilter, if_pos ⟨hne, hstrip⟩, if_pos hlong]

theorem scoreFilter_eq :
    scoreFilter arg clause = (arg.bind pyFloat).all fun x =>
      cellNumber x (clause.cell .functionScore) := by
  cases arg with
  | none => rfl
  | some s =>
    by_cases hs : s = ""
    · rw [hs]
      rfl
    · simp only [scoreFilter, hs, if_false, Option.bind_some]
      cases pyFloat s with
      | none => rfl
      | some x => cases x <;> simp [cellNumber]

end Filters

/-- The clauses of a query with short patterns. -/
theorem ClauseArgs.Short.keeps_eq {args : ClauseArgs} (h : args.Short) (clause : Record) :
    args.keeps clause = .ok ((args.standardId.filter fun s => s ≠ "").all
        (fun s => clause.cell .standardId = .text s) &&
      (given args.workRole).all
        (fun s => cellText (sqlLike (containing s)) (clause.cell .workRole)) &&
      (given args.businessProject).all
        (fun s => cellText (sqlLike (containing s)) (clause.cell .businessProject)) &&
      (args.functionScore.bind pyFloat).all fun x =>
        cellNumber x (clause.cell .functionScore)) := by
  rw [ClauseArgs.keeps, likeFilter_eq _ _ _ (h _ List.mem_cons_self),
    likeFilter_eq _ _ _ (h args.businessProject (by simp)), equalFilter_eq, scoreFilter_eq]
  generalize (args.standardId.filter _).all _ = standard
  generalize (given args.workRole).all _ = role
  cases standard <;> cases role <;> rfl

/-- **A query** whose words hold no `%`, `_` and NUL and are not too long is answered with the
    clauses that it asks for. -/
theorem plain_query (args : ClauseArgs) (hshort : args.Short) (hplain : args.Plain) (db : DB) :
    getEmrStandardClauses args db = clauseList ((db .emrStandardClause).filter args.asks) := by
  have hwords : ∀ arg ∈ [args.workRole, args.businessProject], ∀ v,
      (given arg).all (fun s => cellText (sqlLike (containing s)) v) =
        (given arg).all fun s => cellText (containsFolded · s) v := by
    intro arg harg v
    cases hgiven : given arg with
    | none => rfl
    | some s =>
      have hword : sqlLike (containing s) = (containsFolded · s) :=
        funext (sqlLike_plain (hplain arg harg s hgiven))
      rw [Option.all_some, Option.all_some, hword]
  refine getEmrStandardClauses_eq fun clause _ => ?_
  rw [hshort.keeps_eq, hwords args.workRole (by simp), hwords args.businessProject (by simp),
    ClauseArgs.asks]

/-- The lists of two filters are answers with the same clauses only where the filters agree. -/
theorem clauseList_length {clauses clauses' : List Record}
    (h : clauseList clauses = clauseList clauses') :
    clauses.length = clauses'.length := by
  have hbody := congrArg Response.body h
  simp only [clauseList, Json.list.injEq] at hbody
  simpa using congrArg List.length hbody

/-- The texts of a row with a standard, a role and a project. -/
def rowTexts (standard role project : String) : Field → String
  | .standardId => standard
  | .workRole => role
  | .businessProject => project
  | _ => ""

/-- A clause for doctors. -/
def doctorClause : DB :=
  (handle .epoch (.create .clause (.json (clauseBody (rowTexts "S1" "Doctor 医生" "门诊") (.int 5))))
    fun _ => []).2

theorem plain_query_doctor :
    getEmrStandardClauses ⟨some "S1", some "doctor", some " ", some "5.0"⟩ doctorClause =
    clauseList ((doctorClause .emrStandardClause).filter
      (ClauseArgs.asks ⟨some "S1", some "doctor", some " ", some "5.0"⟩)) := by
  have hgiven : given (some "doctor") = some "doctor" ∧ given (some " ") = none := by decide
  refine plain_query _ (fun arg harg s hs => ?_) (fun arg harg s hs => ?_) _
  all_goals
    simp only [List.mem_cons, List.not_mem_nil, or_false] at harg
    rcases harg with rfl | rfl
  · rw [hgiven.1] at hs
    obtain rfl := Option.some.inj hs
    decide +kernel
  · rw [hgiven.2] at hs
    cases hs
  · rw [hgiven.1] at hs
    obtain rfl := Option.some.inj hs
    decide +kernel
  · rw [hgiven.2] at hs
    cases hs

/-- A query that is not answered with the clauses that meet its criteria. -/
theorem ne_of_length {args : ClauseArgs} (hshort : args.Short) {db : DB}
    (h : ((db .emrStandardClause).filter fun clause => args.keeps clause matches .ok true).length ≠
      ((db .emrStandardClause).filter args.means).length) :
    getEmrStandardClauses args db ≠ clauseList ((db .emrStandardClause).filter args.means) := by
  intro hsame
  rw [getEmrStandardClauses_eq fun row _ => hshort.keeps_eq row] at hsame
  refine h ((congrArg List.length (List.filter_congr fun clause _ => ?_)).trans
    (clauseList_length hsame))
  rw [hshort.keeps_eq]
  split <;> simp_all

/-- A score that cannot be read is not compared, and words are found in any case. -/
theorem doctor_found_anyway :
    getEmrStandardClauses ⟨none, none, none, some "abc"⟩ doctorClause ≠
        clauseList ((doctorClause .emrStandardClause).filter
          (ClauseArgs.means ⟨none, none, none, some "abc"⟩)) ∧
      getEmrStandardClauses ⟨none, some "doctor", none, none⟩ doctorClause ≠
        clauseList ((doctorClause .emrStandardClause).filter
          (ClauseArgs.means ⟨none, some "doctor", none, none⟩)) := by
  constructor
  · refine ne_of_length (fun arg harg s hs => ?_) (by decide +kernel)
    simp only [List.mem_cons, List.not_mem_nil, or_false, or_self] at harg
    subst harg
    cases hs
  · refine ne_of_length (fun arg harg s hs => ?_) (by decide +kernel)
    simp only [List.mem_cons, List.not_mem_nil, or_false] at harg
    rcases harg with rfl | rfl
    · have hgiven : given (some "doctor") = some "doctor" := by decide
      rw [hgiven] at hs
      obtain rfl := Option.some.inj hs
      decide +kernel
    · cases hs

/-! ## Words compared as they are -/

/-- The texts that the words of a query are looked for in are audible. -/
def AudibleRows (db : DB) : Prop :=
  ∀ row ∈ db .emrStandardClause, ∀ f ∈ [Field.workRole, .businessProject], ∀ t,
    row.cell f = .text t → ∀ c ∈ t.toList, Audible c

/-- The queries whose criteria are read as they are meant. -/
structure ClauseArgs.Exact (args : ClauseArgs) : Prop where
  standard : ∀ s ∈ args.standardId, s = "" ∨ strip s ≠ ""
  role : ∀ s ∈ given args.workRole, ∀ c ∈ s.toList, Literal c
  project : ∀ s ∈ given args.businessProject, ∀ c ∈ s.toList, Literal c
  score : ∀ s ∈ given args.functionScore, (pyFloat s).isSome

/-- A blank text is no number. -/
theorem pyFloat_blank {s : String} (hs : strip s = "") : pyFloat s = none := by
  have hchars : stripChars s.toList = [] := by
    rw [strip] at hs
    simpa using congrArg String.toList hs
  rw [pyFloat, hchars]
  rfl

/-- A row with the given texts and score. -/
theorem exists_row (text : Field → String) {score : Json} {v : Value}
    (hscore : bindJson .float score = .ok v) :
    ∃ db row, Valid db ∧ db .emrStandardClause = [row] ∧ HoldsClause text v row := by
  obtain ⟨-, row, hrows, -, hholds⟩ := clause_created .epoch text hscore (fun _ => []) (by decide)
  exact ⟨_, row, handle_valid valid_empty, hrows, hholds⟩

/-- A row is kept for its standard, its words and its score. -/
theorem keeps_row {args : ClauseArgs} (hshort : args.Short) {text : Field → String} {v : Value}
    {row : Record} (h : HoldsClause text v row) :
    args.keeps row =
      .ok ((args.standardId.filter fun s => s ≠ "").all (fun s => text .standardId = s) &&
      (given args.workRole).all (fun s => sqlLike (containing s) (text .workRole)) &&
      (given args.businessProject).all (fun s => sqlLike (containing s) (text .businessProject)) &&
      (args.functionScore.bind pyFloat).all (fun x => cellNumber x v)) := by
  rw [hshort.keeps_eq, h.score, h.texts _ (by decide), h.texts _ (by decide), h.texts _ (by decide)]
  simp only [Value.text.injEq, cellText]

/-- A row meets the criteria with its standard, its words and its score. -/
theorem means_row (args : ClauseArgs) {text : Field → String} {v : Value} {row : Record}
    (h : HoldsClause text v row) :
    args.means row = ((given args.standardId).all (fun s => text .standardId = s) &&
      (given args.workRole).all (fun s => decide (s.toList <:+: (text .workRole).toList)) &&
      (given args.businessProject).all
        (fun s => decide (s.toList <:+: (text .businessProject).toList)) &&
      (given args.functionScore).all (fun s => (pyFloat s).any fun x => cellNumber x v)) := by
  rw [ClauseArgs.means, h.score, h.texts _ (by decide), h.texts _ (by decide),
    h.texts _ (by decide)]
  simp only [Value.text.injEq, cellText]

/-- A score that is found where the query has one that can be read. -/
theorem exists_score {args : ClauseArgs} (hscore : args.functionScore.bind pyFloat ≠ some .nan) :
    ∃ score v, bindJson .float score = .ok v ∧
      (args.functionScore.bind pyFloat).all (fun x => cellNumber x v) = true := by
  cases hread : args.functionScore.bind pyFloat with
  | none => exact ⟨.null, .null, rfl, rfl⟩
  | some x =>
    have hx : x ≠ .nan := fun h => hscore (by rw [hread, h])
    refine ⟨.float x, .real x, ?_, ?_⟩
    · cases x <;> first | rfl | exact absurd rfl hx
    · simp [cellNumber, hx]

/-- A criterion is met by its own text. -/
theorem own_text (arg : Option String) (q : String → Bool) {p : String → String → Bool}
    {g : String → String}
    (hp : ∀ s, p s (g s) = true) : (arg.filter q).all (fun s => p s (g (arg.getD ""))) = true := by
  rw [Option.all_eq_true]
  intro t ht
  obtain ⟨hsome, -⟩ := Option.filter_eq_some_iff.mp ht
  rw [hsome]
  exact hp t

/-- What is heard of a word. -/
def heardText (word : String) : String := String.ofList (heard word.toList)

theorem heardText_audible (word : String) : ∀ c ∈ (heardText word).toList, Audible c := by
  rw [heardText, String.toList_ofList]
  exact heard_audible

/-- A query of one row that is answered with a list has read the row. -/
theorem keeps_of_answer {args : ClauseArgs} {db : DB} {row : Record} {q : Record → Bool}
    (hrows : db .emrStandardClause = [row])
    (h : getEmrStandardClauses args db = clauseList ((db .emrStandardClause).filter q)) :
    args.keeps row = .ok (q row) := by
  rw [getEmrStandardClauses, hrows] at h
  cases hkeeps : args.keeps row with
  | error e =>
    have herror : selectWhere args.keeps [row] = .error e := by
      rw [selectWhere, hkeeps]
      rfl
    rw [herror] at h
    refine absurd (uncaught_not_success e) (not_not.mpr ?_)
    rw [show uncaught e = _ from h]
    exact (by norm_num : 200 < 400)
  | ok b =>
    have hread : selectWhere args.keeps [row] = .ok ([row].filter fun _ => b) :=
      selectWhere_eq fun r hr => List.mem_singleton.mp hr ▸ hkeeps
    rw [hread] at h
    have hlength := clauseList_length h
    cases b <;> cases hq : q row <;> simp [hq] at hlength ⊢

section Meant

variable {args : ClauseArgs}

/-- A query that is answered as it is meant, on a row with given texts and a given score. -/
theorem agree_of_meant {score : Json} {v : Value} (hbind : bindJson .float score = .ok v)
    (hmeant : ∀ db, Valid db → AudibleRows db →
      getEmrStandardClauses args db = clauseList ((db .emrStandardClause).filter args.means))
    (standard : String) {role project : String} (hrole : ∀ c ∈ role.toList, Audible c)
    (hproject : ∀ c ∈ project.toList, Audible c) :
    ∃ row, HoldsClause (rowTexts standard role project) v row ∧
      args.keeps row = .ok (args.means row) := by
  obtain ⟨db, row, hv, hrows, hholds⟩ := exists_row (rowTexts standard role project) hbind
  refine ⟨row, hholds, keeps_of_answer hrows (hmeant db hv ?_)⟩
  rw [AudibleRows, hrows]
  intro r hr f hf t ht
  obtain rfl := List.mem_singleton.mp hr
  simp only [List.mem_cons, List.not_mem_nil, or_false] at hf
  rcases hf with rfl | rfl
  · obtain rfl := Value.text.inj ((hholds.texts _ (by decide)).symm.trans ht)
    exact hrole
  · obtain rfl := Value.text.inj ((hholds.texts _ (by decide)).symm.trans ht)
    exact hproject

/-- A query that is answered as it is meant has short patterns. -/
theorem short_of_meant (hmeant : ∀ db, Valid db → AudibleRows db →
      getEmrStandardClauses args db = clauseList ((db .emrStandardClause).filter args.means)) :
    args.Short := by
  have hnone : bindJson .float .null = .ok .null := rfl
  obtain ⟨row, hholds, hread⟩ := agree_of_meant hnone hmeant (args.standardId.getD "")
    (heardText_audible (args.workRole.getD "")) (heardText_audible (args.businessProject.getD ""))
  have hstandard : equalFilter .standardId args.standardId row = true := by
    rw [equalFilter_eq, hholds.texts _ (by decide)]
    simp only [Value.text.injEq]
    exact own_text args.standardId _ (p := fun s t => t = s) (g := id) fun s => decide_eq_true rfl
  rw [ClauseArgs.keeps, if_pos hstandard] at hread
  have hrole : ∀ s ∈ given args.workRole, ¬ TooLong (containing s) := by
    intro s hs hlong
    rw [likeFilter_long _ _ _ hs hlong] at hread
    cases hread
  have hfound : likeFilter .workRole args.workRole row = .ok true := by
    rw [likeFilter_eq _ _ _ hrole, hholds.texts _ (by decide)]
    refine congrArg Except.ok ?_
    exact own_text args.workRole _ (p := fun s t => sqlLike (containing s) t)
      (g := heardText) sqlLike_heard
  rw [hfound] at hread
  intro arg harg s hs hlong
  simp only [List.mem_cons, List.not_mem_nil, or_false] at harg
  rcases harg with rfl | rfl
  · exact hrole s hs hlong
  · rw [likeFilter_long _ _ _ hs hlong] at hread
    cases hread

/-- A query that is answered as it is meant has criteria that are read as they are meant. -/
theorem exact_of_meant (hscore : args.functionScore.bind pyFloat ≠ some .nan)
    (hmeant : ∀ db, Valid db → AudibleRows db →
      getEmrStandardClauses args db = clauseList ((db .emrStandardClause).filter args.means)) :
    args.Exact := by
  obtain ⟨score, v, hbind, hfound⟩ := exists_score hscore
  have hshort := short_of_meant hmeant
  -- both filters on one row with the score
  have hagree : ∀ standard role project : String, (∀ c ∈ role.toList, Audible c) →
      (∀ c ∈ project.toList, Audible c) →
      ((args.standardId.filter fun s => s ≠ "").all (fun s => standard = s) &&
        (given args.workRole).all (fun s => sqlLike (containing s) role) &&
        (given args.businessProject).all (fun s => sqlLike (containing s) project)) =
      ((given args.standardId).all (fun s => standard = s) &&
        (given args.workRole).all (fun s => decide (s.toList <:+: role.toList)) &&
        (given args.businessProject).all (fun s => decide (s.toList <:+: project.toList)) &&
        (given args.functionScore).all (fun s => (pyFloat s).any fun x => cellNumber x v)) := by
    intro standard role project hrole hproject
    obtain ⟨row, hholds, hsame⟩ := agree_of_meant hbind hmeant standard hrole hproject
    rw [keeps_row hshort hholds, means_row args hholds, hfound, Bool.and_true] at hsame
    exact Except.ok.inj hsame
  have hequal : (args.standardId.filter fun s => s ≠ "").all
      (fun s => args.standardId.getD "" = s) =
      true :=
        own_text args.standardId _ (p := fun s t => t = s) (g := id) fun s => decide_eq_true rfl
  have hlike (arg : Option String) :
      (given arg).all (fun s => sqlLike (containing s) (heardText (arg.getD ""))) = true :=
    own_text arg _ (p := fun s t => sqlLike (containing s) t) (g := heardText) sqlLike_heard
  have hown := hagree (args.standardId.getD "") _ _ (heardText_audible (args.workRole.getD ""))
    (heardText_audible (args.businessProject.getD ""))
  rw [hequal, hlike, hlike] at hown
  simp only [Bool.and_self, Bool.true_eq, Bool.and_eq_true] at hown
  obtain ⟨⟨⟨hgiven, hrole⟩, hproject⟩, hnumber⟩ := hown
  -- then a criterion of one column at a time
  refine ⟨fun s hs => ?_, fun s hs => ?_, fun s hs => ?_, fun s hs => ?_⟩
  · by_contra hblank
    rw [not_or, not_not] at hblank
    have hother := hagree (s ++ "x") _ _ (heardText_audible (args.workRole.getD ""))
      (heardText_audible (args.businessProject.getD ""))
    rw [hlike, hlike, hrole, hproject, hnumber, given, hs] at hother
    simp [hblank.1, hblank.2] at hother
  · refine (sqlLike_exact_iff s).mp fun t haudible => ?_
    have ht := hagree (args.standardId.getD "") t _ haudible
      (heardText_audible (args.businessProject.getD ""))
    rw [hequal, hlike, hgiven, hproject, hnumber, Option.mem_def.mp hs, Option.all_some,
      Option.all_some] at ht
    simp only [Bool.true_and, Bool.and_true] at ht
    rw [ht, decide_eq_true_eq]
  · refine (sqlLike_exact_iff s).mp fun t haudible => ?_
    have ht :=
      hagree (args.standardId.getD "") _ t (heardText_audible (args.workRole.getD "")) haudible
    rw [hequal, hlike, hgiven, hrole, hnumber, Option.mem_def.mp hs, Option.all_some,
      Option.all_some] at ht
    simp only [Bool.true_and, Bool.and_true] at ht
    rw [ht, decide_eq_true_eq]
  · obtain ⟨x, hx, -⟩ := (Option.any_eq_true _ _).mp ((Option.all_eq_true _ _).mp hnumber s hs)
    exact Option.isSome_of_mem hx

/-- Criteria that are read as they are meant keep the clauses that meet them. -/
theorem ClauseArgs.Exact.keeps (h : args.Exact) (hshort : args.Short) {clause : Record}
    (haudible : ∀ f ∈ [Field.workRole, .businessProject], ∀ t,
      clause.cell f = .text t → ∀ c ∈ t.toList, Audible c) :
    args.keeps clause = .ok (args.means clause) := by
  have hstandard : (args.standardId.filter fun s => s ≠ "") = given args.standardId := by
    cases harg : args.standardId with
    | none => rfl
    | some s =>
      have hblank : strip s = "" ↔ s = "" := by
        refine ⟨fun hs => (h.standard s harg).resolve_right (not_not.mpr hs), ?_⟩
        rintro rfl
        decide
      rw [given, Option.filter_some, Option.filter_some]
      simp only [ne_eq, hblank]
  have hwords : ∀ arg, (∀ s ∈ given arg, ∀ c ∈ s.toList, Literal c) →
      ∀ f ∈ [Field.workRole, .businessProject],
        (given arg).all (fun s => cellText (sqlLike (containing s)) (clause.cell f)) =
          (given arg).all fun s =>
            cellText (fun t => decide (s.toList <:+: t.toList)) (clause.cell f) := by
    intro arg hliteral f hf
    cases hgiven : given arg with
    | none => rfl
    | some s =>
      rw [Option.all_some, Option.all_some]
      cases hcell : clause.cell f with
      | text t =>
        rw [cellText, cellText, Bool.eq_iff_iff, decide_eq_true_eq]
        exact (sqlLike_exact_iff s).mpr (hliteral s hgiven) t (haudible f hf t hcell)
      | _ => rfl
  have hscore : ∀ p, (args.functionScore.bind pyFloat).all p =
      (given args.functionScore).all fun s => (pyFloat s).any p := by
    intro p
    have hread := h.score
    cases harg : args.functionScore with
    | none => rfl
    | some s =>
      rw [harg] at hread
      by_cases hblank : strip s = ""
      · simp [given, hblank, pyFloat_blank hblank]
      · have hgiven : given (some s) = some s := by simp [given, hblank]
        rw [hgiven] at hread ⊢
        obtain ⟨x, hx⟩ := Option.isSome_iff_exists.mp (hread s rfl)
        simp [hx]
  rw [hshort.keeps_eq, hstandard, hwords _ h.role _ (by simp),
    hwords _ h.project _ (by simp), hscore, ClauseArgs.means]

/-- No clause has the score NaN. -/
theorem keeps_nan (hnan : args.functionScore.bind pyFloat = some .nan) (hshort : args.Short)
    (clause : Record) : args.keeps clause = .ok (args.means clause) := by
  obtain ⟨s, hs, hread⟩ := Option.bind_eq_some_iff.mp hnan
  have hblank : strip s ≠ "" := by
    intro hblank
    rw [pyFloat_blank hblank] at hread
    cases hread
  have hgiven : given args.functionScore = some s := by simp [given, hs, hblank]
  rw [hshort.keeps_eq, hnan, ClauseArgs.means, hgiven]
  simp [hread, cellNumber]

/-- **The clauses that meet all criteria**, words compared as they are, are the answer to a query on
    all databases with audible texts iff its patterns are short and its criteria are read as they
    are meant, or it asks for the score NaN. -/
theorem meant_iff (args : ClauseArgs) :
    (∀ db, Valid db → AudibleRows db →
        getEmrStandardClauses args db = clauseList ((db .emrStandardClause).filter args.means)) ↔
      args.Short ∧ (args.functionScore.bind pyFloat = some .nan ∨ args.Exact) := by
  constructor
  · intro hmeant
    refine ⟨short_of_meant hmeant, ?_⟩
    by_cases hnan : args.functionScore.bind pyFloat = some .nan
    · exact Or.inl hnan
    · exact Or.inr (exact_of_meant hnan hmeant)
  · rintro ⟨hshort, h⟩ db _ haudible
    refine getEmrStandardClauses_eq fun clause hclause => ?_
    rcases h with hnan | hexact
    · exact keeps_nan hnan hshort clause
    · exact hexact.keeps hshort (haudible clause hclause)

end Meant

end ProjectEvaluation.Backend
