import Mathlib
import ProjectEvaluation.Backend.Routes.Standards
import ProjectEvaluation.Lib.Wildcard
import ProjectEvaluation.Sqlite.Like

/-!
# `routes.py`: the lists of the EMR clauses

The list of the clauses with its filters, and the list of their scores.

Results:
* `sqlLike_plain`: words without `%`, `_` and NUL are looked for in any case.
* `sqlLike_exact_iff`: the words that `LIKE '%word%'` looks for as they are.
-/

namespace ProjectEvaluation.Backend

open Python Relational Wildcard Sqlite

/-! ## `LIKE` -/

/-- A character of a pattern. -/
def sqlItem (c : Char) : Item Char := if c = '%' then .many else if c = '_' then .one else .letter c

/-- Letters of ASCII are the same in both cases. -/
def sameLetter (a b : Char) : Bool := a.toLower == b.toLower

/-- `text LIKE pattern`, for a pattern that is not too long. Both are read up to the first NUL. -/
def sqlLike (pattern text : String) : Bool :=
  matchesPattern sameLetter ((heard pattern.toList).map sqlItem) (heard text.toList)

/-- The patterns that `likeFunc` refuses (`sqlite-src-3510200/src/func.c` lines 930–938). -/
def TooLong (pattern : String) : Prop := likePatternLength < (utf8 pattern.toList).length

instance (pattern : String) : Decidable (TooLong pattern) := inferInstanceAs (Decidable (_ < _))

/-- `f'%{word}%'` (`routes.py`, lines 381 and 383). -/
def containing (word : String) : String := "%" ++ word ++ "%"

example : sqlLike (containing "a_c") "xABCx" = true := by decide

/-! ## The filters of the list -/

/-- `request.args` of a request for the clauses (`routes.py`, lines 369–372). -/
structure ClauseArgs where
  standardId : Option String
  workRole : Option String
  businessProject : Option String
  functionScore : Option String

/-- `if standard_id: query = query.filter_by(standard_id=standard_id)` (`routes.py`, lines 378–379).
    -/
def equalFilter (f : Field) (arg : Option String) (clause : Record) : Bool :=
  match arg with
  | none => true
  | some s => s = "" || clause.cell f = .text s

/-- `if work_role and work_role.strip(): query = query.filter(….like(f'%{work_role}%'))`
    (`routes.py`, lines 380–383). -/
def likeFilter (f : Field) (arg : Option String) (clause : Record) : Except Exn Bool :=
  match arg with
  | none => .ok true
  | some s =>
    if s ≠ "" ∧ strip s ≠ "" then
      if TooLong (containing s) then .error .operationalError
      else
        match clause.cell f with
        | .text t => .ok (sqlLike (containing s) t)
        | _ => .ok false
    else .ok true

/-- The filter by a score (`routes.py`, lines 384–389); `except: pass` leaves it out for a text that
    is no number. A NaN is sent as NULL, and nothing is equal to it. -/
def scoreFilter (arg : Option String) (clause : Record) : Bool :=
  match arg with
  | none => true
  | some s =>
    if s = "" then true
    else
      match pyFloat s with
      | none => true
      | some .nan => false
      | some score => clause.cell .functionScore = .real score

/-- The clauses of a query (`routes.py`, lines 375–391); the terms of `WHERE` are evaluated up to
    the first that fails. -/
def ClauseArgs.keeps (args : ClauseArgs) (clause : Record) : Except Exn Bool :=
  if equalFilter .standardId args.standardId clause then do
    let role ← likeFilter .workRole args.workRole clause
    if role then
      let project ← likeFilter .businessProject args.businessProject clause
      return project && scoreFilter args.functionScore clause
    else return false
  else .ok false

/-- `SELECT … WHERE`: the rows for which a condition holds; an error ends it. -/
def selectWhere (p : Record → Except Exn Bool) : List Record → Except Exn (List Record)
  | [] => .ok []
  | row :: rows => do
    let kept ← p row
    let rest ← selectWhere p rows
    return if kept then row :: rest else rest

theorem selectWhere_eq {p : Record → Except Exn Bool} {q : Record → Bool} {rows : List Record}
    (h : ∀ row ∈ rows, p row = .ok (q row)) : selectWhere p rows = .ok (rows.filter q) := by
  induction rows with
  | nil => rfl
  | cons row rows ih =>
    rw [selectWhere, h row List.mem_cons_self, ih fun r hr => h r (List.mem_cons_of_mem row hr),
      List.filter_cons]
    rfl

/-- The answer with some clauses (`routes.py`, lines 392–402). -/
def clauseList (clauses : List Record) : Response :=
  { status := 200, body := .list (clauses.map (object (.id :: clauseFields))) }

/-- `GET /api/emr-standard-clauses` (`routes.py` lines 366–402). -/
def getEmrStandardClauses (args : ClauseArgs) (db : DB) : Response :=
  match selectWhere args.keeps (db .emrStandardClause) with
  | .ok clauses => clauseList clauses
  | .error e => uncaught e

theorem getEmrStandardClauses_congr {db db' : DB}
    (h : db .emrStandardClause = db' .emrStandardClause)
    (args : ClauseArgs) : getEmrStandardClauses args db = getEmrStandardClauses args db' := by
  rw [getEmrStandardClauses, getEmrStandardClauses, h]

/-- **A query** that is answered with the rows for which a condition holds. -/
theorem getEmrStandardClauses_eq {args : ClauseArgs} {db : DB} {q : Record → Bool}
    (h : ∀ row ∈ db .emrStandardClause, args.keeps row = .ok (q row)) :
    getEmrStandardClauses args db = clauseList ((db .emrStandardClause).filter q) := by
  rw [getEmrStandardClauses, selectWhere_eq h]

/-! ## The scores -/

/-- `SELECT DISTINCT f` (`routes.py`, lines 492, 501 and 510). -/
def distinctValues (t : Table) (f : Field) (db : DB) : List Value :=
  ((db t).map fun r => r.cell f).eraseDups

/-- `int(x)` for a value of a column. -/
def intOfValue : Value → Except Exn ℤ
  | .int n => .ok n
  | .bool b => .ok (if b then 1 else 0)
  | .real (.finite x) => .ok (x.value.num.tdiv x.value.den)
  | .real (.inf _) => .error .overflowError
  | .real .nan => .error .valueError
  | .text s => (pyInt s).elim (.error .valueError) .ok
  | .null | .date _ | .time _ | .dateTime _ _ => .error .typeError

/-- The option of a score (`routes.py`, line 512). -/
def scoreOption (score : Value) : Except Exn Json :=
  (intOfValue score).map fun n => .dict [(.value, score.toJson), (.name, .str (toString n))]

/-- `GET /api/emr-standard-clauses/function-scores` (`routes.py`, lines 507–513). -/
def getEmrFunctionScores (db : DB) : Response :=
  match ((distinctValues .emrStandardClause .functionScore db).filter (· ≠ .null)).mapM
    scoreOption with
  | .ok scores => { status := 200, body := .list scores }
  | .error e => uncaught e

/-! ## What `LIKE` finds -/

/-- Every character of a pattern stands for itself. -/
theorem self_mem_sqlItem (c : Char) : [c] ∈ (sqlItem c).language sameLetter := by
  unfold sqlItem
  split_ifs
  · trivial
  · exact ⟨c, rfl⟩
  · exact ⟨c, rfl, beq_self_eq_true _⟩

/-- Letters are audible. -/
theorem audible_of_isAlpha {c : Char} (h : c.isAlpha = true) : Audible c := by
  have hcases : (65 ≤ c.toNat ∧ c.toNat ≤ 90) ∨ (97 ≤ c.toNat ∧ c.toNat ≤ 122) := by
    simpa [Char.isAlpha, Char.isUpper, Char.isLower, UInt32.le_iff_toNat_le] using h
  exact ⟨by omega, by omega, by omega⟩

/-- Only a letter of ASCII is the same as another character. -/
theorem sameLetter_only_iff (c : Char) :
    (∀ d, Audible d → sameLetter c d = true → d = c) ↔ c.isAlpha = false := by
  constructor
  · intro honly
    by_contra halpha
    rw [Bool.not_eq_false] at halpha
    have hlower : c.toLower = c := by
      refine honly _ (audible_of_isAlpha (by rw [Char.isAlpha_toLower_eq_isAlpha, halpha])) ?_
      rw [sameLetter, Char.toLower_toLower_eq_toLower]
      exact beq_self_eq_true _
    have hupper : c.toUpper = c := by
      refine honly _ (audible_of_isAlpha (by rw [Char.isAlpha_toUpper_eq_isAlpha, halpha])) ?_
      rw [sameLetter, Char.toLower_toUpper_eq_toLower]
      exact beq_self_eq_true _
    refine Char.not_isLower_of_isUpper (c := c) ?_ ?_
    · rw [← hupper, Char.isUpper_toUpper_eq_isAlpha, halpha]
    · rw [← hlower, Char.isLower_toLower_eq_isAlpha, halpha]
  · intro halpha d _ hsame
    rw [Char.isAlpha, Bool.or_eq_false_iff] at halpha
    have hc : c.toLower = c := Char.toLower_eq_of_not_isUpper (by simp [halpha.1])
    have hd : d.toLower = c := (beq_iff_eq.mp hsame).symm.trans hc
    have hdalpha : d.isAlpha = false := by
      rw [← Char.isAlpha_toLower_eq_isAlpha, hd, Char.isAlpha, halpha.1, halpha.2]
      rfl
    rw [Char.isAlpha, Bool.or_eq_false_iff] at hdalpha
    exact (Char.toLower_eq_of_not_isUpper (by simp [hdalpha.1])).symm.trans hd

/-- The characters that stand for themselves and nothing else in a pattern. -/
def Literal (c : Char) : Prop := c ≠ '%' ∧ c ≠ '_' ∧ c.isAlpha = false ∧ Audible c

instance (c : Char) : Decidable (Literal c) := inferInstanceAs (Decidable (_ ∧ _ ∧ _ ∧ _))

theorem readsItself_iff {c : Char} (hc : Audible c) :
    (∀ text ∈ (sqlItem c).language sameLetter, (∀ d ∈ text, Audible d) → text = [c]) ↔
      Literal c := by
  unfold sqlItem Literal
  by_cases hmany : c = '%'
  · rw [if_pos hmany]
    refine iff_of_false (fun h => ?_) fun h => h.1 hmany
    exact absurd (h [] trivial nofun) (List.cons_ne_nil c []).symm
  by_cases hone : c = '_'
  · rw [if_neg hmany, if_pos hone]
    refine iff_of_false (fun h => ?_) fun h => h.2.1 hone
    have hother := h ['x'] ⟨'x', rfl⟩ (by decide)
    rw [hone] at hother
    exact absurd hother (by decide)
  rw [if_neg hmany, if_neg hone, ← sameLetter_only_iff]
  constructor
  · intro h
    refine ⟨hmany, hone, fun d haudible hsame => ?_, hc⟩
    exact List.singleton_inj.mp
      (h [d] ⟨d, rfl, hsame⟩ fun e he => List.mem_singleton.mp he ▸ haudible)
  · rintro ⟨-, -, honly, -⟩ _ ⟨d, rfl, hsame⟩ haudible
    rw [honly d (haudible d (List.mem_singleton_self d)) hsame]

theorem toList_containing (word : String) :
    (containing word).toList = '%' :: (word.toList ++ ['%']) := by
  rw [containing, String.toList_append, String.toList_append]
  rfl

/-- A word without NUL is looked for anywhere in a text. -/
theorem sqlLike_containing {word : String} (hword : ∀ c ∈ word.toList, c.toNat ≠ 0)
    (text : String) :
    sqlLike (containing word) text = true ↔
      heard text.toList ∈ patternLanguage sameLetter
        (around ((heard word.toList).map sqlItem)) := by
  have hpattern : (heard (containing word).toList).map sqlItem =
      around ((heard word.toList).map sqlItem) := by
    have hfirst : ∀ c ∈ ['%'], c.toNat ≠ 0 := by decide
    rw [toList_containing, ← List.singleton_append, heard_append hfirst, heard_append hword,
      List.map_append, List.map_append]
    rfl
  rw [sqlLike, matchesPattern_iff, hpattern]

/-- Does a text contain another, both as SQLite hears them, in upper or lower case? -/
def containsFolded (text word : String) : Bool :=
  decide ((heard word.toList).map Char.toLower <:+: (heard text.toList).map Char.toLower)

/-- A word for which `LIKE '%word%'` looks: it has no wildcard and no NUL. -/
def PlainWord (word : String) : Prop := ∀ c ∈ word.toList, c ≠ '%' ∧ c ≠ '_' ∧ c.toNat ≠ 0

instance (word : String) : Decidable (PlainWord word) :=
  inferInstanceAs (Decidable (∀ c ∈ word.toList, _))

/-- **`LIKE '%word%'` looks for a plain word**, in upper or lower case. -/
theorem sqlLike_plain {word : String} (hword : PlainWord word) (text : String) :
    sqlLike (containing word) text = containsFolded text word := by
  have hletters : (heard word.toList).map sqlItem = (heard word.toList).map Item.letter := by
    refine List.map_congr_left fun c hc => ?_
    obtain ⟨d, hd, rfl⟩ := List.mem_map.mp hc
    obtain ⟨hmany, hone, -⟩ := hword d (List.takeWhile_subset _ hd)
    rw [sqlItem]
    split_ifs <;> simp_all
  rw [Bool.eq_iff_iff, sqlLike_containing fun c hc => (hword c hc).2.2, hletters, containsFolded,
    decide_eq_true_eq]
  exact mem_around_letters sameLetter (fun _ _ => beq_iff_eq) _ _

/-- What is heard of a word is found by a pattern with the word. -/
theorem sqlLike_heard (word : String) :
    sqlLike (containing word) (String.ofList (heard word.toList)) = true := by
  have hword : heard word.toList ∈ patternLanguage sameLetter ((heard word.toList).map sqlItem) :=
    mem_word sameLetter fun c _ => self_mem_sqlItem c
  have hfirst : ∀ c ∈ ['%'], c.toNat ≠ 0 := by decide
  -- a NUL in the word hides the last wildcard
  obtain ⟨rest, hpattern, hrest⟩ : ∃ rest : List Char,
      heard (word.toList ++ ['%']) = heard word.toList ++ rest ∧
        [] ∈ patternLanguage sameLetter (rest.map sqlItem) := by
    by_cases hnul : ∀ c ∈ word.toList, c.toNat ≠ 0
    · refine ⟨['%'], heard_append hnul _, (mem_cons sameLetter).mpr ⟨[], trivial, [], ?_, rfl⟩⟩
      exact (mem_nil sameLetter).mpr rfl
    · refine ⟨[], ?_, (mem_nil sameLetter).mpr rfl⟩
      rw [heard_cut hnul, List.append_nil]
  have hall : heard (containing word).toList = '%' :: (heard word.toList ++ rest) := by
    rw [toList_containing, ← List.singleton_append, heard_append hfirst, hpattern]
    rfl
  rw [sqlLike, matchesPattern_iff, hall, String.toList_ofList, heard_heard, List.map_cons,
    List.map_append]
  refine (mem_cons sameLetter).mpr ⟨[], trivial, heard word.toList, ?_, rfl⟩
  exact (mem_append sameLetter).mpr ⟨_, hword, [], hrest, List.append_nil _⟩

/-- **`LIKE '%word%'` looks for the word** in audible texts iff all its characters stand for
    themselves only. -/
theorem sqlLike_exact_iff (word : String) :
    (∀ text : String, (∀ c ∈ text.toList, Audible c) →
        (sqlLike (containing word) text = true ↔ word.toList <:+: text.toList)) ↔
      ∀ c ∈ word.toList, Literal c := by
  -- for an audible word the pattern is that of the word
  have hiff : (∀ c ∈ word.toList, Audible c) →
      ((∀ text : String, (∀ c ∈ text.toList, Audible c) →
          (sqlLike (containing word) text = true ↔ word.toList <:+: text.toList)) ↔
        ∀ c ∈ word.toList, Literal c) := by
    intro haudible
    have hexact := around_exact_iff sameLetter (fun c _ => self_mem_sqlItem c) haudible
    have hfound : ∀ text : String, (∀ c ∈ text.toList, Audible c) →
        (sqlLike (containing word) text = true ↔
          text.toList ∈ patternLanguage sameLetter (around (word.toList.map sqlItem))) := by
      intro text htext
      rw [sqlLike_containing fun c hc => (haudible c hc).1, heard_plain haudible, heard_plain htext]
    refine Iff.trans ⟨fun h text htext => ?_, fun h text htext => ?_⟩ (hexact.trans ?_)
    · have hlist : ∀ c ∈ (String.ofList text).toList, Audible c := by rwa [String.toList_ofList]
      have htext := (hfound _ hlist).symm.trans (h _ hlist)
      rwa [String.toList_ofList] at htext
    · exact (hfound text htext).trans (h text.toList htext)
    · exact forall₂_congr fun c hc => readsItself_iff (haudible c hc)
  refine ⟨fun hexact => (hiff ?_).mp hexact, fun hliteral => (hiff ?_).mpr hliteral⟩
  · have hpart : word.toList <:+: heard word.toList := by
      have h := (hexact (String.ofList (heard word.toList)) ?_).mp (sqlLike_heard word)
      · rwa [String.toList_ofList] at h
      · rw [String.toList_ofList]
        exact heard_audible
    exact fun c hc => heard_audible c (hpart.subset hc)
  · exact fun c hc => (hliteral c hc).2.2.2

end ProjectEvaluation.Backend
