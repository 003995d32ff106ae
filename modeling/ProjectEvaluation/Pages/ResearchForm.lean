import ProjectEvaluation.Pages.EvaluationProject

/-!
# `ResearchForm.jsx`: the form of a research task

The form proposes a name for the task of a project. The library that spells a name in pinyin
is a parameter, and so is the text of a JSON value that is neither a text nor an integer.

Results:
* `taskName_injective`: the parts of a name can be read off it.
-/

namespace ProjectEvaluation.Pages.ResearchForm

open Calendar (CalendarDate dateOf)
open Decimal JavaScript Python
open Backend (Request)

/-! ## Names -/

/-- The text of `value || '0'` in a template (`ResearchForm.jsx`, lines 189–190). -/
def templateText (otherText : Json → String) : Json → String
  | .null | .float .nan => "0"
  | .bool b => if b then "true" else "0"
  | .int n => if n = 0 then "0" else if n.natAbs ≤ 2 ^ 53 then toString n else otherText (.int n)
  | .float (.finite x) => if x.value = 0 then "0" else otherText (.float (.finite x))
  | .str s => orText s "0"
  | value => otherText value

/-- `getPinyinFirstLetters` (`ResearchForm.jsx`, lines 176–186). -/
def getPinyinFirstLetters (pinyin : String → String) (text : String) : String :=
  if 2 ≤ (pinyin text).toList.length then substringTo 2 (pinyin text)
    else substringTo 2 (pinyin text ++ "XX")

/-- The year and the month (`ResearchForm.jsx`, lines 193–195): `year` and `month` of
    `generateTaskName`. -/
def yearMonth (now : CalendarDate) : String :=
  substringFrom 2 (toString now.year) ++ padStart 2 '0' (toString now.month)

/-- The number of tasks on the page (`ResearchForm.jsx`, line 45); nothing changes it after
    `useState(0)`. -/
def taskCount : ℕ := 0

/-- `sequence` (`ResearchForm.jsx`, line 198). -/
def sequence : String := padStart 2 '0' (toString (taskCount + 1))

/-- What the name of a task is made of: the two letters of the project, its type and its level
    with a dash between them, and the month. -/
structure NameParts where
  initials : String
  kind : String
  month : String
  deriving DecidableEq

/-- The parts of the name for a project (`ResearchForm.jsx`, lines 188–195). -/
def nameParts (pinyin : String → String) (otherText : Json → String) (now : CalendarDate)
    (selectedProject : Json) :
    NameParts where
  initials :=
    match member selectedProject .projectName with
    | .str projectName => getPinyinFirstLetters pinyin projectName
    | _ => getPinyinFirstLetters pinyin ""
  kind := templateText otherText (member selectedProject .projectType) ++ "-" ++
    templateText otherText (member selectedProject .projectLevel)
  month := yearMonth now

/-- `taskName` (`ResearchForm.jsx`, line 201). -/
def NameParts.taskName (parts : NameParts) : String :=
  parts.initials ++ "-" ++ parts.kind ++ "-" ++ parts.month ++ "-" ++ sequence

/-- `generateTaskName`, with the answer of the list handler the page has (`ResearchForm.jsx`, lines
    171–204). -/
def generateTaskName (pinyin : String → String) (otherText : Json → String) (now : CalendarDate)
    (projects : Json)
    (projectId : ℕ) : String :=
  (entryOf projectId projects).elim "" fun selectedProject =>
    (nameParts pinyin otherText now selectedProject).taskName

/-! ## Submitting the form -/

/-- What else the form is filled in with (`ResearchForm.jsx`, line 254). -/
structure TaskValues where
  creatorId : Json
  researcherId : Json
  taskStatus : Json
  plannedCompletionTime : Json

/-- The body of a new task for a project, with the name the form proposes (`ResearchForm.jsx`, lines
    207–236 and 264–268). -/
def newValues (taskName : String) (projectId : ℕ) (selectedProject : Json)
    (values : TaskValues) : Json :=
  .dict
    [(.projectId, .int projectId), (.taskName, .str taskName),
     (.projectType, member selectedProject .projectType),
     (.projectLevel, member selectedProject .projectLevel), (.creatorId, values.creatorId),
     (.researcherId, values.researcherId), (.taskStatus, values.taskStatus),
     (.plannedCompletionTime, values.plannedCompletionTime), (.vendorStatus, .int 0),
     (.benchmarkingStatus, .int 0)]

/-- The request of `handleSubmit` for a new task, after `handleProjectChange` found the project that
    was chosen (`ResearchForm.jsx`, lines 251–280). -/
def handleSubmit (pinyin : String → String) (otherText : Json → String) (now : CalendarDate)
    (projects : Json)
    (projectId : ℕ) (selectedProject : Json) (values : TaskValues) : Request :=
  .create .researchTask (.json
    (newValues (generateTaskName pinyin otherText now projects projectId) projectId
      selectedProject values))

/-! ## The default of the planned completion time -/

/-- The `while` loop (`ResearchForm.jsx`, lines 139–145): on to the next day until ten workdays are
    counted. It goes on for `fuel` rounds at most, and `none` means that it would go on. -/
def addWorkdays (offset : ℤ) : ℕ → ℕ → ℤ → Option ℤ
  | 0, workdaysAdded, date => if workdaysAdded < 10 then none else some date
  | fuel + 1, workdaysAdded, date =>
    if workdaysAdded < 10 then
      let date := setDate offset date (getDate offset date + 1)
      if getDay offset date ≠ 0 ∧ getDay offset date ≠ 6
        then addWorkdays offset fuel (workdaysAdded + 1) date
      else addWorkdays offset fuel workdaysAdded date
    else some date

/-- `calculateDefaultCompletionTime`, when the page is opened and when the name of the task is
    changed (`ResearchForm.jsx`, lines 135–152 and 362–375). -/
def calculateDefaultCompletionTime (offset : ℤ) (fuel : ℕ) (now : ℤ) : Option ℤ :=
  addWorkdays offset fuel 0 now

/-! ## The parts of a name -/

theorem dash_not_mem_toDigits {n : ℕ} : '-' ∉ Nat.toDigits 10 n :=
  fun h => (digit_plain (digits_isDigit _ h)).2.1 rfl

/-- There is no dash in the month. -/
theorem dash_not_mem_yearMonth (now : CalendarDate) : '-' ∉ (yearMonth now).toList := by
  have hyear : '-' ∉ (substringFrom 2 (toString now.year)).toList := by
    rw [substringFrom, String.toList_ofList]
    cases now.year with
    | ofNat m =>
      rw [toList_ofNat]
      exact fun h => dash_not_mem_toDigits (List.mem_of_mem_drop h)
    | negSucc m =>
      rw [toList_negSucc, List.drop_succ_cons]
      exact fun h => dash_not_mem_toDigits (List.mem_of_mem_drop h)
  have hmonth : '-' ∉ (padStart 2 '0' (toString now.month)).toList := by
    intro h
    rcases mem_padStart h with h | h
    · exact absurd h (by decide)
    · rw [toList_nat] at h
      exact dash_not_mem_toDigits h
  rw [yearMonth, String.toList_append, List.mem_append, not_or]
  exact ⟨hyear, hmonth⟩

/-- The two letters of a project are two. -/
theorem getPinyinFirstLetters_length (pinyin : String → String) (text : String) :
    (getPinyinFirstLetters pinyin text).toList.length = 2 := by
  unfold getPinyinFirstLetters substringTo
  split_ifs with h
  · rw [String.toList_ofList, List.length_take]
    omega
  · rw [String.toList_ofList, List.length_take, String.toList_append, List.length_append]
    have hxx : "XX".toList.length = 2 := rfl
    omega

/-- The parts the form makes: two letters, and a month without a dash. -/
structure NameParts.Regular (parts : NameParts) : Prop where
  initials : parts.initials.toList.length = 2
  month : '-' ∉ parts.month.toList

theorem nameParts_regular (pinyin : String → String) (otherText : Json → String)
    (now : CalendarDate)
    (selectedProject : Json) : (nameParts pinyin otherText now selectedProject).Regular := by
  refine ⟨?_, dash_not_mem_yearMonth now⟩
  show (match member selectedProject .projectName with
    | .str projectName => getPinyinFirstLetters pinyin projectName
    | _ => getPinyinFirstLetters pinyin "").toList.length = 2
  split
  · exact getPinyinFirstLetters_length ..
  · exact getPinyinFirstLetters_length ..

/-- What stands before the first separator and after it. -/
theorem append_cons_inj {c : Char} {a a' b b' : List Char} (ha : c ∉ a) (ha' : c ∉ a')
    (h : a ++ c :: b = a' ++ c :: b') : a = a' ∧ b = b' := by
  have hsplit := congrArg (List.splitOn c) h
  rw [List.splitOn_append_cons_self_of_not_mem ha,
    List.splitOn_append_cons_self_of_not_mem ha'] at hsplit
  obtain rfl := (List.cons.inj hsplit).1
  exact ⟨rfl, (List.cons.inj (List.append_cancel_left h)).2⟩

/-- **The parts of a name can be read off it.** -/
theorem taskName_injective {parts parts' : NameParts} (h : parts.Regular) (h' : parts'.Regular)
    (heq : parts.taskName = parts'.taskName) : parts = parts' := by
  have hchars : ∀ p : NameParts, p.taskName.toList =
      p.initials.toList ++ '-' ::
        (p.kind.toList ++ '-' :: p.month.toList ++ '-' :: sequence.toList) := by
    intro p
    simp [NameParts.taskName, String.toList_append]
  have hlists := congrArg String.toList heq
  rw [hchars, hchars] at hlists
  obtain ⟨hinitials, hrest⟩ := List.append_inj hlists (h.initials.trans h'.initials.symm)
  have hkind := List.append_cancel_right (List.cons.inj hrest).2
  -- the month is what stands after the last dash
  have hreverse := congrArg List.reverse hkind
  simp only [List.reverse_append, List.reverse_cons, List.append_assoc, List.cons_append,
    List.nil_append] at hreverse
  obtain ⟨hmonth, hkind⟩ := append_cons_inj (fun hm => h.month (List.mem_reverse.mp hm))
    (fun hm => h'.month (List.mem_reverse.mp hm)) hreverse
  cases parts
  cases parts'
  simp only [NameParts.mk.injEq]
  exact ⟨String.toList_inj.mp hinitials, String.toList_inj.mp (List.reverse_injective hkind),
    String.toList_inj.mp (List.reverse_injective hmonth)⟩

end ProjectEvaluation.Pages.ResearchForm
