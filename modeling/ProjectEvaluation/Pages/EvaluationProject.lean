import ProjectEvaluation.Backend.Requests
import ProjectEvaluation.JavaScript.Dates

/-!
# `EvaluationProject.jsx`: evaluation projects

The library that spells a name in pinyin is a parameter: `pinyin` is its function with the
options of the page, the first letters of the Chinese characters of a text. The page is a
client of the handlers: what it submits is a `Request`.

Results:
* `generateProjectId_eq_iff`: when two generated ids are equal.
* `generateProjectId_remade`: which ids a name and an instant generate.
* `showDay_injective`: the column of the dates shows different dates differently.
-/

namespace ProjectEvaluation.Pages

open Calendar (CalendarDate dateOf)
open Decimal JavaScript Python
open Backend (Request hasId)

/-! ## The list -/

/-- The object with the id `id` in the answer of a list handler. -/
def entryOf (id : ℕ) : Json → Option Json
  | .list objects => objects.find? (hasId id)
  | _ => none

/-- A member of an object of a list; the list handlers leave no member out. -/
def member (object : Json) (f : Field) : Json :=
  match object.get f with
  | .ok (some value) => value
  | _ => .null

/-- The member `id` of an object. -/
def idOf (object : Json) : ℕ :=
  match member object .id with
  | .int n => n.toNat
  | _ => 0

/-- The text of a date (`EvaluationProject.jsx`, line 254): `getFullYear()`, `getMonth()` and
    `getDate()`. -/
def showDay (c : CalendarDate) : String :=
  String.ofList ((toString c.year).toList ++ '-' :: pad2 c.month ++ '-' :: pad2 c.day)

/-- The `render` of the column `establishment_date` (`EvaluationProject.jsx`, lines 250–255). -/
def dateCell (offset : ℤ) : Json → String
  | .str date =>
    if date = "" then "-"
    else (parseUTCString date).elim "NaN-NaN-NaN" fun t => showDay (dateOf (localDay offset t))
  | _ => "-"

/-- The cell of that column in the row of a project. -/
def establishmentDateCell (offset : ℤ) (project : Json) : String :=
  match project.get .establishmentDate with
  | .ok (some date) => dateCell offset date
  | _ => "-"

/-! ## Submitting the form -/

/-- The value of the field `establishment_date`. `handleEdit` (`EvaluationProject.jsx`, lines
    128–134) fills the form in with the object of the list, whose date is a text. -/
inductive FormDate
  /-- The date picker gives a `Date`. -/
  | chosen (t : TimeValue)
  /-- The text of the list, left as it was. -/
  | loaded (date : Json)

/-- What the form is filled in with (`EvaluationProject.jsx`, line 153). -/
structure ProjectValues where
  projectName : String
  projectManagerId : Json
  siteProjectManagerId : Option Json
  projectType : Json
  projectLevel : Json
  projectAttribute : Json
  establishmentStatus : Json
  establishmentDate : FormDate

/-- `modalType`, with `selectedProject` (`EvaluationProject.jsx`, lines 119–135). -/
inductive Modal
  | add
  | edit (id : ℕ) (selectedProject : Json)

/-- `generateProjectId`; `EvaluationProject.jsx`, lines 137–148. -/
def generateProjectId (pinyin : String → String) (now : ℤ) (projectName : String) : String :=
  substringTo 4 (pinyin projectName) ++ substringFrom 8 (toString now)

/-- The truth value of `selectedProject.project_id` (`EvaluationProject.jsx`, line 170). -/
def storedProjectId (selectedProject : Json) : Option Json :=
  match selectedProject.get .projectId with
  | .ok (some (.str projectId)) => if projectId = "" then none else some (.str projectId)
  | _ => none

/-- The body of a submission with the date as the text `date` (`EvaluationProject.jsx`, lines
    156–160). A site manager that was not chosen is left out. -/
def projectData (values : ProjectValues) (date : String) (uploadFile projectId : Json) : Json :=
  .dict
    ([(.projectName, .str values.projectName), (.projectManagerId, values.projectManagerId)] ++
      (values.siteProjectManagerId.toList.map fun j => (.siteProjectManagerId, j)) ++
      [(.projectType, values.projectType), (.projectLevel, values.projectLevel),
       (.projectAttribute, values.projectAttribute),
       (.establishmentStatus, values.establishmentStatus),
       (.establishmentDate, .str date), (.establishmentProof, uploadFile),
       (.projectId, projectId)])

/-- The request of `handleSubmit` at the time `now` (`EvaluationProject.jsx`, lines 151–178).
    A text has no `toISOString`: the page throws before it sends anything. -/
def handleSubmit (pinyin : String → String) (now : ℤ) (values : ProjectValues)
    (uploadFile : Json) (modal : Modal) : Option Request :=
  match values.establishmentDate with
  | .loaded _ => none
  | .chosen t =>
    let data := projectData values (toISOString t.ms) uploadFile
    let generated := Json.str (generateProjectId pinyin now values.projectName)
    match modal with
    | .add => some (.create .project (.json (data generated)))
    | .edit id selectedProject =>
      some (.update .project id (.json (data ((storedProjectId selectedProject).getD generated))))

/-! ## Generated ids -/

/-- The last five digits of a number. -/
def lastFive (n : ℕ) : List Char :=
  [Nat.digitChar (n / 10000 % 10), Nat.digitChar (n / 1000 % 10), Nat.digitChar (n / 100 % 10),
   Nat.digitChar (n / 10 % 10), Nat.digitChar (n % 10)]

theorem digitChar_inj {a b : ℕ} (ha : a < 10) (hb : b < 10)
    (h : Nat.digitChar a = Nat.digitChar b) : a = b := by
  have hdigit := asciiDigit_digitChar ha
  rw [h, asciiDigit_digitChar hb] at hdigit
  exact (Option.some.inj hdigit).symm

theorem lastFive_inj {m n : ℕ} : lastFive m = lastFive n ↔ m % 100000 = n % 100000 := by
  constructor
  · intro h
    simp only [lastFive, List.cons.injEq, and_true] at h
    obtain ⟨h4, h3, h2, h1, h0⟩ := h
    have h4' := digitChar_inj (by omega) (by omega) h4
    have h3' := digitChar_inj (by omega) (by omega) h3
    have h2' := digitChar_inj (by omega) (by omega) h2
    have h1' := digitChar_inj (by omega) (by omega) h1
    have h0' := digitChar_inj (by omega) (by omega) h0
    omega
  · intro h
    have h4 : m / 10000 % 10 = n / 10000 % 10 := by omega
    have h3 : m / 1000 % 10 = n / 1000 % 10 := by omega
    have h2 : m / 100 % 10 = n / 100 % 10 := by omega
    have h1 : m / 10 % 10 = n / 10 % 10 := by omega
    have h0 : m % 10 = n % 10 := by omega
    rw [lastFive, lastFive, h4, h3, h2, h1, h0]

/-- A number of six digits or more ends in its last five. -/
theorem toDigits_lastFive {n : ℕ} (h : 100000 ≤ n) : Nat.toDigits 10 n = Nat.toDigits 10
    (n / 100000) ++ lastFive n := by
  rw [Nat.toDigits_of_base_le (by norm_num) (by omega),
    Nat.toDigits_of_base_le (n := n / 10) (by norm_num) (by omega),
    Nat.toDigits_of_base_le (n := n / 10 / 10) (by norm_num) (by omega),
    Nat.toDigits_of_base_le (n := n / 10 / 10 / 10) (by norm_num) (by omega),
    Nat.toDigits_of_base_le (n := n / 10 / 10 / 10 / 10) (by norm_num) (by omega)]
  simp only [Nat.div_div_eq_div_mul, List.append_assoc, List.cons_append, List.nil_append,
    Nat.reduceMul]
  rfl

/-- `Date.now().toString().substring(8)` for a number of thirteen digits: the last five. -/
theorem substringFrom_now {n : ℕ} (hlo : 10 ^ 12 ≤ n) (hhi : n < 10 ^ 13) :
    substringFrom 8 (toString (n : ℤ)) = String.ofList (lastFive n) := by
  have hlength : (Nat.toDigits 10 (n / 100000)).length = 8 := by
    have hle := (Nat.length_toDigits_le_iff (n := n / 100000) (b := 10) (k := 8) (by norm_num)
      (by norm_num)).mpr (by omega)
    have hlt := (Nat.length_toDigits_le_iff (n := n / 100000) (b := 10) (k := 7) (by norm_num)
      (by norm_num)).not.mpr
      (by omega)
    omega
  rw [substringFrom, show (toString (n : ℤ)).toList = _ from toList_ofNat n,
    toDigits_lastFive (by omega), ← hlength, List.drop_left]

/-- **Generated ids are equal** iff the first four letters are, and the instants are a multiple
    of 100 seconds apart. -/
theorem generateProjectId_eq_iff {pinyin : String → String} {now₁ now₂ : ℤ} {name₁ name₂ : String}
    (h₁ : 10 ^ 12 ≤ now₁ ∧ now₁ < 10 ^ 13) (h₂ : 10 ^ 12 ≤ now₂ ∧ now₂ < 10 ^ 13) :
    generateProjectId pinyin now₁ name₁ = generateProjectId pinyin now₂ name₂ ↔
      substringTo 4 (pinyin name₁) = substringTo 4 (pinyin name₂) ∧
        now₁ % 100000 = now₂ % 100000 := by
  obtain ⟨n₁, rfl⟩ := Int.eq_ofNat_of_zero_le (show 0 ≤ now₁ by omega)
  obtain ⟨n₂, rfl⟩ := Int.eq_ofNat_of_zero_le (show 0 ≤ now₂ by omega)
  have hmod : ((n₁ : ℤ) % 100000 = (n₂ : ℤ) % 100000) ↔ n₁ % 100000 = n₂ % 100000 := by omega
  unfold generateProjectId
  rw [substringFrom_now (by omega) (by omega), substringFrom_now (by omega) (by omega), hmod,
    ← lastFive_inj]
  constructor
  · intro h
    have hlists := congrArg String.toList h
    rw [String.toList_append, String.toList_append, String.toList_ofList,
      String.toList_ofList] at hlists
    obtain ⟨hfront, hlast⟩ := List.append_inj' hlists rfl
    exact ⟨String.toList_inj.mp hfront, hlast⟩
  · rintro ⟨hfront, hlast⟩
    rw [hfront, hlast]

/-- `projectId` is the text `letters`, and after it the digits that the time `now` has from its
    ninth character on. -/
def Remade (letters : String) (now : ℤ) (projectId : String) : Prop :=
  ∃ digits : List Char, projectId.toList = letters.toList ++ digits ∧
    digits.length = (toString now).toList.length - 8 ∧ (∀ c ∈ digits, c.isDigit = true) ∧
    Nat.ofDigitChars 10 digits 0 = now.natAbs % 10 ^ digits.length

/-- The characters of a number from the ninth on are its last digits. -/
theorem toString_drop (now : ℤ) :
    (∀ c ∈ (toString now).toList.drop 8, c.isDigit = true) ∧
      Nat.ofDigitChars 10 ((toString now).toList.drop 8) 0 =
        now.natAbs % 10 ^ ((toString now).toList.drop 8).length := by
  have hdigits : ∀ n k, ∀ c ∈ (Nat.toDigits 10 n).drop k, c.isDigit = true := fun n k c hc =>
    Nat.isDigit_of_mem_toDigits (by norm_num) (by norm_num) (List.mem_of_mem_drop hc)
  cases now with
  | ofNat n =>
    rw [toList_ofNat]
    exact ⟨hdigits n 8, ofDigitChars_drop n 8⟩
  | negSucc n =>
    rw [toList_negSucc, List.drop_succ_cons]
    exact ⟨hdigits (n + 1) 7, ofDigitChars_drop (n + 1) 7⟩

/-- **A name and an instant generate one id**: the letters of the name and the last digits of
    the time. -/
theorem generateProjectId_remade {pinyin : String → String} {now : ℤ} {name projectId : String} :
    projectId = generateProjectId pinyin now name ↔
      Remade (substringTo 4 (pinyin name)) now projectId := by
  have hdrop := toString_drop now
  constructor
  · rintro rfl
    refine ⟨(toString now).toList.drop 8, ?_, List.length_drop, hdrop⟩
    rw [generateProjectId, String.toList_append, substringFrom, String.toList_ofList]
  · rintro ⟨digits, hid, hlength, hdigits, hvalue⟩
    have hsame : digits.length = ((toString now).toList.drop 8).length := by
      rw [hlength, List.length_drop]
    have hlast : digits = (toString now).toList.drop 8 := by
      refine ofDigitChars_inj hdigits hdrop.1 hsame ?_
      rw [hvalue, hdrop.2, hsame]
    rw [← String.toList_inj, hid, generateProjectId, String.toList_append, substringFrom,
      String.toList_ofList, hlast]

/-! ## Shown dates -/

theorem pad2_inj {m n : ℕ} (hm : m < 100) (hn : n < 100) (h : pad2 m = pad2 n) : m = n := by
  have hnumber := asciiNumber_pad2 hm
  rw [h, asciiNumber_pad2 hn] at hnumber
  exact (Option.some.inj hnumber).symm

theorem toString_inj {m n : ℤ} (h : (toString m).toList = (toString n).toList) : m = n := by
  have hread := parseInt_toString m
  rw [String.toList_inj.mp h, parseInt_toString n] at hread
  exact (Option.some.inj hread).symm

/-- **Different dates are shown differently.** -/
theorem showDay_injective : Function.Injective showDay := by
  intro c d h
  have hc := c.month_range
  have hd := d.month_range
  have hcday := day_le c
  have hdday := day_le d
  have hlists := String.ofList_injective h
  rw [List.append_assoc, List.append_assoc] at hlists
  obtain ⟨hyear, hrest⟩ := List.append_inj' hlists rfl
  have hmonth : pad2 c.month = pad2 d.month := congrArg (fun cs => (cs.drop 1).take 2) hrest
  have hday : pad2 c.day = pad2 d.day := congrArg (List.drop 4) hrest
  exact CalendarDate.ext (toString_inj hyear) (pad2_inj (by omega) (by omega) hmonth)
    (pad2_inj (by omega) (by omega) hday)

end ProjectEvaluation.Pages
