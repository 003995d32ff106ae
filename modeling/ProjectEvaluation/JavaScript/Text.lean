import Mathlib.Data.List.TakeWhile
import Mathlib.Data.Int.Notation
import Mathlib.Data.Rat.Defs
import Mathlib.Tactic.NormNum
import ProjectEvaluation.Lib.Binary64
import ProjectEvaluation.Lib.Decimal

/-!
# Texts in JavaScript

The pages count with integers below 2^53 only. The decimals they read are kept as they are
written: rounding to binary64 is not modelled.

Results:
* `parseInt_toString`: `parseInt` reads a number as it is written.
-/

namespace ProjectEvaluation.JavaScript

open Decimal

/-- The truth value of a text, `null` or `undefined`. -/
def truthy (s : Option String) : Bool := s.isSome && s != some ""

/-- `n || default` for a number, `null` or `undefined`. -/
def orNumber (n : Option ℤ) (default : ℤ) : ℤ := if n.getD 0 = 0 then default else n.getD 0

/-- `n || null` for a number, `null` or `undefined`. -/
def orNull (n : Option ℤ) : Option ℤ := if n.getD 0 = 0 then none else n

/-- `s || default` for a text. -/
def orText (s default : String) : String := if s = "" then default else s

/-! ## Pieces -/

/-- `s.split(separator)` for a character. -/
def split (separator : Char) (s : String) : List String :=
  (s.toList.splitOn separator).map String.ofList

/-- The first piece ends at the first separator. -/
theorem split_head {separator : Char} {first : List Char} (h : separator ∉ first)
    (rest : List Char) :
    (split separator (String.ofList (first ++ separator :: rest))).headD "" =
      String.ofList first := by
  rw [split, String.toList_ofList, List.splitOn_append_cons_self_of_not_mem h]
  rfl

/-- `s.substring(0, n)`. -/
def substringTo (n : ℕ) (s : String) : String := String.ofList (s.toList.take n)

/-- `s.substring(n)`. -/
def substringFrom (n : ℕ) (s : String) : String := String.ofList (s.toList.drop n)

/-- `s.padStart(n, c)`. -/
def padStart (n : ℕ) (c : Char) (s : String) : String :=
  String.ofList (List.replicate (n - s.toList.length) c ++ s.toList)

theorem mem_padStart {n : ℕ} {c d : Char} {s : String} (h : d ∈ (padStart n c s).toList) :
    d = c ∨ d ∈ s.toList := by
  rw [padStart, String.toList_ofList, List.mem_append] at h
  exact h.imp_left List.eq_of_mem_replicate

/-! ## White space -/

/-- The white space and the line terminators of ECMAScript. -/
def isWhiteSpace (c : Char) : Bool :=
  let n := c.toNat
  (0x09 ≤ n && n ≤ 0x0d) || n == 0x20 || n == 0xa0 || n == 0x1680 || (0x2000 ≤ n && n ≤ 0x200a) ||
    n == 0x2028 || n == 0x2029 || n == 0x202f || n == 0x205f || n == 0x3000 || n == 0xfeff

/-- `s.trim()`. -/
def trim (s : String) : String :=
  String.ofList ((s.toList.dropWhile isWhiteSpace).reverse.dropWhile isWhiteSpace).reverse

/-- A text with a character that is no white space is not blank. -/
theorem trim_ne_empty {s : String} {c : Char} (hc : c ∈ s.toList)
    (hspace : isWhiteSpace c = false) : trim s ≠ "" := by
  have hkept : ∀ cs : List Char, c ∈ cs → c ∈ cs.dropWhile isWhiteSpace := by
    intro cs hmem
    rw [← List.takeWhile_append_dropWhile (p := isWhiteSpace) (l := cs), List.mem_append] at hmem
    refine hmem.resolve_left fun htaken => ?_
    rw [List.mem_takeWhile_imp htaken] at hspace
    cases hspace
  intro hempty
  have hmem := List.mem_reverse.mpr (hkept _ (List.mem_reverse.mpr (hkept _ hc)))
  rw [String.ofList_eq_empty_iff.mp hempty] at hmem
  cases hmem

/-! ## Numbers -/

/-- The number of the digits a text begins with. -/
def parseDigits (cs : List Char) : Option ℕ :=
  let digits := cs.takeWhile Char.isDigit
  if digits = [] then none else some (Nat.ofDigitChars 10 digits 0)

/-- `parseInt(s, 10)`; `none` is NaN. -/
def parseInt (s : String) : Option ℤ :=
  match s.toList.dropWhile isWhiteSpace with
  | '-' :: cs => (parseDigits cs).map fun n => -(n : ℤ)
  | '+' :: cs => (parseDigits cs).map fun n => (n : ℤ)
  | cs => (parseDigits cs).map fun n => (n : ℤ)

/-- The exponent of a decimal literal; nothing where no digits follow the letter. -/
def parseExponent (cs : List Char) : ℤ :=
  match cs with
  | 'e' :: cs | 'E' :: cs =>
    match cs with
    | '-' :: cs => -((parseDigits cs).getD 0 : ℤ)
    | '+' :: cs => (parseDigits cs).getD 0
    | cs => (parseDigits cs).getD 0
  | _ => 0

/-- The decimal literal without a sign that a text begins with. -/
def parseDecimal (cs : List Char) : Option ℚ :=
  let digits := cs.takeWhile Char.isDigit
  let rest := cs.dropWhile Char.isDigit
  let fraction := if rest.head? = some '.' then (rest.drop 1).takeWhile Char.isDigit else []
  let rest := if rest.head? = some '.' then (rest.drop 1).dropWhile Char.isDigit else rest
  let exponent := parseExponent rest - fraction.length
  if digits = [] ∧ fraction = [] then none
  else some ((Nat.ofDigitChars 10 (digits ++ fraction) 0 : ℚ) *
    10 ^ exponent.toNat / 10 ^ (-exponent).toNat)

/-- `parseFloat(s)`, rounded to a double; `none` is NaN or an infinity, which JSON writes as
    `null`. -/
def parseFloat (s : String) : Option Binary64.Finite :=
  let number := fun q : ℚ => match Binary64.ofRat q with
    | .finite x => some x
    | _ => none
  match s.toList.dropWhile isWhiteSpace with
  | '-' :: cs => (parseDecimal cs).bind fun q => number (-q)
  | '+' :: cs => (parseDecimal cs).bind number
  | cs => (parseDecimal cs).bind number

theorem digits_isDigit {n : ℕ} : ∀ c ∈ Nat.toDigits 10 n, c.isDigit = true := by
  intro c hc
  exact Nat.isDigit_of_mem_toDigits (by norm_num) (by norm_num) hc

theorem parseDigits_toDigits (n : ℕ) : parseDigits (Nat.toDigits 10 n) = some n := by
  have hall : (Nat.toDigits 10 n).takeWhile Char.isDigit = Nat.toDigits 10 n :=
    List.takeWhile_eq_self_iff.mpr digits_isDigit
  have hne : Nat.toDigits 10 n ≠ [] := Nat.toDigits_ne_nil
  unfold parseDigits
  simp only [hall, if_neg hne, Nat.ofDigitChars_ten_toDigits]

/-- A digit is no white space and no sign. -/
theorem digit_plain {c : Char} (h : c.isDigit = true) :
    isWhiteSpace c = false ∧ c ≠ '-' ∧ c ≠ '+' := by
  have hrange : 48 ≤ c.toNat ∧ c.toNat ≤ 57 := by
    simpa [Char.isDigit, UInt32.le_iff_toNat_le] using h
  refine ⟨?_, ?_, ?_⟩
  · unfold isWhiteSpace
    simp only [Bool.or_eq_false_iff, Bool.and_eq_false_iff, decide_eq_false_iff_not,
      beq_eq_false_iff_ne]
    omega
  · rintro rfl
    exact absurd hrange (by decide)
  · rintro rfl
    exact absurd hrange (by decide)

/-- **`parseInt` reads a number as it is written.** -/
theorem parseInt_toString (n : ℤ) : parseInt (toString n) = some n := by
  cases n with
  | ofNat m =>
    obtain ⟨c, cs, hcs⟩ := List.exists_cons_of_ne_nil (Nat.toDigits_ne_nil (n := m) (b := 10))
    have hplain := digit_plain (digits_isDigit c (hcs ▸ List.mem_cons_self))
    have hread := parseDigits_toDigits m
    rw [hcs] at hread
    unfold parseInt
    rw [toList_ofNat, hcs, List.dropWhile_cons_of_neg (by rw [hplain.1]; exact Bool.false_ne_true)]
    split
    · rename_i heq
      exact absurd (List.cons.inj heq).1 hplain.2.1
    · rename_i heq
      exact absurd (List.cons.inj heq).1 hplain.2.2
    · rw [hread]
      rfl
  | negSucc m =>
    have hdash : isWhiteSpace '-' = false := by decide
    unfold parseInt
    rw [toList_negSucc, List.dropWhile_cons_of_neg (by rw [hdash]; exact Bool.false_ne_true)]
    simp only [parseDigits_toDigits]
    rfl

end ProjectEvaluation.JavaScript
