import Mathlib.Data.Nat.Digits.Defs
import Mathlib.Data.Rat.Defs
import Mathlib.Tactic.NormNum

/-!
# Decimal numerals

The characters `toString` writes for a number, and the parts of a numeral that may have a
sign, a point and an exponent.

Results:
* `toList_ofNat`, `toList_negSucc`: the numeral of an integer is its digits, after a
  minus sign if it is negative.
* `mem_toDigits`: what the digits are.
-/

namespace ProjectEvaluation.Decimal

/-- What is said of the characters of a list is decided along the list, and not by trying all
    characters. -/
instance (priority := high) decidableBAllChar (cs : List Char) (p : Char → Prop) [DecidablePred p] :
    Decidable (∀ c ∈ cs, p c) := List.decidableBAll p cs

theorem toList_nat (n : ℕ) : (toString n).toList = Nat.toDigits 10 n := Nat.toList_repr

theorem toList_ofNat (n : ℕ) : (toString (Int.ofNat n)).toList = Nat.toDigits 10 n :=
  Nat.toList_repr

theorem toList_negSucc (n : ℕ) : (toString (Int.negSucc n)).toList = '-' :: Nat.toDigits 10
    (n + 1) := by
  change ("-" ++ Nat.repr (n + 1)).toList = _
  rw [String.toList_append, Nat.toList_repr]
  rfl

theorem mem_toDigits {n : ℕ} {c : Char} (h : c ∈ Nat.toDigits 10 n) :
    ∃ d < 10, c = Nat.digitChar d := by
  induction n using Nat.strong_induction_on with
  | _ n ih =>
    by_cases hn : n < 10
    · rw [Nat.toDigits_of_lt_base hn] at h
      exact ⟨n, hn, List.mem_singleton.mp h⟩
    · rw [Nat.toDigits_of_base_le (by norm_num) (by omega)] at h
      rcases List.mem_append.mp h with h | h
      · exact ih (n / 10) (by omega) h
      · exact ⟨n % 10, by omega, List.mem_singleton.mp h⟩

/-- What holds of the digits and of the minus sign holds of every character of a numeral. -/
theorem forall_mem_toString {p : Char → Prop} (hdigit : ∀ n, ∀ c ∈ Nat.toDigits 10 n, p c)
    (hsign : p '-') (n : ℤ) :
    ∀ c ∈ (toString n).toList, p c := by
  intro c hc
  cases n with
  | ofNat n =>
    rw [toList_ofNat] at hc
    exact hdigit n c hc
  | negSucc n =>
    rw [toList_negSucc] at hc
    rcases List.mem_cons.mp hc with rfl | hc
    · exact hsign
    · exact hdigit (n + 1) c hc

/-! ## The number of some digits -/

theorem ofDigitChars_lt {ds : List Char} (h : ∀ c ∈ ds, c.isDigit = true) :
    Nat.ofDigitChars 10 ds 0 < 10 ^ ds.length := by
  induction ds with
  | nil => simp
  | cons c ds ih =>
    have hrest := ih fun d hd => h d (List.mem_cons_of_mem c hd)
    have hc : c.toNat ≤ 57 := by
      have hdigit := h c List.mem_cons_self
      simp only [Char.isDigit, Bool.and_eq_true, decide_eq_true_eq] at hdigit
      exact hdigit.2
    have hfirst : c.toNat - '0'.toNat ≤ 9 := by
      have hzero : '0'.toNat = 48 := rfl
      omega
    rw [Nat.ofDigitChars_cons, Nat.ofDigitChars_eq_ofDigitChars_zero, List.length_cons, pow_succ,
      Nat.mul_zero, Nat.zero_add]
    have hmul := Nat.mul_le_mul_left (10 ^ ds.length) hfirst
    omega

/-- As many digits of the same number are the same. -/
theorem ofDigitChars_inj {as bs : List Char} (ha : ∀ c ∈ as, c.isDigit = true)
    (hb : ∀ c ∈ bs, c.isDigit = true) (hlength : as.length = bs.length)
    (h : Nat.ofDigitChars 10 as 0 = Nat.ofDigitChars 10 bs 0) : as = bs := by
  induction as generalizing bs with
  | nil => exact (List.eq_nil_of_length_eq_zero hlength.symm).symm
  | cons a as ih =>
    obtain ⟨b, bs, rfl⟩ := List.exists_cons_of_length_eq_add_one hlength.symm
    have hsame : as.length = bs.length := Nat.succ.inj hlength
    have halt := ofDigitChars_lt fun d hd => ha d (List.mem_cons_of_mem a hd)
    have hblt := ofDigitChars_lt fun d hd => hb d (List.mem_cons_of_mem b hd)
    rw [Nat.ofDigitChars_cons, Nat.ofDigitChars_cons, Nat.ofDigitChars_eq_ofDigitChars_zero,
      Nat.ofDigitChars_eq_ofDigitChars_zero (l := bs), hsame, Nat.mul_zero, Nat.zero_add,
      Nat.zero_add] at h
    rw [hsame] at halt
    have hfirst := congrArg (· / 10 ^ bs.length) h
    simp only [Nat.mul_add_div (Nat.pow_pos (n := bs.length) (show 0 < 10 by decide)),
      Nat.div_eq_of_lt halt, Nat.div_eq_of_lt hblt, Nat.add_zero] at hfirst
    have hrest := congrArg (· % 10 ^ bs.length) h
    simp only [Nat.mul_add_mod, Nat.mod_eq_of_lt halt, Nat.mod_eq_of_lt hblt] at hrest
    have hchars : a = b := by
      have hda := ha a List.mem_cons_self
      have hdb := hb b List.mem_cons_self
      simp only [Char.isDigit, Bool.and_eq_true, decide_eq_true_eq, ge_iff_le,
        UInt32.le_iff_toNat_le] at hda hdb
      have hzero : '0'.toNat = 48 := rfl
      have hvalue : '0'.val.toNat = 48 := rfl
      refine Char.toNat_inj.mp ?_
      have hta : a.toNat = a.val.toNat := rfl
      have htb : b.toNat = b.val.toNat := rfl
      omega
    rw [hchars, ih (fun d hd => ha d (List.mem_cons_of_mem a hd))
      (fun d hd => hb d (List.mem_cons_of_mem b hd)) hsame hrest]

/-- The last digits of a number. -/
theorem ofDigitChars_drop (n k : ℕ) :
    Nat.ofDigitChars 10 ((Nat.toDigits 10 n).drop k) 0 =
      n % 10 ^ ((Nat.toDigits 10 n).drop k).length := by
  have hdigits : ∀ c ∈ (Nat.toDigits 10 n).drop k, c.isDigit = true := fun c hc =>
    Nat.isDigit_of_mem_toDigits (by norm_num) (by norm_num) (List.mem_of_mem_drop hc)
  have hlt := ofDigitChars_lt hdigits
  have hall := Nat.ofDigitChars_ten_toDigits (n := n)
  rw [← List.take_append_drop k (Nat.toDigits 10 n), Nat.ofDigitChars_append,
    Nat.ofDigitChars_eq_ofDigitChars_zero] at hall
  have hmod := congrArg (· % 10 ^ ((Nat.toDigits 10 n).drop k).length) hall
  simp only [Nat.mul_add_mod, Nat.mod_eq_of_lt hlt] at hmod
  exact hmod

/-! ## Numerals -/

/-- A numeral in its parts; the digits by their values. -/
structure Numeral where
  negative : Bool
  whole : List ℕ
  /-- The digits after the point, where there is a point. -/
  fraction : Option (List ℕ)
  /-- The sign and the digits of the exponent, where there is one. -/
  exponent : Option (Bool × List ℕ)
  deriving DecidableEq

/-- The number of digits. -/
def ofDigits (digits : List ℕ) : ℕ := digits.foldl (fun n d => 10 * n + d) 0

/-- The exponent after the digits of a numeral, read by `digit`: nothing, or a letter and digits
    with or without a sign. -/
def exponentPart (digit : Char → Option ℕ) : List Char → Option (Option (Bool × List ℕ))
  | [] => some none
  | e :: cs =>
    let digits := fun ds : List Char => if ds = [] then none else ds.mapM digit
    if e ≠ 'e' ∧ e ≠ 'E' then none
    else
      match cs with
      | '-' :: ds => (digits ds).map fun ds => some (true, ds)
      | '+' :: ds => (digits ds).map fun ds => some (false, ds)
      | ds => (digits ds).map fun ds => some (false, ds)

/-- The numeral after its sign: digits, fraction, exponent. -/
def unsignedNumeral (digit : Char → Option ℕ) (negative : Bool) (cs : List Char) : Option Numeral :=
  let isDigit := fun c => (digit c).isSome
  let values := fun ds : List Char => ds.filterMap digit
  let whole := values (cs.takeWhile isDigit)
  let rest := cs.dropWhile isDigit
  let point := rest.head? = some '.'
  let fraction := if point then some (values ((rest.drop 1).takeWhile isDigit)) else none
  let rest := if point then (rest.drop 1).dropWhile isDigit else rest
  if whole = [] ∧ fraction.getD [] = [] then none
  else (exponentPart digit rest).map fun exponent => ⟨negative, whole, fraction, exponent⟩

/-- A numeral with or without a sign. -/
def signedNumeral (digit : Char → Option ℕ) : List Char → Option Numeral
  | '-' :: cs => unsignedNumeral digit true cs
  | '+' :: cs => unsignedNumeral digit false cs
  | cs => unsignedNumeral digit false cs

/-- The integer of a numeral of digits only. -/
def Numeral.integer (numeral : Numeral) : Option ℤ :=
  if numeral.fraction = none ∧ numeral.exponent = none then
    some (if numeral.negative then -ofDigits numeral.whole else ofDigits numeral.whole)
  else none

/-- The number a numeral stands for. -/
def Numeral.value (numeral : Numeral) : ℚ :=
  let fraction := numeral.fraction.getD []
  let significand : ℕ := ofDigits (numeral.whole ++ fraction)
  let exponent : ℤ := numeral.exponent.elim 0 fun (negative, digits) =>
    if negative then -ofDigits digits else ofDigits digits
  let scale := exponent - fraction.length
  let magnitude : ℚ :=
    if 0 ≤ scale then mkRat (significand * 10 ^ scale.toNat) 1
    else mkRat significand (10 ^ (-scale).toNat)
  if numeral.negative then -magnitude else magnitude

end ProjectEvaluation.Decimal
