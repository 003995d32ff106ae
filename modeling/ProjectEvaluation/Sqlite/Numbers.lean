import ProjectEvaluation.Lib.Binary64
import ProjectEvaluation.Lib.Decimal

/-!
# `util.c` and `vdbe.c`: the number of a text

`sqlite3AtoF` takes up to 20 digits of a numeral as a 64-bit integer, scales it by powers of ten
in pairs of doubles and adds the two doubles of the pair. The result is not always the double
nearest to the numeral. A numeral without a point and an exponent is kept as an integer where it
has 64 bits, and so is a double that is an integer, the first and the last 64-bit integer aside.
-/

namespace ProjectEvaluation

/-- The 64-bit integers. -/
def inInt64 : ℤ → Bool
  | .ofNat m => m < 2 ^ 63
  | .negSucc m => m < 2 ^ 63

theorem inInt64_iff (n : ℤ) : inInt64 n = true ↔ -2 ^ 63 ≤ n ∧ n < 2 ^ 63 := by
  cases n with
  | ofNat m => simp only [inInt64, decide_eq_true_eq, Int.ofNat_eq_natCast]; omega
  | negSucc m => simp only [inInt64, decide_eq_true_eq]; omega

/-- The last 64-bit integer is no double. -/
theorem Binary64.Finite.integer_ne_last (x : Binary64.Finite) (hx : x.value.den = 1) :
    x.value.num ≠ 2 ^ 63 - 1 := by
  intro hnum
  have hvalue : x.value = 2 ^ 63 - 1 := by
    rw [← Rat.coe_int_num_of_den_eq_one hx, hnum]
    norm_num
  have hrounded := x.rounded
  rw [hvalue] at hrounded
  exact absurd hrounded (by decide +kernel)

namespace Sqlite

open Decimal

/-! ## `sqlite3AtoF` -/

/-- `sqlite3Isspace` (`sqliteInt.h`, line 4695). -/
def sqlite3Isspace (c : Char) : Bool := c.toNat == 32 || (9 ≤ c.toNat && c.toNat ≤ 13)

/-- The significand from which on no digit is added, `(LARGEST_UINT64-9)/10` (`util.c`, line 581).
    -/
def fullSignificand : ℕ := (2 ^ 64 - 1 - 9) / 10

/-- The digits before the point (`util.c` lines 578–586): the significand `s` and the shift `d`. -/
def wholeDigits (digits : List ℕ) : ℕ × ℤ :=
  digits.foldl (fun (s, d) c => if fullSignificand ≤ s then (s, d + 1) else (10 * s + c, d)) (0, 0)

/-- The digits after the point (lines 594–601). -/
def fractionDigits (sd : ℕ × ℤ) (digits : List ℕ) : ℕ × ℤ :=
  digits.foldl (fun (s, d) c => if s < fullSignificand then (10 * s + c, d - 1) else (s, d)) sd

/-- The digits of the exponent (lines 625–629). -/
def exponentDigits (digits : List ℕ) : ℕ :=
  digits.foldl (fun e c => if e < 10000 then 10 * e + c else 10000) 0

/-- `while( e>0 && s<((LARGEST_UINT64-0x7ff)/10) )` (lines 646–649), for `e ≥ 0`. -/
def growSignificand : ℕ → ℕ → ℕ × ℕ
  | s, 0 => (s, 0)
  | s, e + 1 => if s < (2 ^ 64 - 1 - 0x7ff) / 10 then growSignificand (10 * s) e else (s, e + 1)

/-- `while( e<0 && (s%10)==0 )` (lines 650–653), for the exponent `-e`. -/
def shrinkSignificand : ℕ → ℕ → ℕ × ℕ
  | s, 0 => (s, 0)
  | s, e + 1 => if s % 10 = 0 then shrinkSignificand (s / 10) e else (s, e + 1)

/-- `dekkerMul2` (lines 467–491): the pair `x` times the pair of `y` and `yy`. -/
def dekkerMul2 (x : Binary64 × Binary64) (y yy : Binary64) : Binary64 × Binary64 :=
  -- the mask 0xfffffffffc000000 clears 26 bits
  let hx := x.1.clearLow 26
  let tx := x.1 - hx
  let hy := y.clearLow 26
  let ty := y - hy
  let p := hx * hy
  let q := hx * ty + tx * hy
  let c := p + q
  let cc := p - c + q + tx * ty
  let cc := x.1 * yy + x.2 * y + cc
  (c + cc, c - (c + cc) + cc)

/-- The significand as a pair of doubles (lines 655–671). -/
def significandPair (s : ℕ) : Binary64 × Binary64 :=
  match Binary64.ofRat s with
  | .finite r => (.finite r, .ofRat (if r.value ≤ 18446744073709549568 then s - r.value else 0))
  | r => (r, .ofRat 0)

/-- The pair times `10 ^ e` (lines 674–687). -/
def scaleUp (rr : Binary64 × Binary64) (e : ℕ) : Binary64 × Binary64 :=
  let rr :=
    (dekkerMul2 · (.ofRat (10 ^ 100)) (.ofRat (-15902891109759918046 * 10 ^ 64)))^[e / 100] rr
  let rr := (dekkerMul2 · (.ofRat (10 ^ 10)) (.ofRat 0))^[e % 100 / 10] rr
  (dekkerMul2 · (.ofRat 10) (.ofRat 0))^[e % 10] rr

/-- The pair over `10 ^ e` (lines 689–700). -/
def scaleDown (rr : Binary64 × Binary64) (e : ℕ) : Binary64 × Binary64 :=
  let rr := (dekkerMul2 · (.ofRat (1 / 10 ^ 100))
    (.ofRat (-199918998026028836196 / 10 ^ 137)))^[e / 100] rr
  let rr := (dekkerMul2 · (.ofRat (1 / 10 ^ 10))
    (.ofRat (-36432197315497741579 / 10 ^ 46)))^[e % 100 / 10] rr
  (dekkerMul2 · (.ofRat (1 / 10)) (.ofRat (-55511151231257827021 / 10 ^ 37)))^[e % 10] rr

/-- The sign and the digits of the exponent as a number. -/
def exponentOf : Option (Bool × List ℕ) → ℤ
  | none => 0
  | some (true, digits) => -exponentDigits digits
  | some (false, digits) => exponentDigits digits

/-- The double of `s * 10 ^ e` (lines 645–701); NaN, which an overflow leads to, is an infinity. -/
def scaled (s : ℕ) (e : ℤ) : Binary64 :=
  let rr :=
    if 0 < e then
      let (s, e) := growSignificand s e.toNat
      scaleUp (significandPair s) e
    else
      let (s, e) := shrinkSignificand s (-e).toNat
      scaleDown (significandPair s) e
  if rr.1 + rr.2 = .nan then .inf false else rr.1 + rr.2

/-- The double of a numeral (lines 635–702). -/
def sqlite3AtoF (numeral : Numeral) : Binary64 :=
  let sd := fractionDigits (wholeDigits numeral.whole) (numeral.fraction.getD [])
  if sd.1 = 0 then .ofRat 0
  else
    let result := scaled sd.1 (exponentOf numeral.exponent + sd.2)
    if numeral.negative then -result else result

/-! ## Affinities -/

/-- A number with the type SQLite gives it. -/
inductive Number
  | int (n : ℤ)
  | real (x : Binary64)
  deriving DecidableEq

/-- `sqlite3VdbeIntegerAffinity` (`vdbemem.c` lines 690–715): a double that is an integer, but
    neither the first nor the last of 64 bits, becomes this integer. -/
def sqlite3VdbeIntegerAffinity : Binary64 → Number
  | .finite x =>
    if x.value.den = 1 ∧ -2 ^ 63 < x.value.num ∧ x.value.num < 2 ^ 63 - 1 then .int x.value.num
    else .real (.finite x)
  | x => .real x

/-- `applyNumericAffinity` with `bTryForInt` (`vdbe.c` lines 354–375): the number of a text that is
    a numeral between blanks. `alsoAnInt` tries `sqlite3Atoi64` on a numeral of digits, after a test
    on small doubles that gives the same integer. -/
def applyNumericAffinity (s : String) : Option Number :=
  (signedNumeral (fun c => if c.isDigit then some (c.toNat - 48) else none)
      ((s.toList.dropWhile sqlite3Isspace).reverse.dropWhile sqlite3Isspace).reverse).map
        fun numeral =>
    match numeral.integer with
    | some n => if inInt64 n then .int n else sqlite3VdbeIntegerAffinity (sqlite3AtoF numeral)
    | none => sqlite3VdbeIntegerAffinity (sqlite3AtoF numeral)

/-! ## What a number can be -/

theorem sqlite3VdbeIntegerAffinity_int {x : Binary64} {n : ℤ}
    (h : sqlite3VdbeIntegerAffinity x = .int n) : -2 ^ 63 < n ∧ n < 2 ^ 63 - 1 := by
  cases x with
  | finite x =>
    rw [sqlite3VdbeIntegerAffinity] at h
    split_ifs at h with hinteger
    cases h
    exact hinteger.2
  | inf negative => cases h
  | nan => cases h

theorem sqlite3VdbeIntegerAffinity_real {x y : Binary64}
    (h : sqlite3VdbeIntegerAffinity x = .real y) : y = x := by
  cases x with
  | finite x =>
    rw [sqlite3VdbeIntegerAffinity] at h
    split_ifs at h
    cases h
    rfl
  | inf negative => cases h; rfl
  | nan => cases h; rfl

theorem scaled_ne_nan (s : ℕ) (e : ℤ) : scaled s e ≠ .nan := by
  rw [scaled]
  generalize (ite (0 < e) _ _ : Binary64 × Binary64) = rr
  by_cases hnan : rr.1 + rr.2 = .nan
  · rw [if_pos hnan]
    exact Binary64.noConfusion
  · rw [if_neg hnan]
    exact hnan

theorem sqlite3AtoF_ne_nan (numeral : Numeral) : sqlite3AtoF numeral ≠ .nan := by
  rw [sqlite3AtoF]
  split_ifs
  · exact Binary64.ofRat_ne_nan _
  · exact Binary64.neg_ne_nan (scaled_ne_nan _ _)
  · exact scaled_ne_nan _ _

/-- A text is read as an integer of 64 bits or as a double that is turned into an integer if it
    is one. -/
theorem applyNumericAffinity_cases {s : String} {number : Number}
    (h : applyNumericAffinity s = some number) :
    (∃ n, number = .int n ∧ inInt64 n = true) ∨
      ∃ x, x ≠ .nan ∧ number = sqlite3VdbeIntegerAffinity x := by
  obtain ⟨numeral, -, rfl⟩ := Option.map_eq_some_iff.mp h
  cases numeral.integer with
  | none => exact Or.inr ⟨_, sqlite3AtoF_ne_nan numeral, rfl⟩
  | some n =>
    by_cases hn : inInt64 n = true
    · exact Or.inl ⟨n, if_pos hn, hn⟩
    · exact Or.inr ⟨_, sqlite3AtoF_ne_nan numeral, if_neg hn⟩

end Sqlite

end ProjectEvaluation
