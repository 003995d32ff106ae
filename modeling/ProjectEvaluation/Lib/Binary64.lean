import Mathlib.Data.Rat.Lemmas
import Mathlib.Algebra.Order.Ring.Rat
import Mathlib.Tactic.Linarith

/-!
# Doubles

The numbers of IEEE 754 binary64 and their arithmetic, rounded to the nearest, ties to even.
A finite double is the rational number it stands for. Its absolute value is a whole number of
units of `2 ^ -1074`, so the subnormal doubles need no case of their own. Both zeros are 0.

Results:
* `nearest_mul`: a whole number with 53 significant bits is not rounded.
* `round_round`: a rounded number is not rounded again.
* `ofRat_value`: a double is its own rounding.
-/

namespace ProjectEvaluation.Binary64

/-- The number 1 in units. -/
def unit : ℕ := 1 <<< 1074

/-- The first power of two that is no double, in units. -/
def bound : ℕ := 1 <<< 2098

/-- `a / b` rounded to 53 significant bits, ties to even. -/
def nearest (a b : ℕ) : ℕ :=
  let s := (a / b).log2 - 52
  let q := a / (b <<< s)
  let r := a % (b <<< s)
  (if b <<< s < 2 * r ∨ b <<< s = 2 * r ∧ q % 2 = 1 then q + 1 else q) <<< s

/-- The units of the absolute value, rounded. -/
def units (q : ℚ) : ℕ := nearest (q.num.natAbs * unit) q.den

/-- The number with a sign and units. -/
def ofUnits (negative : Bool) (n : ℕ) : ℚ := if negative then -mkRat n unit else mkRat n unit

/-- The rounding to 53 significant bits, with no bound on the exponent. -/
def round (q : ℚ) : ℚ := ofUnits (q < 0) (units q)

theorem unit_ne_zero : unit ≠ 0 := by decide +kernel

/-- The last of 53 significant bits is the last bit or a higher one. -/
theorem dvd_nearest (a b : ℕ) : 2 ^ ((nearest a b).log2 - 52) ∣ nearest a b := by
  have hquotient : a / (b <<< ((a / b).log2 - 52)) < 2 ^ 53 := by
    rw [Nat.shiftLeft_eq, ← Nat.div_div_eq_div_mul, Nat.div_lt_iff_lt_mul (Nat.two_pow_pos _),
      ← pow_add]
    have hlog : a / b < 2 ^ ((a / b).log2 + 1) := Nat.lt_log2_self
    exact lt_of_lt_of_le hlog (Nat.pow_le_pow_right (by omega) (by omega))
  obtain ⟨s, m, hm, hle⟩ : ∃ s m, nearest a b = m * 2 ^ s ∧ m ≤ 2 ^ 53 := by
    refine ⟨_, _, Nat.shiftLeft_eq _ _, ?_⟩
    split_ifs <;> omega
  rw [hm]
  by_cases hzero : m = 0
  · simp [hzero]
  · rcases Nat.lt_or_eq_of_le hle with hlt | heq
    · have hlog : (m * 2 ^ s).log2 - 52 ≤ s := by
        have hprod : m * 2 ^ s < 2 ^ (53 + s) := by
          rw [pow_add]
          exact Nat.mul_lt_mul_of_pos_right hlt (Nat.two_pow_pos s)
        have hne : m * 2 ^ s ≠ 0 := Nat.mul_ne_zero hzero (Nat.two_pow_pos s).ne'
        have := (Nat.log2_lt hne).mpr hprod
        omega
      exact (Nat.pow_dvd_pow 2 hlog).mul_left m
    · have hpower : m * 2 ^ s = 2 ^ (53 + s) := by rw [heq, pow_add]
      rw [hpower, Nat.log2_two_pow]
      exact Nat.pow_dvd_pow 2 (by omega)

/-- A number is rounded up to the last of 53 significant bits at most. -/
theorem nearest_le (a b : ℕ) : nearest a b ≤ a / b + 2 ^ ((a / b).log2 - 52) := by
  rw [nearest]
  generalize (a / b).log2 - 52 = s
  have hquotient : a / (b <<< s) * 2 ^ s ≤ a / b := by
    rw [Nat.shiftLeft_eq, ← Nat.div_div_eq_div_mul]
    exact Nat.div_mul_le_self (a / b) (2 ^ s)
  split_ifs
  · rw [Nat.shiftLeft_eq (_ + 1), Nat.add_mul, Nat.one_mul]
    omega
  · rw [Nat.shiftLeft_eq (a / _)]
    exact hquotient.trans (Nat.le_add_right _ _)

/-- **A whole number with 53 significant bits is not rounded.** -/
theorem nearest_mul {n b : ℕ} (hn : 2 ^ (n.log2 - 52) ∣ n) (hb : b ≠ 0) :
    nearest (n * b) b = n := by
  obtain ⟨m, hm⟩ := hn
  have hpos := Nat.pos_of_ne_zero hb
  have hwhole : n * b / b = n := Nat.mul_div_cancel n hpos
  rw [nearest, hwhole]
  generalize n.log2 - 52 = s at *
  have hshift : b <<< s = 2 ^ s * b := by rw [Nat.shiftLeft_eq, Nat.mul_comm]
  have hprod : n * b = b <<< s * m := by rw [hm, hshift, Nat.mul_right_comm]
  have hdivisor : 0 < b <<< s := by
    rw [hshift]
    exact Nat.mul_pos (Nat.two_pow_pos s) hpos
  have hquotient : n * b / b <<< s = m := by rw [hprod, Nat.mul_div_cancel_left m hdivisor]
  have hrest : n * b % b <<< s = 0 := by rw [hprod, Nat.mul_mod_right]
  simp only [hquotient, hrest]
  rw [if_neg (by omega), Nat.shiftLeft_eq, hm, Nat.mul_comm]

/-- The units of a number that is a whole number of them. -/
theorem units_ofUnits {n : ℕ} (hn : 2 ^ (n.log2 - 52) ∣ n) (negative : Bool) :
    units (ofUnits negative n) = n := by
  have hunits : ∀ (m : ℤ) (q : ℚ), m.natAbs = n → q = mkRat m unit → units q = n := by
    intro m q hm hq
    have hcross : q.num * unit = m * q.den := by
      rw [← Rat.mkRat_eq_iff q.den_ne_zero unit_ne_zero, Rat.mkRat_self, hq]
    have habs : q.num.natAbs * unit = n * q.den := by
      rw [← hm, ← Int.natAbs_natCast unit, ← Int.natAbs_natCast q.den, ← Int.natAbs_mul,
        ← Int.natAbs_mul, hcross]
    rw [units, habs, nearest_mul hn q.den_ne_zero]
  cases negative with
  | false =>
    apply hunits n _ (Int.natAbs_natCast n)
    rw [ofUnits, if_neg Bool.false_ne_true]
  | true =>
    apply hunits (-n)
    · rw [Int.natAbs_neg, Int.natAbs_natCast]
    · rw [ofUnits, if_pos rfl, Rat.neg_mkRat]

theorem units_round (q : ℚ) : units (round q) = units q := units_ofUnits (dvd_nearest _ _) _

theorem ofUnits_neg {negative : Bool} {n : ℕ} (hn : n ≠ 0) :
    decide (ofUnits negative n < 0) = negative := by
  have hpos : (0 : ℚ) < mkRat n unit := by
    rw [Rat.mkRat_eq_div]
    have hunit : (0 : ℚ) < unit := by exact_mod_cast Nat.pos_of_ne_zero unit_ne_zero
    have hnum : (0 : ℚ) < n := by exact_mod_cast Nat.pos_of_ne_zero hn
    exact div_pos (by exact_mod_cast hnum) hunit
  cases negative with
  | false => simp [ofUnits, hpos.le]
  | true => simp [ofUnits, hpos]

/-- **A rounded number is not rounded again.** -/
theorem round_round (q : ℚ) : round (round q) = round q := by
  rw [round, units_round]
  by_cases hzero : units q = 0
  · have hround : round q = 0 := by rw [round, hzero]; unfold ofUnits; split_ifs <;> simp
    rw [hround, hzero]
    simp [ofUnits]
  · congr 1
    exact ofUnits_neg hzero

/-- A finite double. -/
structure Finite where
  value : ℚ
  rounded : round value = value
  small : units value < bound
  deriving DecidableEq

end Binary64

/-- A double. -/
inductive Binary64
  | finite (x : Binary64.Finite)
  | inf (negative : Bool)
  | nan
  deriving DecidableEq

namespace Binary64

/-- The double nearest to a number; an infinity from the bound on. -/
def ofRat (q : ℚ) : Binary64 :=
  if h : units q < bound then .finite ⟨round q, round_round q, by rwa [units_round]⟩
  else .inf (q < 0)

/-- **A double is its own rounding.** -/
theorem ofRat_value (x : Finite) : ofRat x.value = .finite x := by
  obtain ⟨q, hrounded, hsmall⟩ := x
  simp only [ofRat, hsmall, hrounded, dite_true]

theorem ofRat_ne_nan (q : ℚ) : ofRat q ≠ .nan := by
  unfold ofRat
  split_ifs <;> exact Binary64.noConfusion

-- no tactic computes a rounding to compare two doubles
attribute [irreducible] ofRat

/-! ## Arithmetic -/

/-- `-x`. -/
def neg : Binary64 → Binary64
  | .finite x => ofRat (-x.value)
  | .inf negative => .inf (!negative)
  | .nan => .nan

/-- `x + y`. -/
def add : Binary64 → Binary64 → Binary64
  | .finite x, .finite y => ofRat (x.value + y.value)
  | .nan, _ | _, .nan => .nan
  | .inf a, .inf b => if a = b then .inf a else .nan
  | .inf a, .finite _ | .finite _, .inf a => .inf a

/-- `x - y`. -/
def sub (x y : Binary64) : Binary64 := add x (neg y)

/-- `x * y`. -/
def mul : Binary64 → Binary64 → Binary64
  | .finite x, .finite y => ofRat (x.value * y.value)
  | .nan, _ | _, .nan => .nan
  | .inf a, .inf b => .inf (a != b)
  | .inf a, .finite x | .finite x, .inf a => if x.value = 0 then .nan else .inf (a != (x.value < 0))

instance : Neg Binary64 := ⟨neg⟩
instance : Add Binary64 := ⟨add⟩
instance : Sub Binary64 := ⟨sub⟩
instance : Mul Binary64 := ⟨mul⟩

theorem neg_ne_nan {x : Binary64} (hx : x ≠ .nan) : -x ≠ .nan := by
  cases x with
  | finite x => exact ofRat_ne_nan _
  | inf negative => exact Binary64.noConfusion
  | nan => exact absurd rfl hx

/-- A finite double without the lowest `k` of its 52 stored bits. -/
def Finite.clearLow (x : Finite) (k : ℕ) : Binary64 :=
  let n := units x.value
  let s := n.log2 - 52 + k
  ofRat (ofUnits (x.value < 0) ((n >>> s) <<< s))

/-- `clearLow` of a double that may be none. -/
def clearLow : Binary64 → ℕ → Binary64
  | .finite x, k => x.clearLow k
  | x, _ => x

example : decide (ofRat (1 / 10) = ofRat (1 / 10 + 1 / 10 ^ 18)) = true := by decide +kernel

end Binary64

end ProjectEvaluation
