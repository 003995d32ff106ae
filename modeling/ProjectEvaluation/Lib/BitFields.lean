import Mathlib.Data.Nat.Bitwise

/-!
# Fields of bits in numbers

Unsigned machine words are numbers. A word that is put together from fields by shifts and
`|` is a sum of the fields at their places, and masks take fields out again.

Results:
* `or_low`, `or_shifted`: `|` of fields that do not overlap.
* `and_field`, `and_bit`: what a mask leaves.
-/

namespace ProjectEvaluation.BitFields

/-- A field below the others. -/
theorem or_low {m d k : ℕ} (hm : m % 2 ^ k = 0) (hd : d < 2 ^ k) : m ||| d = m + d := by
  obtain ⟨n, rfl⟩ := Nat.dvd_of_mod_eq_zero hm
  rw [Nat.mul_comm, ← Nat.shiftLeft_eq, Nat.shiftLeft_add_eq_or_of_lt hd]

/-- Fields above the lowest one. -/
theorem or_shifted (a b : ℕ) {d k : ℕ} (hd : d < 2 ^ k) :
    (a * 2 ^ k + d) ||| b * 2 ^ k = (a ||| b) * 2 ^ k + d := by
  have hmod : ∀ n, n * 2 ^ k % 2 ^ k = 0 := fun n => Nat.mul_mod_left n (2 ^ k)
  calc (a * 2 ^ k + d) ||| b * 2 ^ k = (a * 2 ^ k ||| d) ||| b * 2 ^ k := by rw [or_low (hmod a) hd]
    _ = (a * 2 ^ k ||| b * 2 ^ k) ||| d := by ac_rfl
    _ = (a ||| b) * 2 ^ k ||| d := by
      rw [← Nat.shiftLeft_eq, ← Nat.shiftLeft_eq, ← Nat.shiftLeft_or_distrib, Nat.shiftLeft_eq]
    _ = (a ||| b) * 2 ^ k + d := or_low (hmod (a ||| b)) hd

theorem and_shiftLeft (n m k : ℕ) : n &&& m <<< k = (n >>> k &&& m) <<< k := by
  apply Nat.eq_of_testBit_eq
  intro i
  simp only [Nat.testBit_and, Nat.testBit_shiftLeft, Nat.testBit_shiftRight]
  by_cases hi : k ≤ i
  · simp [hi]
  · simp [hi]

/-- The field of width `w` at place `k`. -/
theorem and_field (n k w : ℕ) : n &&& (2 ^ w - 1) <<< k = n / 2 ^ k % 2 ^ w * 2 ^ k := by
  rw [and_shiftLeft, Nat.and_two_pow_sub_one_eq_mod, Nat.shiftRight_eq_div_pow, Nat.shiftLeft_eq]

/-- A single bit. -/
theorem and_bit (n k : ℕ) : n &&& 2 ^ k = 0 ↔ n / 2 ^ k % 2 = 0 := by
  have hfield := and_field n k 1
  rw [Nat.shiftLeft_eq, pow_one, Nat.add_one_sub_one, Nat.one_mul] at hfield
  rw [hfield]
  simp

end ProjectEvaluation.BitFields
