import Mathlib.Algebra.Ring.Int.Defs
import Mathlib.Data.Int.Init
import Mathlib.Data.Nat.Count
import Mathlib.Tactic.SplitIfs

/-!
# Walking to the n-th mark

Some integers are marked. A walk goes from one integer to the next and counts the marks it meets,
until it has met enough of them.

Results:
* `untilMarks_spec`: where a walk ends there is a mark, and it has met the marks it was to meet.
* `untilMarks_ends`: a walk ends when there are enough marks before it runs out of fuel.
* `marksIn_period`: where the marks are periodic, each period has as many of them. -/

namespace ProjectEvaluation.Marks

/-! ## Marks in an interval -/

section Counting

variable (marked : ℤ → Prop) [DecidablePred marked]

/-- The number of marks after `a`, up to and including `b`. -/
def marksIn (a b : ℤ) : ℕ := Nat.count (fun i => marked (a + 1 + i)) (b - a).toNat

theorem marksIn_self (a : ℤ) : marksIn marked a a = 0 := by
  rw [marksIn, Int.sub_self]
  exact Nat.count_zero _

theorem marksIn_add {a b c : ℤ} (hab : a ≤ b) (hbc : b ≤ c) :
    marksIn marked a c = marksIn marked a b + marksIn marked b c := by
  have hsplit : (c - a).toNat = (b - a).toNat + (c - b).toNat := by omega
  have hshift : ∀ k : ℕ, a + 1 + (((b - a).toNat + k : ℕ) : ℤ) = b + 1 + k := by
    intro k
    omega
  rw [marksIn, hsplit, Nat.count_add]
  simp only [hshift]
  rfl

theorem marksIn_next (a : ℤ) : marksIn marked a (a + 1) = if marked (a + 1) then 1 else 0 := by
  have hone : (a + 1 - a).toNat = 0 + 1 := by omega
  rw [marksIn, hone, Nat.count_succ, Nat.count_zero, Nat.cast_zero, Int.add_zero, Nat.zero_add]

/-- **Periods.** Where the marks are periodic, every period has as many of them as the first one. -/
theorem marksIn_period {p : ℤ} (hp : 0 ≤ p) (hperiodic : ∀ a, marked (a + p) ↔ marked a) (a : ℤ) :
    marksIn marked a (a + p) = marksIn marked 0 p := by
  have hshift : ∀ a, marksIn marked (a + 1) (a + 1 + p) = marksIn marked a (a + p) := by
    intro a
    have hend : a + 1 + p = a + p + 1 := by omega
    have hleft := marksIn_add marked (a := a) (b := a + 1) (c := a + p + 1) (by omega) (by omega)
    have hright := marksIn_add marked (a := a) (b := a + p) (c := a + p + 1) (by omega) (by omega)
    have hsame : marked (a + p + 1) ↔ marked (a + 1) := hend ▸ hperiodic (a + 1)
    rw [marksIn_next] at hleft hright
    rw [hend]
    simp only [hsame] at hright
    omega
  induction a using Int.induction_on with
  | zero => rw [zero_add]
  | succ a ih => rw [hshift, ih]
  | pred a ih =>
    have hstep := hshift (-a - 1)
    rw [Int.sub_add_cancel] at hstep
    rw [← hstep, ih]

end Counting

/-! ## Walks -/

section Walks

variable {S : Type} {next : S → S} {position : S → ℤ} {marked : ℤ → Prop}
  [DecidablePred marked] {n : ℕ}

/-- Go on until `n` marks are counted; `none` where the fuel runs out first. -/
def untilMarks (next : S → S) (position : S → ℤ) (marked : ℤ → Prop)
    [DecidablePred marked] (n : ℕ) :
    ℕ → ℕ → S → Option S
  | 0, count, s => if count < n then none else some s
  | fuel + 1, count, s =>
    if count < n then
      untilMarks next position marked n fuel
        (if marked (position (next s)) then count + 1 else count) (next s)
    else some s

/-- A step counts the mark it meets. -/
theorem marksIn_step (hnext : ∀ s, position (next s) = position s + 1) (s : S) (count : ℕ) :
    (if marked (position (next s)) then count + 1 else count) =
      count + marksIn marked (position s) (position (next s)) := by
  rw [hnext, marksIn_next]
  split_ifs <;> omega

/-- **Where a walk ends** there is a mark, and it has met the marks it was to meet. -/
theorem untilMarks_spec (hnext : ∀ s, position (next s) = position s + 1) {fuel count : ℕ} {s t : S}
    (hcount : count < n)
    (h : untilMarks next position marked n fuel count s = some t) :
    position s < position t ∧ marked (position t) ∧
      count + marksIn marked (position s) (position t) = n := by
  induction fuel generalizing count s with
  | zero =>
    rw [untilMarks, if_pos hcount] at h
    cases h
  | succ fuel ih =>
    have hstep : (if marked (position (next s)) then count + 1 else count) =
        count + marksIn marked (position s) (position (next s)) := marksIn_step hnext s count
    rw [untilMarks, if_pos hcount] at h
    by_cases hmore : (if marked (position (next s)) then count + 1 else count) < n
    · obtain ⟨hlt, hmarked, hmet⟩ := ih hmore h
      have hnext' := hnext s
      refine ⟨by omega, hmarked, ?_⟩
      rw [marksIn_add marked (b := position (next s)) (by omega) (by omega)]
      omega
    · have hdone : t = next s := by
        cases fuel <;> rw [untilMarks, if_neg hmore] at h <;> exact (Option.some.inj h).symm
      have hmark : marked (position (next s)) := by
        by_contra hno
        rw [if_neg hno] at hmore
        omega
      have hnext' := hnext s
      rw [if_pos hmark] at hmore hstep
      rw [hdone]
      exact ⟨by omega, hmark, by omega⟩

/-- **A walk ends** when there are enough marks before it runs out of fuel, and more fuel changes
    nothing. -/
theorem untilMarks_ends (hnext : ∀ s, position (next s) = position s + 1) {fuel count : ℕ} {s : S}
    (h : n ≤ count + marksIn marked (position s) (position s + fuel)) :
    ∃ t, ∀ more, untilMarks next position marked n (fuel + more) count s = some t := by
  induction fuel generalizing count s with
  | zero =>
    have hdone : ¬ count < n := by
      rw [Nat.cast_zero, add_zero, marksIn_self] at h
      omega
    refine ⟨s, fun more => ?_⟩
    rw [Nat.zero_add]
    cases more <;> rw [untilMarks, if_neg hdone]
  | succ fuel ih =>
    by_cases hcount : count < n
    · have hfuel : position s + ((fuel + 1 : ℕ) : ℤ) = position (next s) + fuel := by
        rw [hnext]
        omega
      have hnext' := hnext s
      rw [hfuel, marksIn_add marked (b := position (next s)) (by omega) (by omega), ← Nat.add_assoc,
        ← marksIn_step hnext] at h
      obtain ⟨t, ht⟩ := ih h
      refine ⟨t, fun more => ?_⟩
      rw [Nat.add_right_comm, untilMarks, if_pos hcount]
      exact ht more
    · refine ⟨s, fun more => ?_⟩
      rw [Nat.add_right_comm, untilMarks, if_neg hcount]

end Walks

end ProjectEvaluation.Marks
