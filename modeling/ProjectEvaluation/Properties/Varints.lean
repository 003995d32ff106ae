import ProjectEvaluation.Lib.BitFields
import ProjectEvaluation.Sqlite.Varint
import Mathlib.Tactic.Ring

/-!
# Variable-length integers

`sqlite3GetVarint` keeps the even and the odd bytes in two 32-bit registers, shifts both by 14
places at a time, and masks them as late as it can. The plain way to read a number takes one
byte after the other (`readVarint`).

Main results:
* `varint_readers`: the two agree on all bytes, and `getVarint32` saturates.
* `varint_round_trip`: what `sqlite3PutVarint` writes is read back, whatever follows it.
* `varintLen_iff`: `sqlite3VarintLen` is the number of bytes written, below 2^63.
-/

namespace ProjectEvaluation.Sqlite

open BitFields

/-! ## Reading byte by byte -/

/-- Read a number byte by byte: `k` bytes may hold seven bits, and the one after them holds eight.
    -/
def readVarint : ℕ → ℕ → List UInt8 → ℕ × ℕ
  | 0, v, p => (v * 2 ^ 8 + byte p 0, 1)
  | k + 1, v, p =>
    if byte p 0 < 0x80 then (v * 2 ^ 7 + byte p 0, 1)
    else
      let (w, n) := readVarint k (v * 2 ^ 7 + byte p 0 % 2 ^ 7) (p.drop 1)
      (w, n + 1)

theorem byte_lt (p : List UInt8) (i : ℕ) : byte p i < 2 ^ 8 := UInt8.toNat_lt _

theorem byte_drop (p : List UInt8) (i j : ℕ) : byte (p.drop i) j = byte p (i + j) := by
  rw [byte, byte, List.getD_eq_getElem?_getD, List.getElem?_drop, List.getD_eq_getElem?_getD]

/-! ## The registers -/

theorem u32_of_lt {n : ℕ} (h : n < 2 ^ 32) : u32 n = n := Nat.mod_eq_of_lt h

theorem and_slot20 (n : ℕ) : n &&& slot20 = n / 2 ^ 14 % 2 ^ 7 * 2 ^ 14 + n % 2 ^ 7 := by
  have hslot : slot20 = (2 ^ 7 - 1) <<< 14 ||| (2 ^ 7 - 1) <<< 0 := by decide
  rw [hslot, Nat.and_or_distrib_left, and_field, and_field, or_low (k := 14) (by omega) (by omega)]
  omega

theorem and_slot420 (n : ℕ) :
    n &&& slot420 = n / 2 ^ 28 % 2 ^ 4 * 2 ^ 28 + n / 2 ^ 14 % 2 ^ 7 * 2 ^ 14 + n % 2 ^ 7 := by
  have hslot : slot420 = (2 ^ 4 - 1) <<< 28 ||| slot20 := by decide
  rw [hslot, Nat.and_or_distrib_left, and_field, and_slot20, or_low (k := 28) (by omega) (by omega)]
  omega

theorem and_highBit {n : ℕ} (d : ℕ) (h : n % 2 ^ 8 = 0) (hd : d < 2 ^ 8) :
    (n + d) &&& 0x80 = 0 ↔ d < 0x80 := by
  rw [show (0x80 : ℕ) = 2 ^ 7 from rfl, and_bit]
  omega

/-- A register that takes in the next byte. -/
theorem shift_byte (n : ℕ) {k : ℕ} (hk : 8 ≤ k ∧ k ≤ 32) (p : List UInt8) (i : ℕ) :
    u32 (n <<< k) ||| byte p i = n % 2 ^ (32 - k) * 2 ^ k + byte p i := by
  have hmod : u32 (n <<< k) = n % 2 ^ (32 - k) * 2 ^ k := by
    rw [u32, Nat.shiftLeft_eq,
      show (2 : ℕ) ^ 32 = 2 ^ (32 - k) * 2 ^ k by
        rw [← pow_add]; congr 1; omega, Nat.mul_mod_mul_right]
  rw [hmod]
  refine or_low ?_ (byte_lt p i)
  obtain ⟨j, rfl⟩ := Nat.exists_eq_add_of_le hk.1
  rw [pow_add, Nat.mul_left_comm, Nat.mul_mod_right]

/-- Two registers that hold every other field. -/
theorem interleave (x₂ : ℕ) {x₁ y₁ y₀ d k : ℕ} (hx₁ : x₁ < 2 ^ 7) (hy₁ : y₁ < 2 ^ 7)
    (hy₀ : y₀ < 2 ^ 7) (hd : d < 2 ^ k) :
    ((x₂ * 2 ^ 21 + x₁ * 2 ^ 7) * 2 ^ k + d) ||| (y₁ * 2 ^ 14 + y₀) * 2 ^ k =
      (x₂ * 2 ^ 21 + y₁ * 2 ^ 14 + x₁ * 2 ^ 7 + y₀) * 2 ^ k + d := by
  have hx : x₂ * 2 ^ 21 + x₁ * 2 ^ 7 = x₂ * 2 ^ 21 ||| x₁ * 2 ^ 7 := by
    rw [or_low (k := 21) (by omega) (by omega)]
  have hy : y₁ * 2 ^ 14 + y₀ = y₁ * 2 ^ 14 ||| y₀ := by
    rw [or_low (k := 14) (by omega) (by omega)]
  have hsum : x₂ * 2 ^ 21 + y₁ * 2 ^ 14 + x₁ * 2 ^ 7 + y₀ =
      x₂ * 2 ^ 21 ||| y₁ * 2 ^ 14 ||| x₁ * 2 ^ 7 ||| y₀ := by
    rw [or_low (m := x₂ * 2 ^ 21) (k := 21) (by omega) (by omega),
      or_low (d := x₁ * 2 ^ 7) (k := 14) (by omega) (by omega),
      or_low (k := 7) (by omega) (by omega)]
  rw [or_shifted _ _ hd, hx, hy, hsum]
  congr 2
  ac_rfl

/-- The number from its upper and lower word. -/
theorem join_words (s : ℕ) {a : ℕ} (ha : a < 2 ^ 32) : s <<< 32 ||| a = s * 2 ^ 32 + a := by
  rw [Nat.shiftLeft_eq, or_low (by omega) ha]

/-! ## The stages -/

/-- The lower seven bits of a byte. -/
def group (p : List UInt8) (i : ℕ) : ℕ := byte p i % 2 ^ 7

theorem group_lt (p : List UInt8) (i : ℕ) : group p i < 2 ^ 7 := Nat.mod_lt _ (by decide)

theorem group_of_lt {p : List UInt8} {i : ℕ} (h : byte p i < 0x80) : group p i = byte p i :=
  Nat.mod_eq_of_lt h

theorem byte_of_ge {p : List UInt8} {i : ℕ} (h : ¬ byte p i < 0x80) :
    byte p i = 2 ^ 7 + group p i := by
  have hlt := byte_lt p i
  unfold group
  omega

/-- Read on from byte `i`. -/
def readFrom (k v : ℕ) (p : List UInt8) (i : ℕ) : ℕ × ℕ :=
  let (w, n) := readVarint k v (p.drop i)
  (w, i + n)

theorem readFrom_last (v : ℕ) (p : List UInt8) (i : ℕ) :
    readFrom 0 v p i = (v * 2 ^ 8 + byte p i, i + 1) := by
  rw [readFrom, readVarint, byte_drop]
  rfl

theorem readFrom_succ (k v : ℕ) (p : List UInt8) (i : ℕ) : readFrom (k + 1) v p i =
    if byte p i < 0x80 then (v * 2 ^ 7 + byte p i, i + 1)
    else readFrom k (v * 2 ^ 7 + group p i) p (i + 1) := by
  rw [readFrom, readVarint, byte_drop, Nat.add_zero, List.drop_drop]
  split_ifs
  · rfl
  · show (_, i + (_ + 1)) = (_, i + 1 + _)
    rw [Nat.add_right_comm i 1, Nat.add_assoc i]
    rfl

/-- The ninth byte. -/
theorem getVarint9_eq (p : List UInt8) :
    getVarint9 p (group p 4 * 2 ^ 14 + group p 6)
        (group p 3 % 2 ^ 4 * 2 ^ 28 + byte p 5 * 2 ^ 14 + byte p 7)
        (group p 0 * 2 ^ 21 + group p 1 * 2 ^ 14 + group p 2 * 2 ^ 7 + group p 3) =
      readFrom 0
        (((((((group p 0 * 2 ^ 7 + group p 1) * 2 ^ 7 + group p 2) * 2 ^ 7 + group p 3) * 2 ^ 7 +
        group p 4) * 2 ^ 7 + group p 5) * 2 ^ 7 + group p 6) * 2 ^ 7 + group p 7) p 8 := by
  have h8 := byte_lt p 8
  have ha : u32 ((group p 4 * 2 ^ 14 + group p 6) <<< 15) ||| byte p 8 =
      (group p 4 % 2 ^ 3 * 2 ^ 21 + group p 6 * 2 ^ 7) * 2 ^ 8 + byte p 8 := by
    have h6 := group_lt p 6
    rw [shift_byte _ (by decide)]
    omega
  have hb : u32 (((group p 3 % 2 ^ 4 * 2 ^ 28 + byte p 5 * 2 ^ 14 + byte p 7) &&& slot20) <<< 8) =
      (group p 5 * 2 ^ 14 + group p 7) * 2 ^ 8 := by
    have h7 := byte_lt p 7
    rw [and_slot20, u32, Nat.shiftLeft_eq]
    unfold group
    omega
  have h0 := group_lt p 0
  have h1 := group_lt p 1
  have h2 := group_lt p 2
  have h3 := group_lt p 3
  have h4 := group_lt p 4
  have h5 := group_lt p 5
  have h6 := group_lt p 6
  have h7 := group_lt p 7
  have hs : ∀ s, s < 2 ^ 28 →
      u32 (s <<< 4) ||| (byte p 4 &&& 0x7f) >>> 3 = s * 2 ^ 4 + group p 4 / 2 ^ 3 := by
    intro s hlt
    have hgroup : byte p 4 &&& 0x7f = group p 4 := Nat.and_two_pow_sub_one_eq_mod _ 7
    rw [hgroup, u32, Nat.shiftLeft_eq, Nat.shiftRight_eq_div_pow,
      or_low (k := 4) (by omega) (by omega)]
    omega
  have hs := hs (group p 0 * 2 ^ 21 + group p 1 * 2 ^ 14 + group p 2 * 2 ^ 7 + group p 3) (by omega)
  simp only [getVarint9, ha, hb, hs, interleave _ h6 h5 h7 h8, readFrom_last]
  rw [join_words _ (by omega)]
  refine Prod.ext ?_ rfl
  omega

/-- The number from its upper word and the two registers. -/
theorem join_registers (s : ℕ) {x₂ x₁ y₁ y₀ d : ℕ} (hx₂ : x₂ < 2 ^ 4) (hx₁ : x₁ < 2 ^ 7)
    (hy₁ : y₁ < 2 ^ 7)
    (hy₀ : y₀ < 2 ^ 7) (hd : d < 2 ^ 7) :
    s <<< 32 ||| ((x₂ * 2 ^ 28 + x₁ * 2 ^ 14 + d) ||| (y₁ * 2 ^ 14 + y₀) * 2 ^ 7) =
      s * 2 ^ 32 + x₂ * 2 ^ 28 + y₁ * 2 ^ 21 + x₁ * 2 ^ 14 + y₀ * 2 ^ 7 + d := by
  have hregisters : x₂ * 2 ^ 28 + x₁ * 2 ^ 14 + d = (x₂ * 2 ^ 21 + x₁ * 2 ^ 7) * 2 ^ 7 + d := by
    omega
  rw [hregisters, interleave x₂ hx₁ hy₁ hy₀ hd, join_words s (by omega)]
  ring

/-- The eighth byte. -/
theorem getVarint8_eq (p : List UInt8) :
    getVarint8 p (group p 4 * 2 ^ 14 + group p 6)
        (group p 1 % 2 ^ 4 * 2 ^ 28 + group p 3 * 2 ^ 14 + byte p 5)
        (group p 0 * 2 ^ 21 + group p 1 * 2 ^ 14 + group p 2 * 2 ^ 7 + group p 3) =
      readFrom 1
        ((((((group p 0 * 2 ^ 7 + group p 1) * 2 ^ 7 + group p 2) * 2 ^ 7 + group p 3) * 2 ^ 7 +
        group p 4) * 2 ^ 7 + group p 5) * 2 ^ 7 + group p 6) p 7 := by
  have h5 := byte_lt p 5
  have h7 := byte_lt p 7
  have hb : u32 ((group p 1 % 2 ^ 4 * 2 ^ 28 + group p 3 * 2 ^ 14 + byte p 5) <<< 14) ||| byte p 7 =
      group p 3 % 2 ^ 4 * 2 ^ 28 + byte p 5 * 2 ^ 14 + byte p 7 := by
    rw [shift_byte _ (by decide)]
    omega
  simp only [getVarint8, hb,
    and_highBit _ (by omega : (group p 3 % 2 ^ 4 * 2 ^ 28 + byte p 5 * 2 ^ 14) % 2 ^ 8 = 0) h7]
  rw [readFrom_succ]
  split_ifs with hlast
  · have hslots : (group p 3 % 2 ^ 4 * 2 ^ 28 + byte p 5 * 2 ^ 14 + byte p 7) &&& slot420 =
        group p 3 % 2 ^ 4 * 2 ^ 28 + group p 5 * 2 ^ 14 + byte p 7 := by
      rw [and_slot420]
      unfold group
      omega
    have ha : u32 ((group p 4 * 2 ^ 14 + group p 6) <<< 7) =
        (group p 4 * 2 ^ 14 + group p 6) * 2 ^ 7 := by
      have h4 := group_lt p 4
      have h6 := group_lt p 6
      rw [Nat.shiftLeft_eq, u32_of_lt (by omega)]
    rw [hslots, ha, Nat.or_comm (_ * 2 ^ 7), Nat.shiftRight_eq_div_pow,
      join_registers _ (Nat.mod_lt _ (by decide)) (group_lt p 5) (group_lt p 4)
      (group_lt p 6) hlast]
    have h3 := group_lt p 3
    refine Prod.ext ?_ rfl
    omega
  · exact getVarint9_eq p

/-- The seventh byte. -/
theorem getVarint7_eq (p : List UInt8) (h4 : ¬ byte p 4 < 0x80) :
    getVarint7 p (group p 0 % 2 ^ 4 * 2 ^ 28 + group p 2 * 2 ^ 14 + byte p 4)
        (group p 1 % 2 ^ 4 * 2 ^ 28 + group p 3 * 2 ^ 14 + byte p 5)
        (group p 0 * 2 ^ 21 + group p 1 * 2 ^ 14 + group p 2 * 2 ^ 7 + group p 3) =
      readFrom 2
        (((((group p 0 * 2 ^ 7 + group p 1) * 2 ^ 7 + group p 2) * 2 ^ 7 + group p 3) * 2 ^ 7 +
        group p 4) * 2 ^ 7 + group p 5) p 6 := by
  have hbyte := byte_of_ge h4
  have hgroup := group_lt p 4
  have h6 := byte_lt p 6
  have ha : u32 ((group p 0 % 2 ^ 4 * 2 ^ 28 + group p 2 * 2 ^ 14 + byte p 4) <<< 14) ||| byte p 6 =
      group p 2 % 2 ^ 4 * 2 ^ 28 + byte p 4 * 2 ^ 14 + byte p 6 := by
    rw [shift_byte _ (by decide)]
    omega
  simp only [getVarint7, ha,
    and_highBit _ (by omega : (group p 2 % 2 ^ 4 * 2 ^ 28 + byte p 4 * 2 ^ 14) % 2 ^ 8 = 0) h6]
  rw [readFrom_succ]
  split_ifs with hlast
  · have hslots : (group p 2 % 2 ^ 4 * 2 ^ 28 + byte p 4 * 2 ^ 14 + byte p 6) &&& slot420 =
        group p 2 % 2 ^ 4 * 2 ^ 28 + group p 4 * 2 ^ 14 + byte p 6 := by
      rw [and_slot420]
      omega
    have hb : u32
        (((group p 1 % 2 ^ 4 * 2 ^ 28 + group p 3 * 2 ^ 14 + byte p 5) &&& slot20) <<< 7) =
        (group p 3 * 2 ^ 14 + group p 5) * 2 ^ 7 := by
      have h3 := group_lt p 3
      have h5 := byte_lt p 5
      have hgroup : group p 5 = byte p 5 % 2 ^ 7 := rfl
      rw [and_slot20, u32, Nat.shiftLeft_eq]
      omega
    rw [hslots, hb, Nat.shiftRight_eq_div_pow,
      join_registers _ (Nat.mod_lt _ (by decide)) hgroup (group_lt p 3) (group_lt p 5) hlast]
    have h2 := group_lt p 2
    have h3 := group_lt p 3
    refine Prod.ext ?_ rfl
    omega
  · have hslots : (group p 2 % 2 ^ 4 * 2 ^ 28 + byte p 4 * 2 ^ 14 + byte p 6) &&& slot20 =
        group p 4 * 2 ^ 14 + group p 6 := by
      rw [and_slot20]
      unfold group
      omega
    rw [hslots]
    exact getVarint8_eq p

/-- The sixth byte. -/
theorem getVarint6_eq (p : List UInt8) (h4 : ¬ byte p 4 < 0x80) :
    getVarint6 p (group p 0 % 2 ^ 4 * 2 ^ 28 + group p 2 * 2 ^ 14 + byte p 4)
        (group p 1 * 2 ^ 14 + group p 3)
        (group p 0 * 2 ^ 21 + group p 1 * 2 ^ 14 + group p 2 * 2 ^ 7 + group p 3) =
      readFrom 3
        ((((group p 0 * 2 ^ 7 + group p 1) * 2 ^ 7 + group p 2) * 2 ^ 7 + group p 3) * 2 ^ 7 +
        group p 4) p 5 := by
  have hbyte := byte_of_ge h4
  have hgroup := group_lt p 4
  have h2 := group_lt p 2
  have h3 := group_lt p 3
  have h5 := byte_lt p 5
  have hb : u32 ((group p 1 * 2 ^ 14 + group p 3) <<< 14) ||| byte p 5 =
      group p 1 % 2 ^ 4 * 2 ^ 28 + group p 3 * 2 ^ 14 + byte p 5 := by
    rw [shift_byte _ (by decide)]
    omega
  simp only [getVarint6, hb,
    and_highBit _ (by omega : (group p 1 % 2 ^ 4 * 2 ^ 28 + group p 3 * 2 ^ 14) % 2 ^ 8 = 0) h5]
  rw [readFrom_succ]
  split_ifs with hlast
  · have ha : u32
        (((group p 0 % 2 ^ 4 * 2 ^ 28 + group p 2 * 2 ^ 14 + byte p 4) &&& slot20) <<< 7) =
        (group p 2 * 2 ^ 14 + group p 4) * 2 ^ 7 := by
      rw [and_slot20, u32, Nat.shiftLeft_eq]
      omega
    have h1 := group_lt p 1
    rw [ha, Nat.or_comm (_ * 2 ^ 7), Nat.shiftRight_eq_div_pow,
      join_registers _ (Nat.mod_lt _ (by decide)) h3 h2 hgroup hlast]
    refine Prod.ext ?_ rfl
    omega
  · exact getVarint7_eq p h4

/-- The first four groups. -/
theorem four_groups (p : List UInt8) :
    u32 ((group p 0 * 2 ^ 14 + group p 2) <<< 7) ||| (group p 1 * 2 ^ 14 + group p 3) =
      group p 0 * 2 ^ 21 + group p 1 * 2 ^ 14 + group p 2 * 2 ^ 7 + group p 3 := by
  have h0 := group_lt p 0
  have h2 := group_lt p 2
  have hshift : u32 ((group p 0 * 2 ^ 14 + group p 2) <<< 7) = group p 0 * 2 ^ 21 +
      group p 2 * 2 ^ 7 := by
    rw [Nat.shiftLeft_eq, u32_of_lt (by omega)]
    omega
  have hinterleave :=
    interleave (group p 0) h2 (group_lt p 1) (group_lt p 3) (by decide : 0 < 2 ^ 0)
  simp only [pow_zero, mul_one, add_zero] at hinterleave
  rw [hshift, hinterleave]

/-- The fifth byte. -/
theorem getVarint5_eq (p : List UInt8) :
    getVarint5 p (group p 0 * 2 ^ 14 + group p 2) (group p 1 * 2 ^ 14 + group p 3)
      (group p 0 * 2 ^ 14 + group p 2) =
      readFrom 4 (((group p 0 * 2 ^ 7 + group p 1) * 2 ^ 7 + group p 2) * 2 ^ 7 +
        group p 3) p 4 := by
  have h0 := group_lt p 0
  have h1 := group_lt p 1
  have h2 := group_lt p 2
  have h3 := group_lt p 3
  have h4 := byte_lt p 4
  have ha : u32 ((group p 0 * 2 ^ 14 + group p 2) <<< 14) ||| byte p 4 =
      group p 0 % 2 ^ 4 * 2 ^ 28 + group p 2 * 2 ^ 14 + byte p 4 := by
    rw [shift_byte _ (by decide)]
    omega
  simp only [getVarint5, ha, four_groups,
    and_highBit _ (by omega : (group p 0 % 2 ^ 4 * 2 ^ 28 + group p 2 * 2 ^ 14) % 2 ^ 8 = 0) h4]
  rw [readFrom_succ]
  split_ifs with hlast
  · have hb : u32 ((group p 1 * 2 ^ 14 + group p 3) <<< 7) =
        (group p 1 * 2 ^ 14 + group p 3) * 2 ^ 7 := by
      rw [Nat.shiftLeft_eq, u32_of_lt (by omega)]
    rw [hb, Nat.shiftRight_eq_div_pow, join_registers _ (Nat.mod_lt _ (by decide)) h2 h1 h3 hlast]
    refine Prod.ext ?_ rfl
    omega
  · exact getVarint6_eq p hlast

/-- The fourth byte. -/
theorem getVarint4_eq (p : List UInt8) :
    getVarint4 p (group p 0 * 2 ^ 14 + group p 2) (byte p 1) =
      readFrom 5 ((group p 0 * 2 ^ 7 + group p 1) * 2 ^ 7 + group p 2) p 3 := by
  have h0 := group_lt p 0
  have h1 := byte_lt p 1
  have h2 := group_lt p 2
  have h3 := byte_lt p 3
  have hgroup₁ : group p 1 = byte p 1 % 2 ^ 7 := rfl
  have hgroup₃ : group p 3 = byte p 3 % 2 ^ 7 := rfl
  have hb : u32 (byte p 1 <<< 14) ||| byte p 3 = byte p 1 * 2 ^ 14 + byte p 3 := by
    rw [shift_byte _ (by decide)]
    omega
  have hslots : (byte p 1 * 2 ^ 14 + byte p 3) &&& slot20 = group p 1 * 2 ^ 14 + group p 3 := by
    rw [and_slot20]
    omega
  simp only [getVarint4, hb, hslots, and_highBit _ (by omega : byte p 1 * 2 ^ 14 % 2 ^ 8 = 0) h3]
  rw [readFrom_succ]
  split_ifs with hlast
  · rw [four_groups, group_of_lt hlast]
    refine Prod.ext ?_ rfl
    omega
  · exact getVarint5_eq p

/-- The third byte. -/
theorem getVarint3_eq (p : List UInt8) :
    getVarint3 p (u32 (byte p 0 <<< 14)) (byte p 1) =
      readFrom 6 (group p 0 * 2 ^ 7 + group p 1) p 2 := by
  have h0 := byte_lt p 0
  have h1 := group_lt p 1
  have h2 := byte_lt p 2
  have hgroup₀ : group p 0 = byte p 0 % 2 ^ 7 := rfl
  have hgroup₂ : group p 2 = byte p 2 % 2 ^ 7 := rfl
  have ha : u32 (byte p 0 <<< 14) ||| byte p 2 = byte p 0 * 2 ^ 14 + byte p 2 := by
    rw [shift_byte _ (by decide)]
    omega
  have hslots : (byte p 0 * 2 ^ 14 + byte p 2) &&& slot20 = group p 0 * 2 ^ 14 + group p 2 := by
    rw [and_slot20]
    omega
  simp only [getVarint3, ha, hslots, and_highBit _ (by omega : byte p 0 * 2 ^ 14 % 2 ^ 8 = 0) h2]
  rw [readFrom_succ]
  split_ifs with hlast
  · have hb : u32 ((byte p 1 &&& 0x7f) <<< 7) = group p 1 * 2 ^ 7 := by
      have hgroup : byte p 1 &&& 0x7f = group p 1 := Nat.and_two_pow_sub_one_eq_mod _ 7
      rw [hgroup, Nat.shiftLeft_eq, u32_of_lt (by omega)]
    have hregister : group p 0 * 2 ^ 14 + group p 2 = group p 0 * 2 ^ 7 * 2 ^ 7 + group p 2 := by
      omega
    rw [hb, hregister, or_shifted _ _ (group_lt p 2), or_low (k := 7) (by omega) h1,
      group_of_lt hlast]
  · exact getVarint4_eq p

/-- `sqlite3GetVarint` reads byte by byte. -/
theorem getVarint_eq (p : List UInt8) : sqlite3GetVarint p = readVarint 8 0 p := by
  have hread : readVarint 8 0 p = readFrom 8 0 p 0 := by
    rw [readFrom, List.drop_zero]
    simp only [Nat.zero_add]
  have hgroup : byte p 0 &&& 0x7f = group p 0 := Nat.and_two_pow_sub_one_eq_mod _ 7
  have h0 := group_lt p 0
  rw [hread, sqlite3GetVarint, readFrom_succ, readFrom_succ, hgroup]
  split_ifs with hfirst hsecond
  · simp
  · rw [Nat.shiftLeft_eq, u32_of_lt (by omega), or_low (k := 7) (by omega) hsecond]
    simp
  · rw [getVarint3_eq]
    simp

/-- `getVarint32` reads the same bytes, and a number that is too large is the largest `u32`. -/
theorem getVarint32_eq (p : List UInt8) :
    getVarint32 p = (min (sqlite3GetVarint p).1 (2 ^ 32 - 1), (sqlite3GetVarint p).2) := by
  have h0 := byte_lt p 0
  have h1 := byte_lt p 1
  have h2 := byte_lt p 2
  have hbyte : ∀ i, byte p i &&& 0x80 = 0 ↔ byte p i < 0x80 := fun i => by
    simpa using and_highBit (n := 0) (byte p i) rfl (byte_lt p i)
  have hmask : ∀ i, byte p i &&& 0x7f = group p i := fun i => Nat.and_two_pow_sub_one_eq_mod _ 7
  have hgroup₀ := group_lt p 0
  have hgroup₁ := group_lt p 1
  have hlow : ∀ v, v &&& 0xffffffff = v % 2 ^ 32 := fun v => Nat.and_two_pow_sub_one_eq_mod v 32
  by_cases hfirst : byte p 0 < 0x80
  · rw [getVarint32, if_pos hfirst, sqlite3GetVarint, if_pos hfirst, Nat.min_eq_left (by omega)]
  rw [getVarint32, if_neg hfirst]
  simp only [sqlite3GetVarint32, hbyte, hmask]
  by_cases hsecond : byte p 1 < 0x80
  · rw [if_pos hsecond, sqlite3GetVarint, if_neg hfirst, if_pos hsecond, hmask, Nat.shiftLeft_eq,
      u32_of_lt (by omega), or_low (k := 7) (by omega) hsecond, Nat.min_eq_left (by omega)]
  by_cases hthird : byte p 2 < 0x80
  · have hvalue : group p 0 <<< 14 ||| group p 1 <<< 7 ||| byte p 2 =
        (group p 0 * 2 ^ 7 + group p 1) * 2 ^ 7 + byte p 2 := by
      rw [Nat.shiftLeft_eq, Nat.shiftLeft_eq,
        or_low (m := group p 0 * 2 ^ 14) (k := 14) (by omega) (by omega),
        or_low (k := 7) (by omega) hthird]
      omega
    rw [if_neg hsecond, if_pos hthird, hvalue, sqlite3GetVarint, if_neg hfirst, if_neg hsecond,
      getVarint3_eq, readFrom_succ, if_pos hthird, Nat.min_eq_left (by omega)]
  · rw [if_neg hsecond, if_neg hthird, hlow]
    refine Prod.ext ?_ rfl
    show (if _ then _ else _) = min _ _
    split_ifs with hlarge
    · omega
    · omega

/-- **The readers read byte by byte**, whatever the bytes are, and `getVarint32` saturates. -/
theorem varint_readers (p : List UInt8) :
    sqlite3GetVarint p = readVarint 8 0 p ∧
      getVarint32 p = (min (readVarint 8 0 p).1 (2 ^ 32 - 1), (readVarint 8 0 p).2) := by
  have hread := getVarint_eq p
  refine ⟨hread, ?_⟩
  rw [getVarint32_eq, hread]

/-! ## Writing -/

theorem varintGroup_toNat (v : ℕ) : (varintGroup v).toNat = 2 ^ 7 + v % 2 ^ 7 := by
  have hgroup : v &&& 0x7f = v % 2 ^ 7 := Nat.and_two_pow_sub_one_eq_mod v 7
  have hlt := Nat.mod_lt v (by decide : 0 < 2 ^ 7)
  rw [varintGroup, hgroup, Nat.or_comm, show (0x80 : ℕ) = 2 ^ 7 from rfl,
    or_low (k := 7) (by decide) hlt, UInt8.toNat_ofNat']
  omega

theorem byte_cons_zero (b : UInt8) (p : List UInt8) : byte (b :: p) 0 = b.toNat := rfl

/-- Groups in front of a number are read first. -/
theorem readVarint_putGroups (n k v w : ℕ) (p : List UInt8) :
    readVarint (n + k) v (putGroups n w p) =
      ((readVarint k (v * 2 ^ (7 * n) + w % 2 ^ (7 * n)) p).1,
        (readVarint k (v * 2 ^ (7 * n) + w % 2 ^ (7 * n)) p).2 + n) := by
  induction n generalizing w p k with
  | zero => simp [putGroups, Nat.mod_one]
  | succ n ih =>
    rw [putGroups, Nat.add_right_comm, Nat.add_assoc, ih (k + 1)]
    have hbyte : byte (varintGroup w :: p) 0 = 2 ^ 7 + w % 2 ^ 7 := by
      rw [byte_cons_zero, varintGroup_toNat]
    have hvalue : (v * 2 ^ (7 * n) + (w >>> 7) % 2 ^ (7 * n)) * 2 ^ 7 +
        byte (varintGroup w :: p) 0 % 2 ^ 7 =
        v * 2 ^ (7 * (n + 1)) + w % 2 ^ (7 * (n + 1)) := by
      rw [hbyte, Nat.add_mod_left, Nat.mod_mod, Nat.shiftRight_eq_div_pow, Nat.mul_add 7,
        pow_add, mul_one, Nat.mul_comm (2 ^ (7 * n)), Nat.mod_mul]
      ring
    rw [readVarint, if_neg (by omega), hvalue]
    refine Prod.ext rfl ?_
    show _ + 1 + n = _ + (n + 1)
    exact Nat.add_right_comm _ 1 n

/-- The length of a number of `u64`. -/
theorem varintLenFrom_eq (rounds v i : ℕ) :
    varintLenFrom rounds v (i + 1) = varintLenFrom rounds v i + 1 := by
  induction rounds generalizing v i with
  | zero => rfl
  | succ rounds ih =>
    rw [varintLenFrom, varintLenFrom]
    split_ifs
    · rfl
    · exact ih (v >>> 7) (i + 1)

theorem le_varintLenFrom (rounds v i : ℕ) : i ≤ varintLenFrom rounds v i := by
  induction rounds generalizing v i with
  | zero => exact le_rfl
  | succ rounds ih =>
    rw [varintLenFrom]
    split_ifs
    · exact le_rfl
    · exact (Nat.le_succ i).trans (ih (v >>> 7) (i + 1))

/-- The filled part of `buf`, read backwards. -/
theorem varintGroups_reverse {places v : ℕ} (hv : v < 2 ^ (7 * places)) (hplaces : 0 < places)
    (p : List UInt8) :
    (varintGroups places v).reverse ++ p = putGroups (varintLenFrom places v 1) v p := by
  induction places generalizing v p with
  | zero => exact absurd hplaces (by decide)
  | succ places ih =>
    rw [varintGroups, varintLenFrom]
    split_ifs with hzero
    · rfl
    · have hplaces : 0 < places := by
        by_contra hnone
        obtain rfl : places = 0 := by omega
        exact hzero (by rw [Nat.shiftRight_eq_div_pow]; omega)
      have hnext : v >>> 7 < 2 ^ (7 * places) := by
        rw [Nat.shiftRight_eq_div_pow]
        rw [Nat.mul_succ, pow_add] at hv
        exact Nat.div_lt_of_lt_mul (by rwa [Nat.mul_comm])
      rw [List.reverse_cons, List.append_assoc, ih hnext hplaces, varintLenFrom_eq places _ 1]
      rfl

/-- The length as a bound. -/
theorem varintLenFrom_le {rounds v k : ℕ} (hk : k < rounds) : varintLenFrom rounds v 1 ≤ k + 1 ↔
    v < 2 ^ (7 * (k + 1)) := by
  induction rounds generalizing v k with
  | zero => exact absurd hk (Nat.not_lt_zero k)
  | succ rounds ih =>
    have hpow : 2 ^ (7 * (k + 1)) = 2 ^ (7 * k) * 2 ^ 7 := by rw [Nat.mul_succ, pow_add]
    have hone := Nat.one_le_two_pow (n := 7 * k)
    rw [varintLenFrom, Nat.shiftRight_eq_div_pow]
    split_ifs with hzero
    · have hsmall : v < 2 ^ 7 := by omega
      refine iff_of_true (by omega) ?_
      rw [hpow]
      exact hsmall.trans_le (Nat.le_mul_of_pos_left _ hone)
    · rw [varintLenFrom_eq]
      cases k with
      | zero =>
        have hpos := le_varintLenFrom rounds (v / 2 ^ 7) 1
        omega
      | succ k =>
        rw [Nat.add_le_add_iff_right, ih (by omega), hpow]
        exact Nat.div_lt_iff_lt_mul (by decide)

theorem varintLen_le {v k : ℕ} (hk : k < 10) : sqlite3VarintLen v ≤ k + 1 ↔ v < 2 ^ (7 * (k + 1)) :=
  varintLenFrom_le hk

theorem varintLen_pos (v : ℕ) : 0 < sqlite3VarintLen v := le_varintLenFrom 10 v 1

theorem low_group (v : ℕ) : v &&& 0x7f = v % 2 ^ 7 := Nat.and_two_pow_sub_one_eq_mod v 7

/-- The bytes of a number below 2^56. -/
theorem putVarint_short {v : ℕ} (hv : v < 2 ^ 56) :
    sqlite3PutVarint v = putGroups (sqlite3VarintLen v - 1)
      (v >>> 7) [UInt8.ofNat (v % 2 ^ 7)] := by
  rw [sqlite3PutVarint, low_group]
  split_ifs with hone htwo
  · have hlen : sqlite3VarintLen v = 1 :=
      le_antisymm ((varintLen_le (k := 0) (by decide)).mpr (by omega)) (varintLen_pos v)
    rw [hlen]
    rfl
  · have hlen : sqlite3VarintLen v = 2 := by
      have hle : sqlite3VarintLen v ≤ 2 := (varintLen_le (k := 1) (by decide)).mpr (by omega)
      have hgt : ¬ sqlite3VarintLen v ≤ 1 :=
        fun h => absurd ((varintLen_le (k := 0) (by decide)).mp h) (by omega)
      omega
    rw [hlen]
    rfl
  · have hmask : ¬ v &&& 0xff000000 <<< 32 ≠ 0 := by
      have hfield : v &&& 0xff000000 <<< 32 = v / 2 ^ 56 % 2 ^ 8 * 2 ^ 56 := and_field v 56 8
      rw [hfield, Nat.div_eq_of_lt hv]
      decide
    have hnext : v >>> 7 < 2 ^ (7 * 9) := by
      rw [Nat.shiftRight_eq_div_pow]
      omega
    have hlast : varintGroup v &&& 0x7f = UInt8.ofNat (v % 2 ^ 7) := by
      apply UInt8.toNat_inj.mp
      have hmask : (UInt8.toNat 0x7f) = 2 ^ 7 - 1 := rfl
      rw [UInt8.toNat_and, varintGroup_toNat, hmask, Nat.and_two_pow_sub_one_eq_mod,
        UInt8.toNat_ofNat']
      omega
    have hzero : ¬ v >>> 7 = 0 := by
      rw [Nat.shiftRight_eq_div_pow]
      omega
    have hlen : sqlite3VarintLen v = varintLenFrom 9 (v >>> 7) 1 + 1 := by
      show varintLenFrom (9 + 1) v 1 = _
      rw [varintLenFrom, if_neg hzero, varintLenFrom_eq 9 _ 1]
    rw [putVarint64, if_neg hmask, varintGroups, if_neg hzero, hlen]
    show (_ :: _).reverse = _
    rw [List.reverse_cons, hlast, varintGroups_reverse hnext (by decide), Nat.add_sub_cancel]

/-- The bytes of a larger number. -/
theorem putVarint_long {v : ℕ} (hlow : 2 ^ 56 ≤ v) (hhigh : v < 2 ^ 64) :
    sqlite3PutVarint v = putGroups 8 (v >>> 8) [UInt8.ofNat v] := by
  have hmask : v &&& 0xff000000 <<< 32 ≠ 0 := by
    have hfield : v &&& 0xff000000 <<< 32 = v / 2 ^ 56 % 2 ^ 8 * 2 ^ 56 := and_field v 56 8
    rw [hfield]
    omega
  rw [sqlite3PutVarint, if_neg (by omega), if_neg (by omega), putVarint64, if_pos hmask]

theorem putGroups_append (n v : ℕ) (p rest : List UInt8) : putGroups n v p ++ rest = putGroups n v
    (p ++ rest) := by
  induction n generalizing v p with
  | zero => rfl
  | succ n ih => exact ih (v >>> 7) (varintGroup v :: p)

theorem length_putGroups (n v : ℕ) (p : List UInt8) : (putGroups n v p).length = n + p.length := by
  induction n generalizing v p with
  | zero => exact (Nat.zero_add _).symm
  | succ n ih =>
    rw [putGroups, ih, List.length_cons]
    omega

/-- What is written is read back. -/
theorem getVarint_putVarint {v : ℕ} (hv : v < 2 ^ 64) (rest : List UInt8) :
    sqlite3GetVarint (sqlite3PutVarint v ++ rest) = (v, (sqlite3PutVarint v).length) := by
  rw [getVarint_eq]
  by_cases hshort : v < 2 ^ 56
  · have hle : sqlite3VarintLen v ≤ 8 := (varintLen_le (k := 7) (by decide)).mpr hshort
    obtain ⟨n, hn⟩ := Nat.exists_eq_add_of_lt (varintLen_pos v)
    have hbound : v < 2 ^ (7 * (n + 1)) := (varintLen_le (by omega)).mp (by omega)
    have hlast : (UInt8.ofNat (v % 2 ^ 7)).toNat = v % 2 ^ 7 := by
      rw [UInt8.toNat_ofNat']
      omega
    have hrounds : 8 = n + ((7 - n) + 1) := by omega
    have hhead : (v >>> 7) % 2 ^ (7 * n) = v / 2 ^ 7 := by
      rw [Nat.shiftRight_eq_div_pow]
      refine Nat.mod_eq_of_lt (Nat.div_lt_of_lt_mul ?_)
      rwa [Nat.mul_comm, ← pow_add, ← Nat.mul_succ]
    rw [putVarint_short hshort, putGroups_append, length_putGroups,
      show sqlite3VarintLen v - 1 = n by omega]
    conv_lhs => rw [hrounds, readVarint_putGroups]
    rw [Nat.zero_mul, Nat.zero_add, hhead, List.singleton_append, readVarint, byte_cons_zero, hlast,
      if_pos (by omega)]
    refine Prod.ext ?_ (Nat.add_comm 1 n)
    show v / 2 ^ 7 * 2 ^ 7 + v % 2 ^ 7 = v
    omega
  · have hlast : (UInt8.ofNat v).toNat = v % 2 ^ 8 := UInt8.toNat_ofNat'
    rw [putVarint_long (by omega) hv, putGroups_append, length_putGroups]
    have hhead : (v >>> 8) % 2 ^ (7 * 8) = v / 2 ^ 8 := by
      rw [Nat.shiftRight_eq_div_pow]
      omega
    have hread := readVarint_putGroups 8 0 0 (v >>> 8) (UInt8.ofNat v :: rest)
    rw [Nat.zero_mul, Nat.zero_add, hhead, readVarint, byte_cons_zero, hlast] at hread
    rw [List.singleton_append, hread]
    refine Prod.ext ?_ rfl
    show v / 2 ^ 8 * 2 ^ 8 + v % 2 ^ 8 = v
    omega

/-- **What is written is read back**, whatever follows it; `getVarint32` reads the largest `u32`
    where the number is larger. -/
theorem varint_round_trip {v : ℕ} (hv : v < 2 ^ 64) (rest : List UInt8) :
    sqlite3GetVarint (sqlite3PutVarint v ++ rest) = (v, (sqlite3PutVarint v).length) ∧
      getVarint32 (sqlite3PutVarint v ++ rest) =
        (min v (2 ^ 32 - 1), (sqlite3PutVarint v).length) := by
  have hread := getVarint_putVarint hv rest
  refine ⟨hread, ?_⟩
  rw [getVarint32_eq, hread]

theorem varint_round_trip_bytes :
    sqlite3GetVarint (sqlite3PutVarint (2 ^ 40) ++ [7]) =
      (2 ^ 40, (sqlite3PutVarint (2 ^ 40)).length) ∧
      getVarint32 (sqlite3PutVarint (2 ^ 40) ++ [7]) =
        (min (2 ^ 40) (2 ^ 32 - 1), (sqlite3PutVarint (2 ^ 40)).length) :=
  varint_round_trip (by decide) [7]

/-- The number of bytes written. -/
theorem length_putVarint {v : ℕ} (hv : v < 2 ^ 64) : (sqlite3PutVarint v).length = min
    (sqlite3VarintLen v) 9 := by
  by_cases hshort : v < 2 ^ 56
  · have hpos := varintLen_pos v
    have hle : sqlite3VarintLen v ≤ 8 := (varintLen_le (k := 7) (by decide)).mpr hshort
    rw [putVarint_short hshort, length_putGroups, List.length_singleton]
    omega
  · have hlen : sqlite3VarintLen v ≤ 8 ↔ v < 2 ^ 56 := varintLen_le (k := 7) (by decide)
    rw [putVarint_long (by omega) hv, length_putGroups, List.length_singleton]
    omega

/-- **`sqlite3VarintLen` is the number of bytes written** below 2^63; from there on it is 10,
    and 9 bytes are written. -/
theorem varintLen_iff {v : ℕ} (hv : v < 2 ^ 64) :
    (sqlite3VarintLen v = (sqlite3PutVarint v).length ↔ v < 2 ^ 63) ∧
      (2 ^ 63 ≤ v → sqlite3VarintLen v = 10 ∧ (sqlite3PutVarint v).length = 9) := by
  have hnine : sqlite3VarintLen v ≤ 9 ↔ v < 2 ^ 63 := varintLen_le (k := 8) (by decide)
  have hten : sqlite3VarintLen v ≤ 10 ↔ v < 2 ^ 70 := varintLen_le (k := 9) (by decide)
  rw [length_putVarint hv]
  omega

theorem varintLen_iff_largest :
    sqlite3VarintLen (2 ^ 64 - 1) = 10 ∧ (sqlite3PutVarint (2 ^ 64 - 1)).length = 9 :=
  (varintLen_iff (by decide)).2 (by decide)

end ProjectEvaluation.Sqlite
