import ProjectEvaluation.Properties.Varints
import ProjectEvaluation.Sqlite.Record

/-!
# Values and types in records

A value is read back from its serial type and its payload, and takes the space that is counted
for it in the payload and in the header.

Results:
* `intType_cases`: which integers have which type.
* `loaded_stored`: what is read back is what is read back of the value that is stored.
* `serialGet_payload`, `length_payload`, `dataSize_eq`: values.
* `getVarint32_typeBytes`, `headerSize_eq`, `headerSize_fixed`: headers.
-/

namespace ProjectEvaluation.Sqlite

open BitFields

/-! ## Numbers -/

theorem putBytes_append (len v : ℕ) (p q : List UInt8) : putBytes len v p ++ q = putBytes len v
    (p ++ q) := by
  induction len generalizing v p with
  | zero => rfl
  | succ len ih => exact ih (v >>> 8) (UInt8.ofNat (v &&& 0xff) :: p)

theorem length_putBytes (len v : ℕ) (p : List UInt8) :
    (putBytes len v p).length = len + p.length := by
  induction len generalizing v p with
  | zero => exact (Nat.zero_add _).symm
  | succ len ih =>
    rw [putBytes, ih, List.length_cons]
    omega

theorem byte_putBytes_rest (len v : ℕ) (p : List UInt8) (i : ℕ) :
    byte (putBytes len v p) (len + i) = byte p i := by
  induction len generalizing v p i with
  | zero => rw [putBytes, Nat.zero_add]
  | succ len ih =>
    rw [putBytes, Nat.add_right_comm, Nat.add_assoc, ih]
    rfl

/-- The bytes of a number, the highest first. -/
theorem byte_putBytes {len i : ℕ} (h : i < len) (v : ℕ) (p : List UInt8) :
    byte (putBytes len v p) i = v / 2 ^ (8 * (len - 1 - i)) % 2 ^ 8 := by
  induction len generalizing v p with
  | zero => exact absurd h (Nat.not_lt_zero i)
  | succ len ih =>
    rw [putBytes]
    by_cases hlast : i = len
    · subst hlast
      have hrest := byte_putBytes_rest i (v >>> 8) (UInt8.ofNat (v &&& 0xff) :: p) 0
      have hlow : v &&& 0xff = v % 2 ^ 8 := Nat.and_two_pow_sub_one_eq_mod v 8
      rw [Nat.add_zero, byte_cons_zero, UInt8.toNat_ofNat'] at hrest
      rw [hrest, hlow]
      simp
    · have hpow : len - i = len - 1 - i + 1 := by omega
      rw [ih (by omega), Nat.shiftRight_eq_div_pow, Nat.div_div_eq_div_mul, ← pow_add,
        Nat.add_sub_cancel, hpow, Nat.mul_succ, Nat.add_comm 8]

/-- A number of up to 64 bits from the number without sign. -/
theorem ofNat_eq_of_toNat {n : ℕ} {i : BitVec 64} (h : n = i.toNat) : BitVec.ofNat 64 n = i := by
  rw [h, BitVec.ofNat_toNat, BitVec.setWidth_eq]

/-! ## Integers -/

/-- A number that has `k` bits beside its sign. -/
def Within (k : ℕ) (i : BitVec 64) : Prop := i.toNat < 2 ^ k ∨ 2 ^ 64 - 2 ^ k ≤ i.toNat

theorem within_iff {i : BitVec 64} {k : ℕ} (hk : k < 63) : unsigned i ≤ 2 ^ k - 1 ↔ Within k i := by
  have hlt := i.isLt
  have hpow : 2 ^ k ≤ 2 ^ 62 := Nat.pow_le_pow_right (by decide) (by omega)
  have hpos : 0 < 2 ^ k := Nat.two_pow_pos k
  have hsign : i.toInt < 0 ↔ ¬ i.toNat < 2 ^ 63 := by
    rw [BitVec.toInt_eq_toNat_cond]
    split_ifs <;> omega
  unfold Within unsigned
  by_cases hneg : i.toInt < 0
  · rw [if_pos hneg, BitVec.toNat_not]
    omega
  · rw [if_neg hneg]
    omega

/-- **The types of integers.** -/
theorem intType_cases (fmt : ℕ) (i : BitVec 64) :
    (intType fmt i = 8 ∧ i = 0) ∨ (intType fmt i = 9 ∧ i = 1) ∨ (intType fmt i = 1 ∧ Within 7 i) ∨
      (intType fmt i = 2 ∧ Within 15 i) ∨ (intType fmt i = 3 ∧ Within 23 i) ∨
        (intType fmt i = 4 ∧ Within 31 i) ∨
      (intType fmt i = 5 ∧ Within 47 i) ∨ intType fmt i = 6 := by
  rw [intType]
  by_cases hone : unsigned i ≤ 127
  · have hwithin : Within 7 i := (within_iff (by decide)).mp hone
    rw [if_pos hone]
    by_cases hbit : i &&& 1 = i ∧ 4 ≤ fmt
    · have htoNat : i.toNat % 2 = i.toNat := by
        rw [← Nat.and_one_is_mod]
        exact congrArg BitVec.toNat hbit.1
      have hsmall : i.toNat = 0 ∨ i.toNat = 1 := by omega
      rw [if_pos hbit]
      apply hsmall.elim
      · intro hzero
        obtain rfl : i = 0 := BitVec.eq_of_toNat_eq hzero
        exact Or.inl ⟨rfl, rfl⟩
      · intro hone
        obtain rfl : i = 1 := BitVec.eq_of_toNat_eq hone
        exact Or.inr (Or.inl ⟨rfl, rfl⟩)
    · rw [if_neg hbit]
      simp [hwithin]
  · rw [if_neg hone]
    split_ifs with htwo hthree hfour hsix
    · have hwithin : Within 15 i := (within_iff (by decide)).mp htwo
      simp [hwithin]
    · have hwithin : Within 23 i := (within_iff (by decide)).mp hthree
      simp [hwithin]
    · have hwithin : Within 31 i := (within_iff (by decide)).mp hfour
      simp [hwithin]
    · have hwithin : Within 47 i := (within_iff (by decide)).mp hsix
      simp [hwithin]
    · simp

theorem intType_le (fmt : ℕ) (i : BitVec 64) : intType fmt i ≤ 9 := by
  rcases intType_cases fmt i with ⟨ht, -⟩ | ⟨ht, -⟩ | ⟨ht, -⟩ | ⟨ht, -⟩ | ⟨ht, -⟩ | ⟨ht, -⟩ |
    ⟨ht, -⟩ | ht
  all_goals omega

/-- Eight bytes are for the integers that six do not hold. -/
theorem intType_eq_six (fmt : ℕ) (i : BitVec 64) :
    intType fmt i = 6 ↔ 140737488355327 < unsigned i := by
  rw [intType]
  split_ifs <;> omega

theorem twoByteInt_eq (x : List UInt8) :
    twoByteInt x = 256 * signedByte (byte x 0) % 2 ^ 32 + byte x 1 := by
  have h1 := byte_lt x 1
  rw [twoByteInt, u32, or_low (k := 8) (by omega) h1]

theorem threeByteInt_eq (x : List UInt8) :
    threeByteInt x = 65536 * signedByte (byte x 0) % 2 ^ 32 + byte x 1 * 2 ^ 8 + byte x 2 := by
  have h1 := byte_lt x 1
  have h2 := byte_lt x 2
  rw [threeByteInt, u32, Nat.shiftLeft_eq,
    or_low (d := byte x 1 * 2 ^ 8) (k := 16) (by omega) (by omega), or_low (k := 8) (by omega) h2]

theorem fourByteInt_eq (x : List UInt8) : fourByteInt x =
    16777216 * signedByte (byte x 0) % 2 ^ 32 + byte x 1 * 2 ^ 16 + byte x 2 * 2 ^ 8 +
      byte x 3 := by
  have h1 := byte_lt x 1
  have h2 := byte_lt x 2
  have h3 := byte_lt x 3
  rw [fourByteInt, u32, Nat.shiftLeft_eq, Nat.shiftLeft_eq,
    or_low (d := byte x 1 * 2 ^ 16) (k := 24) (by omega) (by omega),
    or_low (d := byte x 2 * 2 ^ 8) (k := 16) (by omega) (by omega), or_low (k := 8) (by omega) h3]

theorem fourByteUint_eq (x : List UInt8) :
    fourByteUint x = byte x 0 * 2 ^ 24 + byte x 1 * 2 ^ 16 + byte x 2 * 2 ^ 8 + byte x 3 := by
  have h1 := byte_lt x 1
  have h2 := byte_lt x 2
  have h3 := byte_lt x 3
  rw [fourByteUint, Nat.shiftLeft_eq, Nat.shiftLeft_eq, Nat.shiftLeft_eq,
    or_low (d := byte x 1 * 2 ^ 16) (k := 24) (by omega) (by omega),
    or_low (d := byte x 2 * 2 ^ 8) (k := 16) (by omega) (by omega), or_low (k := 8) (by omega) h3]

theorem signedInt_eq {n : ℕ} {i : BitVec 64}
    (h : (if n < 2 ^ 31 then n else n + (2 ^ 64 - 2 ^ 32)) = i.toNat) :
    signedInt n = i := ofNat_eq_of_toNat h

/-- The payload of an integer that takes up bytes. -/
theorem int_payload (i : BitVec 64) {t : ℕ} (h : 1 ≤ t ∧ t ≤ 7) (rest : List UInt8) :
    (Mem.int i).payload t ++ rest = putBytes (smallTypeSize t) i.toNat rest := by
  rw [Mem.payload, if_pos h.2, if_neg (by omega), putBytes_append]
  rfl

/-- The bytes of a payload. -/
theorem byte_payload (i : BitVec 64) {t : ℕ} (h : 1 ≤ t ∧ t ≤ 7) (rest : List UInt8) {j : ℕ}
    (hj : j < smallTypeSize t) :
    byte ((Mem.int i).payload t ++ rest) j =
      i.toNat / 2 ^ (8 * (smallTypeSize t - 1 - j)) % 2 ^ 8 := by
  rw [int_payload i h, byte_putBytes hj]

/-- The upper part of a six-byte integer. -/
theorem signedInt_toNat {n : ℕ} (h : n < 2 ^ 32) :
    (signedInt n).toNat = if n < 2 ^ 31 then n else n + (2 ^ 64 - 2 ^ 32) := by
  rw [signedInt, BitVec.toNat_ofNat]
  split_ifs <;> omega

/-- Four of the bytes of a number. -/
theorem fourByteUint_putBytes {len i : ℕ} (hi : i + 4 ≤ len) (v : ℕ) (rest : List UInt8) :
    fourByteUint ((putBytes len v rest).drop i) = v / 2 ^ (8 * (len - 4 - i)) % 2 ^ 32 := by
  have hbyte : ∀ j, j < 4 → byte ((putBytes len v rest).drop i) j =
      v / 2 ^ (8 * (len - 4 - i)) / 2 ^ (8 * (3 - j)) % 2 ^ 8 := by
    intro j hj
    have hexp : 8 * (len - 1 - (i + j)) = 8 * (len - 4 - i) + 8 * (3 - j) := by omega
    rw [byte_drop, byte_putBytes (by omega), Nat.div_div_eq_div_mul, ← pow_add, hexp]
  rw [fourByteUint_eq, hbyte 0 (by decide), hbyte 1 (by decide), hbyte 2 (by decide),
    hbyte 3 (by decide)]
  generalize v / 2 ^ (8 * (len - 4 - i)) = w
  omega

/-- Eight bytes, as both kinds of numbers are read. -/
theorem eightBytes_putBytes (v : BitVec 64) (rest : List UInt8) :
    eightBytes (putBytes 8 v.toNat rest) = v := by
  have hlt := v.isLt
  have hupper : fourByteUint (putBytes 8 v.toNat rest) = v.toNat / 2 ^ 32 % 2 ^ 32 :=
    fourByteUint_putBytes (i := 0) (by decide) v.toNat rest
  have hlower : fourByteUint ((putBytes 8 v.toNat rest).drop 4) = v.toNat / 2 ^ 0 % 2 ^ 32 :=
    fourByteUint_putBytes (i := 4) (by decide) v.toNat rest
  apply ofNat_eq_of_toNat
  rw [hupper, hlower, Nat.shiftLeft_eq]
  omega

/-- **Integers are read back** from the bytes their type has. -/
theorem serialGet_int (fmt : ℕ) (i : BitVec 64) (rest : List UInt8) :
    sqlite3VdbeSerialGet ((Mem.int i).payload (intType fmt i) ++ rest) (intType fmt i) =
      .int i := by
  have hlt := i.isLt
  rcases intType_cases fmt i with
    ⟨ht, rfl⟩ | ⟨ht, rfl⟩ | ⟨ht, hi⟩ | ⟨ht, hi⟩ | ⟨ht, hi⟩ | ⟨ht, hi⟩ | ⟨ht, hi⟩ | ht
  · rw [ht]
    rfl
  · rw [ht]
    rfl
  · have h0 : byte ((Mem.int i).payload 1 ++ rest) 0 = i.toNat / 2 ^ 0 % 2 ^ 8 :=
      byte_payload i (by decide) rest (by decide)
    rw [ht]
    refine congrArg Mem.int (signedInt_eq ?_)
    rw [oneByteInt, h0, signedByte]
    unfold Within at hi
    split_ifs <;> omega
  · have h0 : byte ((Mem.int i).payload 2 ++ rest) 0 = i.toNat / 2 ^ 8 % 2 ^ 8 :=
      byte_payload i (by decide) rest (by decide)
    have h1 : byte ((Mem.int i).payload 2 ++ rest) 1 = i.toNat / 2 ^ 0 % 2 ^ 8 :=
      byte_payload i (by decide) rest (by decide)
    rw [ht]
    refine congrArg Mem.int (signedInt_eq ?_)
    rw [twoByteInt_eq, h0, h1, signedByte]
    unfold Within at hi
    split_ifs <;> omega
  · have h0 : byte ((Mem.int i).payload 3 ++ rest) 0 = i.toNat / 2 ^ 16 % 2 ^ 8 :=
      byte_payload i (by decide) rest (by decide)
    have h1 : byte ((Mem.int i).payload 3 ++ rest) 1 = i.toNat / 2 ^ 8 % 2 ^ 8 :=
      byte_payload i (by decide) rest (by decide)
    have h2 : byte ((Mem.int i).payload 3 ++ rest) 2 = i.toNat / 2 ^ 0 % 2 ^ 8 :=
      byte_payload i (by decide) rest (by decide)
    rw [ht]
    refine congrArg Mem.int (signedInt_eq ?_)
    rw [threeByteInt_eq, h0, h1, h2, signedByte]
    unfold Within at hi
    split_ifs <;> omega
  · have h0 : byte ((Mem.int i).payload 4 ++ rest) 0 = i.toNat / 2 ^ 24 % 2 ^ 8 :=
      byte_payload i (by decide) rest (by decide)
    have h1 : byte ((Mem.int i).payload 4 ++ rest) 1 = i.toNat / 2 ^ 16 % 2 ^ 8 :=
      byte_payload i (by decide) rest (by decide)
    have h2 : byte ((Mem.int i).payload 4 ++ rest) 2 = i.toNat / 2 ^ 8 % 2 ^ 8 :=
      byte_payload i (by decide) rest (by decide)
    have h3 : byte ((Mem.int i).payload 4 ++ rest) 3 = i.toNat / 2 ^ 0 % 2 ^ 8 :=
      byte_payload i (by decide) rest (by decide)
    rw [ht]
    refine congrArg Mem.int (signedInt_eq ?_)
    rw [fourByteInt_eq, h0, h1, h2, h3, signedByte]
    unfold Within at hi
    split_ifs <;> omega
  · have h0 : byte ((Mem.int i).payload 5 ++ rest) 0 = i.toNat / 2 ^ 40 % 2 ^ 8 :=
      byte_payload i (by decide) rest (by decide)
    have h1 : byte ((Mem.int i).payload 5 ++ rest) 1 = i.toNat / 2 ^ 32 % 2 ^ 8 :=
      byte_payload i (by decide) rest (by decide)
    have hlower : fourByteUint (((Mem.int i).payload 5 ++ rest).drop 2) =
        i.toNat / 2 ^ 0 % 2 ^ 32 := by
      rw [int_payload i (by decide)]
      have hsix : 2 + 4 ≤ 6 := by decide
      exact fourByteUint_putBytes hsix i.toNat rest
    have hupper : (signedInt (twoByteInt ((Mem.int i).payload 5 ++ rest))).toNat =
        if i.toNat < 2 ^ 47 then i.toNat / 2 ^ 32 else i.toNat / 2 ^ 32 + (2 ^ 64 - 2 ^ 32) := by
      unfold Within at hi
      have htwo : twoByteInt ((Mem.int i).payload 5 ++ rest) = i.toNat / 2 ^ 32 := by
        rw [twoByteInt_eq, h0, h1, signedByte]
        split_ifs <;> omega
      rw [htwo, signedInt_toNat (by omega)]
      split_ifs <;> omega
    rw [ht]
    refine congrArg Mem.int (BitVec.eq_of_toNat_eq ?_)
    rw [BitVec.toNat_add, BitVec.toNat_mul, BitVec.toNat_ofNat, BitVec.toNat_ofNat, hlower, hupper]
    unfold Within at hi
    split_ifs <;> omega
  · rw [ht, int_payload i (by decide)]
    exact congrArg Mem.int (eightBytes_putBytes i rest)

/-! ## Values -/

/-- The value that a record has for a register. -/
def Mem.stored : Mem → Mem
  | intReal i => if 140737488355327 < unsigned i then real (toDouble i) else int i
  | zeroBlob z nZero => blob (z ++ List.replicate nZero 0)
  | m => m

/-- A register as it is read back: what is stored of a NaN is read as NULL, and an integer that
    stands for a real is an integer again, or a double where it takes eight bytes. -/
def Mem.loaded : Mem → Mem
  | intReal i => if 140737488355327 < unsigned i then real (toDouble i) else int i
  | real r => if isNaN r then null else real r
  | zeroBlob z nZero => blob (z ++ List.replicate nZero 0)
  | m => m

/-- The exponent of a NaN has all its bits. -/
theorem exponent_of_isNaN {x : BitVec 64} (h : isNaN x = true) :
    x.toNat / 2 ^ 52 % 2 ^ 11 = 2047 := by
  have hexp : x &&& (0x7ff : BitVec 64) <<< 52 = (0x7ff : BitVec 64) <<< 52 := by
    simp only [isNaN, Bool.and_eq_true, beq_iff_eq] at h
    exact h.1
  have hand := congrArg BitVec.toNat hexp
  have hmask : ((0x7ff : BitVec 64) <<< 52).toNat = (2 ^ 11 - 1) <<< 52 := by decide
  rw [BitVec.toNat_and, hmask, and_field, Nat.shiftLeft_eq] at hand
  exact Nat.eq_of_mul_eq_mul_right (Nat.two_pow_pos 52) hand

/-- The double of an integer is a number. -/
theorem isNaN_toDouble (i : BitVec 64) : isNaN (toDouble i) = false := by
  refine Bool.eq_false_iff.mpr fun hnan => ?_
  have hexponent := exponent_of_isNaN hnan
  have habs : i.toInt.natAbs ≤ 2 ^ 63 := by
    have hlo := BitVec.le_toInt i
    have hhi := BitVec.toInt_lt (x := i)
    omega
  have hround := Binary64.nearest_le i.toInt.natAbs 1
  have hlast : (i.toInt.natAbs / 1).log2 - 52 ≤ 11 := by
    have hlog : (i.toInt.natAbs / 1).log2 < 64 := by
      rcases Nat.eq_zero_or_pos i.toInt.natAbs with hzero | hpos
      · rw [hzero]
        decide
      · refine (Nat.log2_lt (by omega)).mpr ?_
        omega
    omega
  have hpow := Nat.pow_le_pow_right (show 0 < 2 by decide) hlast
  rw [toDouble, BitVec.toNat_ofNat] at hexponent
  generalize Binary64.nearest i.toInt.natAbs 1 = n at hround hexponent
  have hlog : n.log2 < 64 := by
    rcases Nat.eq_zero_or_pos n with hzero | hpos
    · rw [hzero]
      decide
    · refine (Nat.log2_lt (by omega)).mpr ?_
      omega
  have hfraction : n * 2 ^ 52 / 2 ^ n.log2 - 2 ^ 52 < 2 ^ 52 := by
    have hlt : n < 2 ^ (n.log2 + 1) := Nat.lt_log2_self
    have hdiv : n * 2 ^ 52 / 2 ^ n.log2 < 2 ^ 53 := by
      rw [Nat.div_lt_iff_lt_mul (Nat.two_pow_pos _)]
      calc n * 2 ^ 52 < 2 ^ (n.log2 + 1) * 2 ^ 52 := by omega
        _ = 2 ^ 53 * 2 ^ n.log2 := by ring
    omega
  generalize n * 2 ^ 52 / 2 ^ n.log2 - 2 ^ 52 = fraction at hfraction hexponent
  generalize n.log2 = e at hlog hexponent
  split_ifs at hexponent <;> omega

/-- **A register is read back** as the value that is stored for it is. -/
theorem loaded_stored (m : Mem) : m.stored.loaded = m.loaded := by
  cases m with
  | intReal i =>
    rw [Mem.stored, Mem.loaded]
    split_ifs
    · rw [Mem.loaded, isNaN_toDouble, if_neg Bool.false_ne_true]
    · rfl
  | null | noChange | int | real | str | blob | zeroBlob => rfl

/-- A value that a record can have, whose length fits into its serial type. -/
structure Mem.Fits (m : Mem) : Prop where
  stored : m.stored = m
  size : m.z.length * 2 + 13 < 2 ^ 32

theorem not_fits_intReal (i : BitVec 64) : ¬ (Mem.intReal i).Fits := by
  intro h
  have hstored := h.stored
  rw [Mem.stored] at hstored
  split_ifs at hstored

theorem not_fits_zeroBlob (z : List UInt8) (nZero : ℕ) : ¬ (Mem.zeroBlob z nZero).Fits :=
  fun h => Mem.noConfusion h.stored

/-- The size of a text is in its type. -/
theorem serialTypeLen_text {t : ℕ} (h : 12 ≤ t) : sqlite3VdbeSerialTypeLen t = (t - 12) / 2 := by
  have htable : ∀ t < 128, 12 ≤ t → smallTypeSize t = (t - 12) / 2 := by decide
  rw [sqlite3VdbeSerialTypeLen]
  split_ifs with hlarge
  · rfl
  · exact htable t (by omega) h

theorem payload_text {m : Mem} {t : ℕ} (ht : 12 ≤ t) (hz : t < 14 → m.z = []) :
    m.payload t = m.z := by
  rw [Mem.payload, if_neg (by omega)]
  split_ifs with hsmall hlong
  · rfl
  · exact (hz (by omega)).symm
  · rfl

theorem serialGet_text (buf : List UInt8) {t : ℕ} (h : 12 ≤ t) : sqlite3VdbeSerialGet buf t =
    if t % 2 = 1 then .str (buf.take ((t - 12) / 2)) else .blob (buf.take ((t - 12) / 2)) := by
  obtain ⟨n, rfl⟩ := Nat.exists_eq_add_of_le' h
  rfl

theorem serialType_str (fmt : ℕ) {z : List UInt8} (h : (Mem.str z).Fits) :
    (Mem.str z).serialType fmt = z.length * 2 + 13 := u32_of_lt h.size

theorem serialType_blob (fmt : ℕ) {z : List UInt8} (h : (Mem.blob z).Fits) :
    (Mem.blob z).serialType fmt = z.length * 2 + 12 := by
  have hlt : z.length * 2 + 13 < 2 ^ 32 := h.size
  exact u32_of_lt (by omega)

/-- **A value is read back** from its type and its payload. -/
theorem serialGet_payload (fmt : ℕ) {m : Mem} (h : m.Fits) (rest : List UInt8) :
    sqlite3VdbeSerialGet (m.payload (m.serialType fmt) ++ rest) (m.serialType fmt) = m.loaded := by
  cases m with
  | null => rfl
  | noChange => rfl
  | int i => exact serialGet_int fmt i rest
  | intReal i => exact absurd h (not_fits_intReal i)
  | zeroBlob z nZero => exact absurd h (not_fits_zeroBlob z nZero)
  | real r =>
    have hpayload : (Mem.real r).payload 7 ++ rest = putBytes 8 r.toNat rest :=
      putBytes_append 8 r.toNat [] rest
    show sqlite3VdbeSerialGet ((Mem.real r).payload 7 ++ rest) 7 = _
    rw [hpayload]
    show (if isNaN (eightBytes _) then Mem.null else Mem.real (eightBytes _)) = _
    rw [eightBytes_putBytes]
    rfl
  | str z =>
    have hempty : z.length * 2 + 13 < 14 → z = [] :=
      fun hlt => List.length_eq_zero_iff.mp (by omega)
    have hlen : (z.length * 2 + 13 - 12) / 2 = z.length := by omega
    rw [serialType_str fmt h, payload_text (by omega) hempty, serialGet_text _ (by omega),
      if_pos (by omega), hlen]
    exact congrArg Mem.str List.take_left
  | blob z =>
    have hempty : z.length * 2 + 12 < 14 → z = [] :=
      fun hlt => List.length_eq_zero_iff.mp (by omega)
    have hlen : (z.length * 2 + 12 - 12) / 2 = z.length := by omega
    rw [serialType_blob fmt h, payload_text (by omega) hempty, serialGet_text _ (by omega),
      if_neg (by omega), hlen]
    exact congrArg Mem.blob List.take_left

/-- The payload fills the space its type says. -/
theorem length_payload (fmt : ℕ) {m : Mem} (h : m.Fits) :
    (m.payload (m.serialType fmt)).length = sqlite3VdbeSerialTypeLen (m.serialType fmt) := by
  cases m with
  | null => rfl
  | noChange => rfl
  | int i =>
    have hlen : ∀ t, 1 ≤ t → t ≤ 7 → ((Mem.int i).payload t).length = smallTypeSize t := by
      intro t hpos hle
      have hbytes := int_payload i ⟨hpos, hle⟩ []
      rw [List.append_nil] at hbytes
      rw [hbytes, length_putBytes]
      rfl
    show ((Mem.int i).payload (intType fmt i)).length = sqlite3VdbeSerialTypeLen (intType fmt i)
    rcases intType_cases fmt i with ⟨ht, -⟩ | ⟨ht, -⟩ | ⟨ht, -⟩ | ⟨ht, -⟩ | ⟨ht, -⟩ | ⟨ht, -⟩ |
      ⟨ht, -⟩ | ht
    · rw [ht]
      rfl
    · rw [ht]
      rfl
    all_goals
      rw [ht, hlen _ (by decide) (by decide)]
      rfl
  | intReal i => exact absurd h (not_fits_intReal i)
  | zeroBlob z nZero => exact absurd h (not_fits_zeroBlob z nZero)
  | real r => exact length_putBytes 8 r.toNat []
  | str z =>
    have hempty : z.length * 2 + 13 < 14 → z = [] :=
      fun hlt => List.length_eq_zero_iff.mp (by omega)
    rw [serialType_str fmt h, payload_text (by omega) hempty, serialTypeLen_text (by omega)]
    show z.length = _
    omega
  | blob z =>
    have hempty : z.length * 2 + 12 < 14 → z = [] :=
      fun hlt => List.length_eq_zero_iff.mp (by omega)
    rw [serialType_blob fmt h, payload_text (by omega) hempty, serialTypeLen_text (by omega)]
    show z.length = _
    omega

/-- The space `OP_MakeRecord` counts for a value is the space its payload takes. -/
theorem dataSize_eq (fmt : ℕ) {m : Mem} (h : m.Fits) :
    m.dataSize fmt = (m.payload (m.serialType fmt)).length := by
  rw [length_payload fmt h]
  cases m with
  | null => rfl
  | noChange => rfl
  | int i =>
    show (Mem.int i).dataSize fmt = sqlite3VdbeSerialTypeLen (intType fmt i)
    rw [Mem.dataSize]
    rcases intType_cases fmt i with ⟨ht, -⟩ | ⟨ht, -⟩ | ⟨ht, -⟩ | ⟨ht, -⟩ | ⟨ht, -⟩ | ⟨ht, -⟩ |
      ⟨ht, -⟩ | ht
    all_goals
      rw [ht]
      rfl
  | intReal i => exact absurd h (not_fits_intReal i)
  | zeroBlob z nZero => exact absurd h (not_fits_zeroBlob z nZero)
  | real r => rfl
  | str z =>
    rw [serialType_str fmt h, serialTypeLen_text (by omega)]
    show z.length = _
    omega
  | blob z =>
    rw [serialType_blob fmt h, serialTypeLen_text (by omega)]
    show z.length = _
    omega

/-! ## The header -/

theorem length_typeBytes {t : ℕ} (ht : t < 2 ^ 32) : (typeBytes t).length = sqlite3VarintLen t := by
  have hone : sqlite3VarintLen t ≤ 1 ↔ t < 2 ^ 7 := varintLen_le (k := 0) (by decide)
  have hpos := varintLen_pos t
  have hle : sqlite3VarintLen t ≤ 5 := (varintLen_le (k := 4) (by decide)).mpr (by omega)
  rw [typeBytes]
  split_ifs with hsmall
  · rw [List.length_singleton]
    omega
  · rw [length_putVarint (by omega)]
    omega

theorem varintLen_one {t : ℕ} (ht : t < 2 ^ 7) : sqlite3VarintLen t = 1 :=
  le_antisymm ((varintLen_le (k := 0) (by decide)).mpr ht) (varintLen_pos t)

theorem varintLen_mono {v w : ℕ} (hle : v ≤ w) (hw : w < 2 ^ 63) :
    sqlite3VarintLen v ≤ sqlite3VarintLen w := by
  have hnine : sqlite3VarintLen w ≤ 9 := (varintLen_le (k := 8) (by decide)).mpr hw
  obtain ⟨k, hk⟩ := Nat.exists_eq_add_of_lt (varintLen_pos w)
  have hbound : w < 2 ^ (7 * (k + 1)) := (varintLen_le (by omega)).mp (by omega)
  have hlen : sqlite3VarintLen v ≤ k + 1 := (varintLen_le (by omega)).mpr (hle.trans_lt hbound)
  omega

/-- A type is read back from the header. -/
theorem getVarint32_typeBytes {t : ℕ} (ht : t < 2 ^ 32) (rest : List UInt8) :
    getVarint32 (typeBytes t ++ rest) = (t, (typeBytes t).length) := by
  rw [typeBytes]
  split_ifs with hsmall
  · have hbyte : byte ([UInt8.ofNat t] ++ rest) 0 = t := by
      rw [List.singleton_append, byte_cons_zero, UInt8.toNat_ofNat']
      omega
    rw [getVarint32, hbyte, if_pos hsmall]
    rfl
  · rw [getVarint32_eq, getVarint_putVarint (by omega), Nat.min_eq_left (by omega)]

/-- The types that `OP_MakeRecord` writes. -/
theorem serialType_lt (fmt : ℕ) (m : Mem) : m.serialType fmt < 2 ^ 32 := by
  cases m with
  | null => exact Nat.two_pow_pos 32
  | noChange => exact (by decide : 10 < 2 ^ 32)
  | int i | intReal i =>
    have hle := intType_le fmt i
    show intType fmt i < 2 ^ 32
    omega
  | real r => exact (by decide : 7 < 2 ^ 32)
  | str z | blob z | zeroBlob z nZero => exact Nat.mod_lt _ (by decide)

/-- The space counted for a type is the space it takes. -/
theorem headerSize_eq (fmt : ℕ) (m : Mem) :
    m.headerSize fmt = (typeBytes (m.serialType fmt)).length := by
  rw [length_typeBytes (serialType_lt fmt m)]
  cases m with
  | null => exact (varintLen_one (t := 0) (by decide)).symm
  | noChange => exact (varintLen_one (t := 10) (by decide)).symm
  | int i | intReal i =>
    have hle := intType_le fmt i
    exact (varintLen_one (t := intType fmt i) (by omega)).symm
  | real r => exact (varintLen_one (t := 7) (by decide)).symm
  | str z | blob z | zeroBlob z nZero => rfl

theorem headerSize_pos (n : ℕ) : 0 < headerSize n := by
  rw [headerSize]
  dsimp only
  split_ifs <;> omega

/-- **The size of the header counts itself.** -/
theorem headerSize_fixed {n : ℕ} (hn : headerSize n < 2 ^ 32) :
    headerSize n = n + (typeBytes (headerSize n)).length := by
  rw [length_typeBytes hn]
  rw [headerSize] at hn ⊢
  by_cases hshort : n ≤ 126
  · rw [if_pos hshort, varintLen_one (by omega)]
  · rw [if_neg hshort] at hn ⊢
    dsimp only at hn ⊢
    have hsmall : n + sqlite3VarintLen n < 2 ^ 32 := by
      split_ifs at hn
      · omega
      · exact hn
    obtain ⟨k, hk⟩ := Nat.exists_eq_add_of_lt (varintLen_pos n)
    have hfive : sqlite3VarintLen n ≤ 5 := (varintLen_le (k := 4) (by decide)).mpr (by omega)
    have hbound : n < 2 ^ (7 * (k + 1)) := (varintLen_le (by omega)).mp (by omega)
    have hpow : 2 ^ (7 * (k + 1 + 1)) = 2 ^ (7 * (k + 1)) * 2 ^ 7 := by rw [Nat.mul_succ 7, pow_add]
    have hgrow : sqlite3VarintLen (n + sqlite3VarintLen n) ≤ k + 1 ↔
        n + sqlite3VarintLen n < 2 ^ (7 * (k + 1)) :=
      varintLen_le (by omega)
    split_ifs with hgrows
    · have hle : sqlite3VarintLen (n + sqlite3VarintLen n + 1) ≤ k + 1 + 1 :=
        (varintLen_le (by omega)).mpr (by omega)
      have hgt : ¬ sqlite3VarintLen (n + sqlite3VarintLen n + 1) ≤ k + 1 := by
        rw [varintLen_le (by omega)]
        omega
      omega
    · have hle := varintLen_mono (Nat.le_add_right n (sqlite3VarintLen n)) (by omega)
      omega

end ProjectEvaluation.Sqlite
