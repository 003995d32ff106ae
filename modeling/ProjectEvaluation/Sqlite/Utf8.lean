import Mathlib.Data.List.Basic
import Mathlib.Data.List.TakeWhile
import Mathlib.Tactic

/-!
# `utf.c`: reading characters

SQLite reads its strings byte by byte up to the NUL at their end. A string is the list of its
bytes before that NUL; reading at the end gives 0.

`sqlite3Utf8Read` accepts any bytes: a continuation byte on its own is a character, a leading
byte takes all continuation bytes after it, and what is no character of Unicode becomes
U+FFFD.

Results:
* `codes_utf8`: of the UTF-8 bytes of a text it reads the characters one by one, U+FFFE and
  U+FFFF as U+FFFD.
-/

namespace ProjectEvaluation.Sqlite

/-- `sqlite3Utf8Trans1` (`utf.c`, lines 52–61): the bits of the leading bytes from `0xc0` on. -/
def sqlite3Utf8Trans1 : List ℕ :=
  [0x00, 0x01, 0x02, 0x03, 0x04, 0x05, 0x06, 0x07, 0x08, 0x09, 0x0a, 0x0b, 0x0c, 0x0d, 0x0e, 0x0f,
   0x10, 0x11, 0x12, 0x13, 0x14, 0x15, 0x16, 0x17, 0x18, 0x19, 0x1a, 0x1b, 0x1c, 0x1d, 0x1e, 0x1f,
   0x00, 0x01, 0x02, 0x03, 0x04, 0x05, 0x06, 0x07, 0x08, 0x09, 0x0a, 0x0b, 0x0c, 0x0d, 0x0e, 0x0f,
   0x00, 0x01, 0x02, 0x03, 0x04, 0x05, 0x06, 0x07, 0x00, 0x01, 0x02, 0x03, 0x00, 0x01, 0x00, 0x00]

/-- `(*z & 0xc0)==0x80`. -/
def isContinuation (b : UInt8) : Bool := 0x80 ≤ b.toNat && b.toNat < 0xc0

/-- `while( (*(*pz) & 0xc0)==0x80 ) c = (c<<6) + (0x3f & *((*pz)++))` for a `c` of 32 bits (`utf.c`,
    lines 186–188): `c` and the bytes that are left. -/
def readContinuation : ℕ → List UInt8 → ℕ × List UInt8
  | c, [] => (c, [])
  | c, b :: z =>
    if isContinuation b then readContinuation ((c * 2 ^ 6 + b.toNat % 2 ^ 6) % 2 ^ 32) z
      else (c, b :: z)

/-- `if( c<0x80 || (c&0xFFFFF800)==0xD800 || (c&0xFFFFFFFE)==0xFFFE ) c = 0xFFFD` (`utf.c`, lines
    189–191). -/
def validCode (c : ℕ) : ℕ :=
  if c < 0x80 ∨ c / 2 ^ 11 = 0xD800 / 2 ^ 11 ∨ c / 2 = 0xFFFE / 2 then 0xFFFD else c

/-- `sqlite3Utf8Read` (`utf.c`, lines 175–194): the next character and the bytes after it. -/
def sqlite3Utf8Read : List UInt8 → ℕ × List UInt8
  | [] => (0, [])
  | b :: z =>
    if b.toNat < 0xc0 then (b.toNat, z)
    else
      let read := readContinuation (sqlite3Utf8Trans1.getD (b.toNat - 0xc0) 0) z
      (validCode read.1, read.2)

theorem readContinuation_suffix (c : ℕ) (z : List UInt8) : (readContinuation c z).2 <:+ z := by
  induction z generalizing c with
  | nil => exact List.suffix_refl []
  | cons b z ih =>
    unfold readContinuation
    split_ifs
    · exact (ih _).trans (List.suffix_cons b z)
    · exact List.suffix_refl _

theorem sqlite3Utf8Read_end : (sqlite3Utf8Read []).1 = 0 := rfl

theorem sqlite3Utf8Read_cons (b : UInt8) (z : List UInt8) :
    sqlite3Utf8Read (b :: z) =
      if b.toNat < 0xc0 then (b.toNat, z)
      else
        (validCode (readContinuation (sqlite3Utf8Trans1.getD (b.toNat - 0xc0) 0) z).1,
          (readContinuation (sqlite3Utf8Trans1.getD (b.toNat - 0xc0) 0) z).2) := rfl

theorem sqlite3Utf8Read_suffix (b : UInt8) (z : List UInt8) :
    (sqlite3Utf8Read (b :: z)).2 <:+ z := by
  rw [sqlite3Utf8Read_cons]
  split_ifs
  · exact List.suffix_refl z
  · exact readContinuation_suffix _ z

theorem sqlite3Utf8Read_length (b : UInt8) (z : List UInt8) :
    (sqlite3Utf8Read (b :: z)).2.length < (b :: z).length :=
  Nat.lt_succ_of_le (sqlite3Utf8Read_suffix b z).length_le

theorem sqlite3Utf8Read_le (z : List UInt8) : (sqlite3Utf8Read z).2.length ≤ z.length := by
  cases z with
  | nil => exact le_rfl
  | cons b z => exact (sqlite3Utf8Read_length b z).le

/-- The characters of a string. -/
def codes : List UInt8 → List ℕ
  | [] => []
  | b :: z => (sqlite3Utf8Read (b :: z)).1 :: codes (sqlite3Utf8Read (b :: z)).2
termination_by z => z.length
decreasing_by exact sqlite3Utf8Read_length b z

@[simp] theorem codes_nil : codes [] = [] := by rw [codes]

theorem codes_cons (b : UInt8) (z : List UInt8) :
    codes (b :: z) = (sqlite3Utf8Read (b :: z)).1 :: codes (sqlite3Utf8Read (b :: z)).2 := by
      rw [codes]

/-- Reading takes the first character. -/
theorem codes_tail (z : List UInt8) : codes (sqlite3Utf8Read z).2 = (codes z).tail := by
  cases z with
  | nil => rw [show (sqlite3Utf8Read []).2 = [] from rfl, codes_nil, List.tail_nil]
  | cons b z => rw [codes_cons, List.tail_cons]

/-- A byte below `0xc0` is a character. -/
theorem sqlite3Utf8Read_single {b : UInt8} (hb : b.toNat < 0xc0) (z : List UInt8) :
    sqlite3Utf8Read (b :: z) = (b.toNat, z) := by
  rw [sqlite3Utf8Read_cons, if_pos hb]

theorem codes_single {b : UInt8} (hb : b.toNat < 0xc0) (z : List UInt8) :
    codes (b :: z) = b.toNat :: codes z := by
  rw [codes_cons, sqlite3Utf8Read_single hb]

theorem validCode_ge (c : ℕ) : 0x80 ≤ validCode c := by
  unfold validCode
  split_ifs with h
  · norm_num
  · omega

/-- Characters of ASCII are bytes of ASCII. -/
theorem sqlite3Utf8Read_ascii {b : UInt8} {z : List UInt8}
    (h : (sqlite3Utf8Read (b :: z)).1 < 0x80) :
    b.toNat < 0x80 := by
  by_contra hb
  rw [sqlite3Utf8Read_cons] at h
  split_ifs at h with hsingle
  · exact hb h
  · exact absurd h (Nat.not_lt.mpr (validCode_ge _))

/-- A string without NULs. -/
def NulFree (z : List UInt8) : Prop := ∀ b ∈ z, b ≠ 0

theorem NulFree.suffix {z z' : List UInt8} (h : NulFree z) (hsuffix : z' <:+ z) : NulFree z' :=
  fun b hb => h b (hsuffix.subset hb)

theorem NulFree.read {b : UInt8} {z : List UInt8} (h : NulFree (b :: z)) :
    NulFree (sqlite3Utf8Read (b :: z)).2 :=
  h.suffix ((sqlite3Utf8Read_suffix b z).trans (List.suffix_cons b z))

/-- No character of a string is NUL. -/
theorem NulFree.code_ne_zero {b : UInt8} {z : List UInt8} (h : NulFree (b :: z)) :
    (sqlite3Utf8Read (b :: z)).1 ≠ 0 := by
  intro hzero
  have hb := sqlite3Utf8Read_ascii (b := b) (z := z) (by omega)
  rw [sqlite3Utf8Read_single (by omega)] at hzero
  exact h b List.mem_cons_self (UInt8.toNat_inj.mp hzero)

theorem NulFree.read_ne_zero {z : List UInt8} (h : NulFree z) :
    (sqlite3Utf8Read z).1 ≠ 0 ↔ z ≠ [] := by
  cases z with
  | nil => exact iff_of_false (fun h => h rfl) (fun h => h rfl)
  | cons b z => exact iff_of_true h.code_ne_zero (List.cons_ne_nil b z)

theorem NulFree.rest {z : List UInt8} (h : NulFree z) : NulFree (sqlite3Utf8Read z).2 := by
  cases z with
  | nil => exact h
  | cons b z => exact h.read

/-- Reading gives the first character. -/
theorem codes_headD (z : List UInt8) : (codes z).headD 0 = (sqlite3Utf8Read z).1 := by
  cases z with
  | nil => rw [codes_nil]; rfl
  | cons b z => rw [codes_cons, List.headD_cons]

/-! ## The bytes of a text -/

/-- The bytes of a text. -/
def utf8 (text : List Char) : List UInt8 := text.flatMap String.utf8EncodeChar

/-- What SQLite reads for a character. -/
def readAs (c : Char) : ℕ := if c.toNat = 0xFFFE ∨ c.toNat = 0xFFFF then 0xFFFD else c.toNat

/-- A character that is read as it is. -/
def Audible (c : Char) : Prop := c.toNat ≠ 0 ∧ c.toNat ≠ 0xFFFE ∧ c.toNat ≠ 0xFFFF

instance (c : Char) : Decidable (Audible c) := inferInstanceAs (Decidable (_ ∧ _ ∧ _))

/-- What SQLite hears of a text: nothing behind a NUL, and a replacement character for U+FFFE and
    U+FFFF. -/
def heard (text : List Char) : List Char :=
  (text.takeWhile fun c => c.toNat ≠ 0).map fun c =>
    if c.toNat = 0xFFFE ∨ c.toNat = 0xFFFF then Char.ofNat 0xFFFD else c

theorem heard_audible {text : List Char} : ∀ c ∈ heard text, Audible c := by
  intro c hc
  obtain ⟨d, hd, rfl⟩ := List.mem_map.mp hc
  have hne := List.mem_takeWhile_imp hd
  rw [decide_eq_true_eq] at hne
  split_ifs with hbad
  · decide
  · exact ⟨hne, fun h => hbad (Or.inl h), fun h => hbad (Or.inr h)⟩

theorem heard_ne_zero (text : List Char) : ∀ c ∈ heard text, c.toNat ≠ 0 :=
  fun c hc => (heard_audible c hc).1

/-- Audible texts are heard as they are. -/
theorem heard_plain {text : List Char} (h : ∀ c ∈ text, Audible c) : heard text = text := by
  rw [heard, List.takeWhile_eq_self_iff.mpr fun c hc => decide_eq_true (h c hc).1]
  refine (List.map_congr_left fun c hc => ?_).trans (List.map_id text)
  exact if_neg fun hbad => hbad.elim (h c hc).2.1 (h c hc).2.2

theorem heard_heard (text : List Char) : heard (heard text) = heard text :=
  heard_plain heard_audible

/-- What follows a text without NUL is heard after it. -/
theorem heard_append {u : List Char} (hu : ∀ c ∈ u, c.toNat ≠ 0) (v : List Char) :
    heard (u ++ v) = heard u ++ heard v := by
  rw [heard, heard, heard, List.takeWhile_append_of_pos fun c hc => decide_eq_true (hu c hc),
    List.map_append, List.takeWhile_eq_self_iff.mpr fun c hc => decide_eq_true (hu c hc)]

/-- What follows a text with a NUL is not heard. -/
theorem heard_cut {u : List Char} (hu : ¬ ∀ c ∈ u, c.toNat ≠ 0) (v : List Char) :
    heard (u ++ v) = heard u := by
  have hshort : (u.takeWhile fun c => decide (c.toNat ≠ 0)).length ≠ u.length := by
    intro hlength
    have hall := (List.takeWhile_prefix _).eq_of_length hlength
    exact hu fun c hc => of_decide_eq_true (List.takeWhile_eq_self_iff.mp hall c hc)
  rw [heard, heard, List.takeWhile_append, if_neg hshort]

/-- A string does not begin with a continuation byte. -/
def AtCharacter (z : List UInt8) : Prop := ∀ b ∈ z.head?, isContinuation b = false

theorem readContinuation_stop {z : List UInt8} (h : AtCharacter z) (c : ℕ) :
    readContinuation c z = (c, z) := by
  cases z with
  | nil => rfl
  | cons b z =>
    have hb : isContinuation b = false := h b rfl
    rw [readContinuation, hb]
    rfl

theorem readContinuation_byte (c n : ℕ) (z : List UInt8) :
    readContinuation c (UInt8.ofNat (n % 0x40 + 0x80) :: z) =
      readContinuation ((c * 2 ^ 6 + n % 0x40) % 2 ^ 32) z := by
  have hb : (UInt8.ofNat (n % 0x40 + 0x80)).toNat = n % 0x40 + 0x80 := by
    rw [UInt8.toNat_ofNat']
    omega
  have hcontinuation : isContinuation (UInt8.ofNat (n % 0x40 + 0x80)) = true := by
    rw [isContinuation, hb]
    simp only [Bool.and_eq_true, decide_eq_true_eq]
    omega
  have hbits : (n % 0x40 + 0x80) % 2 ^ 6 = n % 0x40 := by omega
  rw [readContinuation, if_pos hcontinuation, hb, hbits]

/-- The leading bytes of two, three and four bytes. -/
theorem trans1_two : ∀ n < 0x20, sqlite3Utf8Trans1.getD n 0 = n := by decide

theorem trans1_three : ∀ n < 0x10, sqlite3Utf8Trans1.getD (0x20 + n) 0 = n := by decide

theorem trans1_four : ∀ n < 0x08, sqlite3Utf8Trans1.getD (0x30 + n) 0 = n := by decide

theorem sqlite3Utf8Read_leading {n : ℕ} (h : 0xc0 ≤ n) (h' : n < 0x100) (z : List UInt8) :
    sqlite3Utf8Read (UInt8.ofNat n :: z) =
      (validCode (readContinuation (sqlite3Utf8Trans1.getD (n - 0xc0) 0) z).1,
        (readContinuation (sqlite3Utf8Trans1.getD (n - 0xc0) 0) z).2) := by
  have hb : (UInt8.ofNat n).toNat = n := by
    rw [UInt8.toNat_ofNat']
    omega
  rw [sqlite3Utf8Read_cons, hb, if_neg (by omega)]

/-- A character beyond ASCII is not replaced, but for U+FFFE and U+FFFF. -/
theorem validCode_char {c : Char} (h : 0x80 ≤ c.toNat) : validCode c.toNat = readAs c := by
  have hvalid : c.toNat < 0xd800 ∨ 0xdfff < c.toNat := by
    rcases c.valid with h | h
    · exact Or.inl h
    · exact Or.inr h.1
  have hiff : (c.toNat < 0x80 ∨ c.toNat / 2 ^ 11 = 0xD800 / 2 ^ 11 ∨ c.toNat / 2 = 0xFFFE / 2) ↔
      (c.toNat = 0xFFFE ∨ c.toNat = 0xFFFF) := by omega
  simp only [validCode, readAs, hiff]

/-- **Reading a character** of a text. -/
theorem sqlite3Utf8Read_char (c : Char) {z : List UInt8} (h : AtCharacter z) :
    sqlite3Utf8Read (String.utf8EncodeChar c ++ z) = (readAs c, z) := by
  have hmax : c.toNat < 0x110000 := by
    rcases c.valid with h | h
    · have hlt : c.toNat < 0xd800 := h
      omega
    · exact h.2
  have hdef : String.utf8EncodeChar c =
      if c.toNat ≤ 0x7f then [UInt8.ofNat c.toNat]
      else if c.toNat ≤ 0x7ff then [UInt8.ofNat (c.toNat / 64 % 0x20 + 0xc0),
        UInt8.ofNat (c.toNat % 0x40 + 0x80)]
      else if c.toNat ≤ 0xffff then
        [UInt8.ofNat (c.toNat / 4096 % 0x10 + 0xe0), UInt8.ofNat (c.toNat / 64 % 0x40 + 0x80),
          UInt8.ofNat (c.toNat % 0x40 + 0x80)]
      else
        [UInt8.ofNat (c.toNat / 262144 % 0x08 + 0xf0), UInt8.ofNat (c.toNat / 4096 % 0x40 + 0x80),
          UInt8.ofNat (c.toNat / 64 % 0x40 + 0x80), UInt8.ofNat (c.toNat % 0x40 + 0x80)] := rfl
  rw [hdef]
  split_ifs with hone htwo hthree
  · have hb : (UInt8.ofNat c.toNat).toNat = c.toNat := by
      rw [UInt8.toNat_ofNat']
      omega
    rw [List.singleton_append, sqlite3Utf8Read_single (by omega), hb, readAs, if_neg (by omega)]
  · have hlead : c.toNat / 64 % 0x20 + 0xc0 - 0xc0 = c.toNat / 64 := by omega
    have hcode : (c.toNat / 64 * 2 ^ 6 + c.toNat % 0x40) % 2 ^ 32 = c.toNat := by omega
    rw [List.cons_append, List.cons_append, List.nil_append,
      sqlite3Utf8Read_leading (by omega) (by omega), hlead, trans1_two _ (by omega),
      readContinuation_byte, hcode, readContinuation_stop h, validCode_char (by omega)]
  · have hlead : c.toNat / 4096 % 0x10 + 0xe0 - 0xc0 = 0x20 + c.toNat / 4096 := by omega
    have hcode : ((c.toNat / 4096 * 2 ^ 6 + c.toNat / 64 % 0x40) % 2 ^ 32 * 2 ^ 6 +
        c.toNat % 0x40) % 2 ^ 32 =
        c.toNat := by omega
    rw [List.cons_append, List.cons_append, List.cons_append, List.nil_append,
      sqlite3Utf8Read_leading (by omega) (by omega), hlead, trans1_three _ (by omega),
      readContinuation_byte, readContinuation_byte, hcode, readContinuation_stop h,
      validCode_char (by omega)]
  · have hlead : c.toNat / 262144 % 0x08 + 0xf0 - 0xc0 = 0x30 + c.toNat / 262144 := by omega
    have hcode : (((c.toNat / 262144 * 2 ^ 6 + c.toNat / 4096 % 0x40) % 2 ^ 32 * 2 ^ 6 +
        c.toNat / 64 % 0x40) %
        2 ^ 32 * 2 ^ 6 + c.toNat % 0x40) % 2 ^ 32 = c.toNat := by omega
    rw [List.cons_append, List.cons_append, List.cons_append, List.cons_append, List.nil_append,
      sqlite3Utf8Read_leading (by omega) (by omega), hlead, trans1_four _ (by omega),
      readContinuation_byte, readContinuation_byte, readContinuation_byte, hcode,
      readContinuation_stop h, validCode_char (by omega)]

/-- A character does not begin with a continuation byte. -/
theorem atCharacter_char (c : Char) (z : List UInt8) :
    AtCharacter (String.utf8EncodeChar c ++ z) := by
  have hlead : ∀ (n : ℕ) (rest : List UInt8), n < 0x80 ∨ 0xc0 ≤ n → n < 0x100 →
      AtCharacter (UInt8.ofNat n :: rest) := by
    intro n rest hn hn' b hb
    obtain rfl := Option.some.inj hb
    have htoNat : (UInt8.ofNat n).toNat = n := by
      rw [UInt8.toNat_ofNat']
      omega
    rw [isContinuation, htoNat, Bool.and_eq_false_iff, decide_eq_false_iff_not,
      decide_eq_false_iff_not]
    omega
  have hmax : c.val.toNat ≤ 0x7f ∨ 0x7f < c.val.toNat := by omega
  unfold String.utf8EncodeChar
  simp only
  split_ifs
  · exact hlead _ _ (by omega) (by omega)
  · exact hlead _ _ (by omega) (by omega)
  · exact hlead _ _ (by omega) (by omega)
  · exact hlead _ _ (by omega) (by omega)

theorem atCharacter_utf8 (text : List Char) : AtCharacter (utf8 text) := by
  cases text with
  | nil => exact fun b hb => nomatch hb
  | cons c text =>
    rw [utf8, List.flatMap_cons]
    exact atCharacter_char c _

/-- **The characters of a text.** -/
theorem codes_utf8 (text : List Char) : codes (utf8 text) = text.map readAs := by
  induction text with
  | nil => exact codes_nil
  | cons c text ih =>
    have hread := sqlite3Utf8Read_char c (atCharacter_utf8 text)
    have hbytes : utf8 (c :: text) = String.utf8EncodeChar c ++ utf8 text := List.flatMap_cons
    obtain ⟨b, z, hcons⟩ := List.exists_cons_of_ne_nil (l := String.utf8EncodeChar c ++ utf8 text)
      fun hnil => String.utf8EncodeChar_ne_nil (List.append_eq_nil_iff.mp hnil).1
    rw [hbytes, hcons, codes_cons, ← hcons, hread, List.map_cons, ih]

/-- A text without NUL has bytes without NUL. -/
theorem nulFree_utf8 {text : List Char} (h : ∀ c ∈ text, c.toNat ≠ 0) : NulFree (utf8 text) := by
  have hbyte : ∀ n : ℕ, 0 < n → n < 0x100 → UInt8.ofNat n ≠ 0 := by
    intro n hpos hlt hzero
    have htoNat := congrArg UInt8.toNat hzero
    rw [UInt8.toNat_ofNat'] at htoNat
    change n % 256 = 0 at htoNat
    omega
  intro b hb
  obtain ⟨c, hc, hb⟩ := List.mem_flatMap.mp hb
  have hc : c.val.toNat ≠ 0 := h c hc
  unfold String.utf8EncodeChar at hb
  simp only at hb
  split_ifs at hb
  all_goals
    simp only [List.mem_cons, List.not_mem_nil, or_false] at hb
  · rw [hb]
    exact hbyte _ (by omega) (by omega)
  · rcases hb with rfl | rfl <;> exact hbyte _ (by omega) (by omega)
  · rcases hb with rfl | rfl | rfl <;> exact hbyte _ (by omega) (by omega)
  · rcases hb with rfl | rfl | rfl | rfl <;> exact hbyte _ (by omega) (by omega)

end ProjectEvaluation.Sqlite
