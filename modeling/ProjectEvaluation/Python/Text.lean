import Mathlib.Data.List.Basic
import Mathlib.Data.List.DropRight
import Mathlib.Tactic
import ProjectEvaluation.Lib.Decimal

/-!
# Python strings: blanks, digits, `int(s)`

The operations of Python's `str` and `int` that the handlers of `routes.py`
use, on Lean strings through their lists of characters. Lone surrogates, which
JSON can spell and SQLite cannot store, have no counterpart here.

Results:
* `digitValue_digitChar`: a decimal digit reads back as its value.
* `strip_of_no_space`: `str.strip` leaves a text without blanks as it is.
-/

namespace ProjectEvaluation.Python

open Decimal

/-! ## Blanks -/

/-- `str.isspace` for one character. -/
def isSpace (c : Char) : Bool :=
  (9 ≤ c.toNat && c.toNat ≤ 13) || (28 ≤ c.toNat && c.toNat ≤ 32) || c.toNat == 0x85 ||
    c.toNat == 0xa0 || c.toNat == 0x1680 || (0x2000 ≤ c.toNat && c.toNat ≤ 0x200a) ||
    c.toNat == 0x2028 || c.toNat == 0x2029 || c.toNat == 0x202f || c.toNat == 0x205f ||
    c.toNat == 0x3000

/-- `str.strip()` on characters. -/
def stripChars (cs : List Char) : List Char :=
  ((cs.dropWhile isSpace).reverse.dropWhile isSpace).reverse

/-- `s.strip()`. -/
def strip (s : String) : String := String.ofList (stripChars s.toList)

theorem stripChars_of_no_space {cs : List Char} (h : ∀ c ∈ cs, isSpace c = false) :
    stripChars cs = cs := by
  have hdrop : ∀ l : List Char, (∀ c ∈ l, isSpace c = false) → l.dropWhile isSpace = l := by
    intro l hl
    cases l with
    | nil => rfl
    | cons c l => simp [hl c (by simp)]
  unfold stripChars
  rw [hdrop cs h, hdrop cs.reverse (fun c hc => h c (by simpa using hc)), List.reverse_reverse]

theorem stripChars_stripChars (cs : List Char) : stripChars (stripChars cs) = stripChars cs := by
  have hdef : ∀ l, stripChars l = (l.dropWhile isSpace).rdropWhile isSpace := fun _ => rfl
  have hstart : (stripChars cs).dropWhile isSpace = stripChars cs := by
    rw [List.dropWhile_eq_self_iff]
    intro hpos
    have hfront : stripChars cs <+: cs.dropWhile isSpace := List.rdropWhile_prefix _ _
    have hfirst :=
      List.dropWhile_eq_self_iff.mp (List.dropWhile_idempotent (p := isSpace) (l := cs))
    rw [hfront.getElem hpos]
    exact hfirst (hpos.trans_le hfront.length_le)
  rw [hdef, hstart, hdef, List.rdropWhile_idempotent]

theorem strip_strip (s : String) : strip (strip s) = strip s := by
  rw [strip, strip, String.toList_ofList, stripChars_stripChars]

theorem strip_of_no_space {s : String} (h : ∀ c ∈ s.toList, isSpace c = false) : strip s = s := by
  rw [strip, stripChars_of_no_space h, String.ofList_toList]

/-! ## Digits -/

/-- The zeros of the blocks of ten decimal digits (Unicode category Nd). -/
def decimalZeros : List ℕ :=
  [0x30, 0x660, 0x6f0, 0x7c0, 0x966, 0x9e6, 0xa66, 0xae6, 0xb66, 0xbe6, 0xc66, 0xce6, 0xd66, 0xde6,
   0xe50, 0xed0, 0xf20, 0x1040, 0x1090, 0x17e0, 0x1810, 0x1946, 0x19d0, 0x1a80, 0x1a90, 0x1b50,
   0x1bb0, 0x1c40, 0x1c50, 0xa620, 0xa8d0, 0xa900, 0xa9d0, 0xa9f0, 0xaa50, 0xabf0, 0xff10, 0x104a0,
   0x10d30, 0x11066, 0x110f0, 0x11136, 0x111d0, 0x112f0, 0x11450, 0x114d0, 0x11650, 0x116c0,
   0x11730, 0x118e0, 0x11950, 0x11c50, 0x11d50, 0x11da0, 0x11f50, 0x16a60, 0x16ac0, 0x16b50,
   0x1d7ce, 0x1d7d8, 0x1d7e2, 0x1d7ec, 0x1d7f6, 0x1e140, 0x1e2f0, 0x1e4f0, 0x1e950, 0x1fbf0]

/-- The value of a decimal digit of any script: `\d` of a regular expression
    and the digits `int` accepts. -/
def digitValue (c : Char) : Option ℕ :=
  decimalZeros.findSome? fun z => if z ≤ c.toNat ∧ c.toNat < z + 10
    then some (c.toNat - z) else none

theorem digitValue_digitChar {d : ℕ} (h : d < 10) : digitValue (Nat.digitChar d) = some d := by
  interval_cases d <;> decide

/-- The value of an ASCII digit. -/
def asciiDigit (c : Char) : Option ℕ :=
  if 48 ≤ c.toNat ∧ c.toNat < 58 then some (c.toNat - 48) else none

/-- An ASCII digit is the character of its value. -/
theorem asciiDigit_eq_some {c : Char} {n : ℕ} (h : asciiDigit c = some n) :
    n < 10 ∧ c = Nat.digitChar n := by
  unfold asciiDigit at h
  split_ifs at h with hc
  cases h
  have hn : c.toNat - 48 < 10 := by omega
  refine ⟨hn, ?_⟩
  have hchar : c = Char.ofNat (c.toNat - 48 + 48) := by
    rw [Nat.sub_add_cancel hc.1, Char.ofNat_toNat]
  generalize c.toNat - 48 = n at hn hchar
  rw [hchar]
  interval_cases n <;> rfl

/-- A nonempty string of ASCII digits as a number. -/
def asciiNumber (cs : List Char) : Option ℕ :=
  if cs = [] then none else cs.foldlM (fun n c => (asciiDigit c).map (10 * n + ·)) 0

/-- The digits of `int(s)` after the first one: single underscores may stand
    between digits. -/
def intDigits : ℕ → List Char → Option ℕ
  | n, [] => some n
  | n, '_' :: c :: cs => (digitValue c).bind fun d => intDigits (10 * n + d) cs
  | n, c :: cs => (digitValue c).bind fun d => intDigits (10 * n + d) cs

/-- The digits of `int(s)`. Python refuses to convert more than 4300 digits. -/
def intMagnitude (cs : List Char) : Option ℕ :=
  if 4300 < (cs.filter (· ≠ '_')).length then none
  else
    match cs with
    | [] => none
    | c :: cs => (digitValue c).bind fun d => intDigits d cs

/-- `int(s)` for a string `s`; `none` is a `ValueError`. -/
def pyInt (s : String) : Option ℤ :=
  match stripChars s.toList with
  | '-' :: cs => (intMagnitude cs).map fun n => -(n : ℤ)
  | '+' :: cs => (intMagnitude cs).map fun n => (n : ℤ)
  | cs => (intMagnitude cs).map fun n => (n : ℤ)

example : pyInt " 1_024 " = some 1024 := by decide

theorem digit_plain {d : ℕ} (h : d < 10) :
    isSpace (Nat.digitChar d) = false ∧ Nat.digitChar d ≠ '_' ∧ Nat.digitChar d ≠ '-' ∧
      Nat.digitChar d ≠ '+' := by
  interval_cases d <;> decide

theorem isSpace_toDigits (n : ℕ) : ∀ c ∈ Nat.toDigits 10 n, isSpace c = false := by
  intro c hc
  obtain ⟨d, hd, rfl⟩ := mem_toDigits hc
  exact (digit_plain hd).1

/-- There is no space in a number. -/
theorem isSpace_toString (n : ℤ) : ∀ c ∈ (toString n).toList, isSpace c = false :=
  forall_mem_toString isSpace_toDigits (by decide) n

theorem intDigits_append {cs : List Char} (hcs : ∀ c ∈ cs, c ≠ '_') (a : ℕ) {d : ℕ} (hd : d < 10) :
    intDigits a (cs ++ [Nat.digitChar d]) = (intDigits a cs).map fun n => 10 * n + d := by
  have hdigit : ∀ a, intDigits a [Nat.digitChar d] = some (10 * a + d) := by
    intro a
    rw [intDigits.eq_def]
    have hplain := (digit_plain hd).2.1
    split
    · contradiction
    · rename_i heq
      simp at heq
    · rename_i c cs _ heq
      cases heq
      rw [digitValue_digitChar hd, Option.bind_some, intDigits]
  induction cs generalizing a with
  | nil => rw [List.nil_append, hdigit, intDigits]; rfl
  | cons c cs ih =>
    have hc := hcs c List.mem_cons_self
    have hstep : ∀ cs', intDigits a (c :: cs') = (digitValue c).bind fun e =>
      intDigits (10 * a + e) cs' := by
      intro cs'
      rw [intDigits.eq_def]
      split
      · contradiction
      · rename_i heq
        cases heq
        exact absurd rfl hc
      · rename_i heq
        cases heq
        rfl
    rw [List.cons_append, hstep, hstep]
    cases digitValue c with
    | none => rfl
    | some e => exact ih (fun c' hc' => hcs c' (List.mem_cons_of_mem _ hc')) (10 * a + e)

theorem intMagnitude_toDigits {n : ℕ} (h : (Nat.toDigits 10 n).length ≤ 4300) :
    intMagnitude (Nat.toDigits 10 n) = some n := by
  have hread : ∀ n, ∃ c cs,
      Nat.toDigits 10 n = c :: cs ∧ (digitValue c).bind (fun d => intDigits d cs) = some n := by
    intro n
    induction n using Nat.strong_induction_on with
    | _ n ih =>
      by_cases hn : n < 10
      · exact ⟨_, _, Nat.toDigits_of_lt_base hn,
          by rw [digitValue_digitChar hn, Option.bind_some, intDigits]⟩
      · obtain ⟨c, cs, hcs, hvalue⟩ := ih (n / 10) (by omega)
        refine ⟨c, cs ++ [Nat.digitChar (n % 10)], ?_, ?_⟩
        · rw [Nat.toDigits_of_base_le (by norm_num) (by omega), hcs, List.cons_append]
        · have hplain : ∀ c ∈ cs, c ≠ '_' := by
            intro c' hc'
            obtain ⟨d, hd, rfl⟩ := mem_toDigits (n := n / 10) (hcs ▸ List.mem_cons_of_mem _ hc')
            exact (digit_plain hd).2.1
          cases hc : digitValue c with
          | none => rw [hc] at hvalue; cases hvalue
          | some d =>
            rw [hc, Option.bind_some] at hvalue
            rw [Option.bind_some, intDigits_append hplain d (by omega), hvalue, Option.map_some]
            congr 1
            omega
  have hlength : ((Nat.toDigits 10 n).filter (· ≠ '_')).length ≤ 4300 :=
    (List.length_filter_le _ _).trans h
  obtain ⟨c, cs, hcs, hvalue⟩ := hread n
  unfold intMagnitude
  rw [if_neg (by omega), hcs]
  exact hvalue

/-- `int(str(n))`, for a number that is not too long. -/
theorem pyInt_toString {n : ℤ} (h : (Nat.toDigits 10 n.natAbs).length ≤ 4300) :
    pyInt (toString n) = some n := by
  rw [pyInt, stripChars_of_no_space (isSpace_toString n)]
  cases n with
  | ofNat m =>
    rw [toList_ofNat]
    have hvalue := intMagnitude_toDigits (n := m) h
    split
    · rename_i cs heq
      obtain ⟨d, hd, hc⟩ := mem_toDigits (n := m) (heq ▸ List.mem_cons_self)
      exact absurd hc.symm (digit_plain hd).2.2.1
    · rename_i cs heq
      obtain ⟨d, hd, hc⟩ := mem_toDigits (n := m) (heq ▸ List.mem_cons_self)
      exact absurd hc.symm (digit_plain hd).2.2.2
    · rw [hvalue]; rfl
  | negSucc m =>
    have hvalue := intMagnitude_toDigits (n := m + 1) h
    rw [toList_negSucc]
    simp only [hvalue]
    rfl

/-- `n` in decimal, padded with zeros to two digits (`%02d` for `n < 100`). -/
def pad2 (n : ℕ) : List Char := [Nat.digitChar (n / 10), Nat.digitChar (n % 10)]

/-- `n` in decimal, padded with zeros to four digits (`%04d` for `n < 10000`). -/
def pad4 (n : ℕ) : List Char := pad2 (n / 100) ++ pad2 (n % 100)

theorem pad4_eq (n : ℕ) :
    pad4 n = [Nat.digitChar (n / 100 / 10), Nat.digitChar (n / 100 % 10),
      Nat.digitChar (n % 100 / 10), Nat.digitChar (n % 100 % 10)] := rfl

/-! ## Substrings -/

/-- `s.endswith(suffix)`. -/
def endsWith (s suffix : String) : Bool := suffix.toList.isSuffixOf s.toList

/-- `s[:n]`. -/
def prefixOf (n : ℕ) (s : String) : String := String.ofList (s.toList.take n)

/-- `s.split(sep)[0]` for a single character `sep`. -/
def beforeFirst (sep : Char) (s : String) : String := String.ofList (s.toList.takeWhile (· ≠ sep))

/-- A text with a separator is what stands before the first one, the separator and a rest. -/
theorem beforeFirst_split {sep : Char} {s : String} (h : sep ∈ s.toList) :
    ∃ rest, s.toList = (beforeFirst sep s).toList ++ sep :: rest := by
  rw [beforeFirst, String.toList_ofList]
  generalize s.toList = cs at h ⊢
  induction cs with
  | nil => cases h
  | cons c cs ih =>
    by_cases hc : c = sep
    · subst hc
      exact ⟨cs, by simp⟩
    · obtain ⟨rest, hrest⟩ := ih ((List.mem_cons.mp h).resolve_left (Ne.symm hc))
      refine ⟨rest, ?_⟩
      rw [List.takeWhile_cons_of_pos (p := (· ≠ sep)) (decide_eq_true hc),
        List.cons_append, ← hrest]

/-- `s.rsplit(sep, 1)[1]` for a text that contains the character `sep`. -/
def afterLast (sep : Char) (s : String) : String :=
  String.ofList (s.toList.reverse.takeWhile (· ≠ sep)).reverse

/-- `s.split()`: the words between blanks. -/
def splitWords (cs : List Char) : List (List Char) := (cs.splitOnP isSpace).filter (· ≠ [])

/-- A text with its last word joined to what stands before it. -/
theorem splitWords_append {w : List Char} (hne : w ≠ []) (hw : ∀ c ∈ w, isSpace c = false)
    (cs : List Char) :
    ∃ ws v, splitWords (cs ++ w) = ws ++ [v ++ w] := by
  have hsplit : ∃ ws v, (cs ++ w).splitOnP isSpace = ws ++ [v ++ w] := by
    induction cs with
    | nil => exact ⟨[], [], List.splitOnP_eq_singleton hw⟩
    | cons c cs ih =>
      obtain ⟨ws, v, ih⟩ := ih
      rw [List.cons_append, List.splitOnP_cons_eq_if_modifyHead, ih]
      split_ifs
      · exact ⟨[] :: ws, v, rfl⟩
      · cases ws with
        | nil => exact ⟨[], c :: v, rfl⟩
        | cons u ws => exact ⟨(c :: u) :: ws, v, rfl⟩
  obtain ⟨ws, v, hsplit⟩ := hsplit
  refine ⟨ws.filter (· ≠ []), v, ?_⟩
  rw [splitWords, hsplit, List.filter_append]
  simp [hne]

/-- `s.lower()` for one character. Letters beyond ASCII stay as they are, but for the
    two that have ASCII letters in lower case. -/
def lowerChar (c : Char) : List Char :=
  if c = '\u212a' then ['k'] else if c = '\u0130' then ['i', '\u0307'] else [c.toLower]

/-- `s.lower()`. -/
def lower (s : String) : String := String.ofList (s.toList.flatMap lowerChar)

theorem lower_append (s t : String) : lower (s ++ t) = lower s ++ lower t := by
  simp [lower, String.toList_append, String.ofList_append]

/-- A suffix of a text decides which shorter texts the text ends with. -/
theorem endsWith_of_suffix {s t u : String} (h : t.toList <:+ s.toList)
    (hlen : u.toList.length ≤ t.toList.length) :
    endsWith s u = endsWith t u := by
  unfold endsWith
  rw [Bool.eq_iff_iff, List.isSuffixOf_iff_suffix, List.isSuffixOf_iff_suffix]
  exact ⟨fun hu => List.suffix_of_suffix_length_le hu h hlen, fun hu => hu.trans h⟩

/-- `s.replace('Z', '+00:00')`. -/
def replaceZulu (s : String) : String :=
  String.ofList (s.toList.flatMap fun c => if c = 'Z' then "+00:00".toList else [c])

/-- A text without a zone letter stays as it is. -/
theorem replaceZulu_kept {cs : List Char} (h : 'Z' ∉ cs) :
    cs.flatMap (fun c => if c = 'Z' then "+00:00".toList else [c]) = cs := by
  induction cs with
  | nil => rfl
  | cons c cs ih =>
    rw [List.mem_cons, not_or] at h
    rw [List.flatMap_cons, ih h.2, if_neg (Ne.symm h.1)]
    rfl

end ProjectEvaluation.Python
