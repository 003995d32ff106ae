import ProjectEvaluation.Sqlite.Like
import ProjectEvaluation.Backend.Routes.Clauses

/-!
# What `LIKE` and `GLOB` of SQLite stand for

A pattern of characters is a list of wildcards and of conditions for one character. Whatever the
bytes of a string and a pattern are, `patternCompare` tells whether their characters fit.

Results:
* `patternCompare_found_iff`: it finds the strings that fit the pattern.
* `likeFunc_texts`: for texts it is the `LIKE` of the clause filters. -/

namespace ProjectEvaluation.Sqlite

open Glob

/-! ## The parts of a pattern -/

/-- A character of the pattern that is no wildcard stands for itself, and for its other case. -/
def sameAs (info : CompareInfo) (c d : ℕ) : Bool :=
  c == d || (info.noCase && sqlite3Tolower c == sqlite3Tolower d && decide (c < 0x80) &&
    decide (d < 0x80))

/-- A character of an interval. -/
def within (c : ℕ) (interval : ℕ × ℕ) : Bool := interval.1 ≤ c && c ≤ interval.2

/-- The intervals of a set up to its `]`, and the characters after it. A `-` between two characters
    makes one interval of them. -/
def intervals (prior : ℕ) : List ℕ → Option (List (ℕ × ℕ) × List ℕ)
  | [] => none
  | [c] => if c = 0x5d then some ([], []) else none
  | c :: d :: p =>
    if c = 0x5d then some ([], d :: p)
    else if c = 0x2d ∧ d ≠ 0x5d ∧ 0 < prior then (intervals 0 p).map fun r =>
      ((prior, d) :: r.1, r.2)
    else (intervals c (d :: p)).map fun r => ((c, c) :: r.1, r.2)

/-- A set: what it stands for, and the characters after it. -/
def charSet (p : List ℕ) : Option ((ℕ → Bool) × List ℕ) :=
  let invert := p.headD 0 == 0x5e
  let p1 := if invert then p.tail else p
  let bracket := p1.headD 0 == 0x5d
  let p2 := if bracket then p1.tail else p1
  (intervals 0 p2).map fun r =>
    (fun c => (bracket && c == 0x5d || r.1.any (within c)) ^^ invert, r.2)

theorem intervals_length {prior : ℕ} {p q : List ℕ} {items : List (ℕ × ℕ)}
    (h : intervals prior p = some (items, q)) :
    q.length ≤ p.length := by
  induction prior, p using intervals.induct generalizing items with
  | case1 prior => cases h
  | case2 prior =>
    rw [intervals, if_pos rfl] at h
    rw [← (Prod.mk.inj (Option.some.inj h)).2]
    exact Nat.zero_le _
  | case3 prior c hclose =>
    rw [intervals, if_neg hclose] at h
    cases h
  | case4 prior d p =>
    rw [intervals, if_pos rfl] at h
    rw [← (Prod.mk.inj (Option.some.inj h)).2]
    exact Nat.le_succ _
  | case5 prior c d p hclose hrange ih =>
    rw [intervals, if_neg hclose, if_pos hrange] at h
    obtain ⟨⟨items', q'⟩, hrest, heq⟩ := Option.map_eq_some_iff.mp h
    obtain rfl : q' = q := (Prod.mk.inj heq).2
    exact (ih hrest).trans ((Nat.le_succ _).trans (Nat.le_succ _))
  | case6 prior c d p hclose hrange ih =>
    rw [intervals, if_neg hclose, if_neg hrange] at h
    obtain ⟨⟨items', q'⟩, hrest, heq⟩ := Option.map_eq_some_iff.mp h
    obtain rfl : q' = q := (Prod.mk.inj heq).2
    exact (ih hrest).trans (Nat.le_succ _)

theorem charSet_length {p q : List ℕ} {test : ℕ → Bool} (h : charSet p = some (test, q)) :
    q.length ≤ p.length := by
  obtain ⟨⟨items, q'⟩, hitems, heq⟩ := Option.map_eq_some_iff.mp h
  obtain rfl : q' = q := (Prod.mk.inj heq).2
  have htail : ∀ l : List ℕ, l.tail.length ≤ l.length := fun l => by simp
  refine (intervals_length hitems).trans ?_
  split_ifs
  · exact (htail _).trans (htail p)
  · exact htail p
  · exact htail p
  · exact le_rfl

/-- The parts of a pattern. Where an escape character or a set has no end, nothing fits. -/
def parts (info : CompareInfo) (other : ℕ) (pattern : List ℕ) : List (Piece ℕ) :=
  match pattern with
  | [] => []
  | c :: p =>
    if c = info.matchAll then .many :: parts info other p
    else if c = other then
      if info.matchSet = 0 then
        match p with
        | [] => [.one fun _ => false]
        | e :: p => .one (sameAs info e) :: parts info other p
      else
        match _hset : charSet p with
        | none => [.one fun _ => false]
        | some (test, p) => .one test :: parts info other p
    else if c = info.matchOne then .one (fun _ => true) :: parts info other p
    else .one (sameAs info c) :: parts info other p
termination_by pattern.length
decreasing_by
  · exact Nat.lt_succ_self _
  · exact (Nat.lt_succ_self _).trans (Nat.lt_succ_self _)
  · exact Nat.lt_succ_of_le (charSet_length _hset)
  · exact Nat.lt_succ_self _
  · exact Nat.lt_succ_self _

section

variable {info : CompareInfo} {other c : ℕ} {p : List ℕ}

theorem parts_nil : parts info other [] = [] := by rw [parts]

theorem parts_many (h : c = info.matchAll) :
    parts info other (c :: p) = .many :: parts info other p := by
  rw [parts.eq_def]
  exact if_pos h

theorem parts_escape {e : ℕ} (h : c ≠ info.matchAll) (hother : c = other)
    (hset : info.matchSet = 0) :
    parts info other (c :: e :: p) = .one (sameAs info e) :: parts info other p := by
  rw [parts, if_neg h, if_pos hother, if_pos hset]

theorem parts_escape_end (h : c ≠ info.matchAll) (hother : c = other) (hset : info.matchSet = 0) :
    parts info other [c] = [.one fun _ => false] := by
  rw [parts, if_neg h, if_pos hother, if_pos hset]

theorem parts_set {test : ℕ → Bool} {q : List ℕ} (h : c ≠ info.matchAll) (hother : c = other)
    (hset : info.matchSet ≠ 0) (hread : charSet p = some (test, q)) :
    parts info other (c :: p) = .one test :: parts info other q := by
  rw [parts.eq_def]
  dsimp only
  rw [if_neg h, if_pos hother, if_neg hset]
  split
  · next hnone => rw [hread] at hnone; cases hnone
  · next hsome =>
    rw [hread] at hsome
    obtain ⟨rfl, rfl⟩ := Prod.mk.inj (Option.some.inj hsome)
    rfl

theorem parts_set_end (h : c ≠ info.matchAll) (hother : c = other) (hset : info.matchSet ≠ 0)
    (hread : charSet p = none) : parts info other (c :: p) = [.one fun _ => false] := by
  rw [parts.eq_def]
  dsimp only
  rw [if_neg h, if_pos hother, if_neg hset]
  split
  · rfl
  · next hsome => rw [hread] at hsome; cases hsome

theorem parts_one (h : c ≠ info.matchAll) (hother : c ≠ other) (hone : c = info.matchOne) :
    parts info other (c :: p) = .one (fun _ => true) :: parts info other p := by
  rw [parts.eq_def]
  dsimp only
  rw [if_neg h, if_neg hother, if_pos hone]

theorem parts_char (h : c ≠ info.matchAll) (hother : c ≠ other) (hone : c ≠ info.matchOne) :
    parts info other (c :: p) = .one (sameAs info c) :: parts info other p := by
  rw [parts.eq_def]
  dsimp only
  rw [if_neg h, if_neg hother, if_neg hone]

/-- A pattern that does not begin with a wildcard for many characters begins with a condition for
    one. -/
theorem parts_condition (h : c ≠ info.matchAll) :
    ∃ test ps, parts info other (c :: p) = .one test :: ps := by
  by_cases hother : c = other
  · by_cases hset : info.matchSet = 0
    · cases p with
      | nil => exact ⟨_, _, parts_escape_end h hother hset⟩
      | cons e p => exact ⟨_, _, parts_escape h hother hset⟩
    · cases hread : charSet p with
      | none => exact ⟨_, _, parts_set_end h hother hset hread⟩
      | some r => exact ⟨_, _, parts_set h hother hset hread⟩
  · by_cases hone : c = info.matchOne
    · exact ⟨_, _, parts_one h hother hone⟩
    · exact ⟨_, _, parts_char h hother hone⟩

end

/-! ## Searches over bytes -/

/-- A character of ASCII is found where its byte is, also between the bytes of other characters. -/
theorem suffix_readContinuation {a : UInt8} {z y : List UInt8} (ha : a.toNat < 0x80) (c : ℕ)
    (h : a :: z <:+ y) :
    a :: z <:+ (readContinuation c y).2 := by
  induction y generalizing c with
  | nil => exact absurd (List.suffix_nil.mp h) (List.cons_ne_nil a z)
  | cons b y ih =>
    rw [readContinuation]
    split_ifs with hb
    · rcases List.suffix_cons_iff.mp h with heq | h
      · rw [← (List.cons.inj heq).1, isContinuation, Bool.and_eq_true, decide_eq_true_eq,
          decide_eq_true_eq] at hb
        omega
      · exact ih _ h
    · exact h

theorem suffix_read {a : UInt8} {z y : List UInt8} (ha : a.toNat < 0x80) (b : UInt8)
    (h : a :: z <:+ y) :
    a :: z <:+ (sqlite3Utf8Read (b :: y)).2 := by
  rw [sqlite3Utf8Read_cons]
  split_ifs
  · exact h
  · exact suffix_readContinuation ha _ h

theorem codes_suffix {a : UInt8} {z : List UInt8} (ha : a.toNat < 0x80) (s : List UInt8)
    (h : a :: z <:+ s) :
    codes (a :: z) <:+ codes s := by
  induction s using codes.induct with
  | case1 => exact absurd (List.suffix_nil.mp h) (List.cons_ne_nil a z)
  | case2 b s ih =>
    rcases List.suffix_cons_iff.mp h with heq | h
    · rw [heq]
    · rw [codes_cons b s]
      exact (ih (suffix_read ha b h)).trans (List.suffix_cons _ _)

theorem exists_suffix {d : ℕ} {t : List ℕ} (hd : d < 0x80) (s : List UInt8)
    (h : d :: t <:+ codes s) :
    ∃ (a : UInt8) (z : List UInt8), a :: z <:+ s ∧ a.toNat = d ∧ codes z = t := by
  induction s using codes.induct with
  | case1 =>
    rw [codes_nil] at h
    exact absurd (List.suffix_nil.mp h) (List.cons_ne_nil d t)
  | case2 b s ih =>
    rw [codes_cons] at h
    rcases List.suffix_cons_iff.mp h with heq | h
    · obtain ⟨rfl, rfl⟩ := List.cons.inj heq
      have hb := sqlite3Utf8Read_ascii hd
      rw [sqlite3Utf8Read_single (by omega)]
      exact ⟨b, s, List.suffix_refl _, rfl, rfl⟩
    · obtain ⟨a, z, hsuffix, ha, ht⟩ := ih h
      exact ⟨a, z, hsuffix.trans ((sqlite3Utf8Read_suffix b s).trans (List.suffix_cons b s)), ha,
        ht⟩

/-- Looking for a character of ASCII is looking for its byte. -/
theorem fits_ascii {test : ℕ → Bool} (htest : ∀ d, test d = true → d < 0x80) (ps : List (Piece ℕ))
    (s : List UInt8) :
    Fits (.many :: .one test :: ps) (codes s) ↔
      ∃ (a : UInt8) (z : List UInt8), a :: z <:+ s ∧ test a.toNat = true ∧ Fits ps (codes z) := by
  constructor
  · rintro ⟨_, hsuffix, d, t, rfl, hd, hfits⟩
    obtain ⟨a, z, hz, rfl, rfl⟩ := exists_suffix (htest d hd) s hsuffix
    exact ⟨a, z, hz, hd, hfits⟩
  · rintro ⟨a, z, hz, ha, hfits⟩
    have hlt := htest _ ha
    refine ⟨codes (a :: z), codes_suffix hlt s hz, ?_⟩
    rw [codes_single (by omega), fits_one]
    exact ⟨ha, hfits⟩

section

variable {test : ℕ → Bool} {ps : List (Piece ℕ)} {compare : List UInt8 → Outcome}
  (hcompare : ∀ u, NulFree u → Tells ps (codes u) (compare u))

include hcompare

theorem tells_searchByte {stop : UInt8 → Bool} (htest : ∀ d, test d = true → d < 0x80)
    (hstop : ∀ b, stop b = test b.toNat) {s : List UInt8} (hs : NulFree s) :
    Tells (.many :: .one test :: ps) (codes s) (searchByte stop compare s) := by
  induction s with
  | nil =>
    rw [codes_nil]
    exact tells_search_nil test ps
  | cons b s ih =>
    have hrest : NulFree s := hs.suffix (List.suffix_cons b s)
    rw [searchByte, hstop]
    split_ifs with hb
    · have hlt := htest _ hb
      rw [codes_single (by omega)]
      exact Tells.search_stop hb (hcompare s hrest) (ih hrest)
    · refine Tells.congr_many ?_ (ih hrest)
      rw [fits_ascii htest, fits_ascii htest]
      constructor
      · rintro ⟨a, z, hz, ha, hfits⟩
        rcases List.suffix_cons_iff.mp hz with heq | hz
        · rw [(List.cons.inj heq).1] at ha
          exact absurd ha hb
        · exact ⟨a, z, hz, ha, hfits⟩
      · rintro ⟨a, z, hz, ha, hfits⟩
        exact ⟨a, z, hz.trans (List.suffix_cons b s), ha, hfits⟩

theorem tells_searchChar {c : ℕ} (htest : ∀ d, test d = true ↔ d = c) {s : List UInt8}
    (hs : NulFree s) :
    Tells (.many :: .one test :: ps) (codes s) (searchChar c compare s) := by
  induction s using codes.induct with
  | case1 =>
    rw [codes_nil, searchChar]
    exact tells_search_nil test ps
  | case2 b s ih =>
    rw [codes_cons, searchChar]
    split_ifs with hc
    · exact Tells.search_skip (fun h => hc ((htest _).mp h)) (ih hs.read)
    · exact Tells.search_stop ((htest _).mpr (not_not.mp hc)) (hcompare _ hs.read) (ih hs.read)

end

theorem tells_searchFrom {test : ℕ → Bool} {ps : List (Piece ℕ)} {compare : List UInt8 → Outcome}
    (hcompare : ∀ u, NulFree u → Tells (.one test :: ps) (codes u) (compare u)) {s : List UInt8}
    (hs : NulFree s) :
    Tells (.many :: .one test :: ps) (codes s) (searchFrom compare s) := by
  induction s using codes.induct with
  | case1 =>
    rw [codes_nil, searchFrom]
    exact tells_search_nil test ps
  | case2 b s ih =>
    have hhere := hcompare (b :: s) hs
    rw [codes_cons] at hhere
    rw [codes_cons, searchFrom]
    exact hhere.search_from (ih hs.read)

/-- The bytes that end a search are those of the two cases of a character. -/
theorem stops_eq (info : CompareInfo) {c : ℕ} (hc : c < 0x80) (b : UInt8) :
    stops info c b = sameAs info c b.toNat := by
  have hb := b.toNat_lt
  rw [Bool.eq_iff_iff]
  unfold stops sameAs sqlite3Toupper sqlite3Tolower
  cases info.noCase
  · rw [if_neg Bool.false_ne_true, Bool.false_and, Bool.false_and, Bool.false_and, Bool.or_false,
      beq_iff_eq, beq_iff_eq]
    exact eq_comm
  · simp only [if_true, true_and, Bool.or_eq_true, Bool.and_eq_true, beq_iff_eq, decide_eq_true_eq]
    split_ifs <;> omega

theorem tells_searchFirst {info : CompareInfo} {c : ℕ} {ps : List (Piece ℕ)}
    {compare : List UInt8 → Outcome}
    (hcompare : ∀ u, NulFree u → Tells ps (codes u) (compare u)) {s : List UInt8} (hs : NulFree s) :
    Tells (.many :: .one (sameAs info c) :: ps) (codes s) (searchFirst info c compare s) := by
  rw [searchFirst]
  split_ifs with hc
  · refine tells_searchByte hcompare (fun d hd => ?_) (stops_eq info hc) hs
    simp only [sameAs, Bool.or_eq_true, Bool.and_eq_true, beq_iff_eq, decide_eq_true_eq] at hd
    omega
  · refine tells_searchChar hcompare (fun d => ?_) hs
    simp only [sameAs, Bool.or_eq_true, Bool.and_eq_true, beq_iff_eq, decide_eq_true_eq]
    omega

/-! ## One character -/

/-- The next character is taken if it is the same, or if the pattern's character stands for any one.
    -/
theorem compareOne_eq {info : CompareInfo} {c : ℕ} (hc : c ≠ 0) (escaped : Bool) (s : List UInt8) :
    compareOne info c escaped s =
      if (sqlite3Utf8Read s).1 ≠ 0 ∧
          (sameAs info c (sqlite3Utf8Read s).1 = true ∨ (c = info.matchOne ∧ escaped = false)) then
        some (sqlite3Utf8Read s).2
      else none := by
  generalize hread : sqlite3Utf8Read s = r
  have hzero : c < 0x80 → sqlite3Tolower c ≠ sqlite3Tolower 0 := by
    intro hlt
    unfold sqlite3Tolower
    split_ifs <;> omega
  unfold compareOne
  simp only [hread, sameAs, Bool.or_eq_true, Bool.and_eq_true, beq_iff_eq, decide_eq_true_eq]
  split_ifs with h1 h2 h3 h4 h5 h6
  · rfl
  · exact absurd ⟨h1 ▸ hc, Or.inl (Or.inl h1)⟩ h2
  · rfl
  · refine absurd ⟨fun h0 => ?_, Or.inl (Or.inr ⟨⟨⟨h3.1, h3.2.1⟩, h3.2.2.1⟩, h3.2.2.2⟩)⟩ h4
    exact hzero h3.2.2.1 (h0 ▸ h3.2.1)
  · rfl
  · exact absurd ⟨h5.2.2, Or.inr ⟨h5.1, h5.2.1⟩⟩ h6
  · rename_i h7
    rcases h7.2 with (h | h) | h
    · exact absurd h h1
    · exact absurd ⟨h.1.1.1, h.1.1.2, h.1.2, h.2⟩ h3
    · exact absurd ⟨h.1, h.2, h7.1⟩ h5
  · rfl

theorem tells_compareOne {info : CompareInfo} {c : ℕ} {escaped : Bool} {test : ℕ → Bool}
    {ps : List (Piece ℕ)}
    {compare : List UInt8 → Outcome} (hc : c ≠ 0)
    (htest : ∀ d, test d = true ↔ sameAs info c d = true ∨ (c = info.matchOne ∧ escaped = false))
    (hcompare : ∀ u, NulFree u → Tells ps (codes u) (compare u)) {s : List UInt8} (hs : NulFree s) :
    Tells (.one test :: ps) (codes s)
      (match compareOne info c escaped s with
        | none => .missed
        | some s => compare s) := by
  rw [compareOne_eq hc]
  cases s with
  | nil =>
    rw [codes_nil, if_neg fun h => h.1 rfl]
    exact not_fits_one_nil
  | cons b s =>
    rw [codes_cons]
    by_cases hd : test (sqlite3Utf8Read (b :: s)).1 = true
    · rw [if_pos ⟨hs.code_ne_zero, (htest _).mp hd⟩]
      exact (hcompare _ hs.read).one hd
    · rw [if_neg fun h => hd ((htest _).mpr h.2)]
      exact fun hfits => hd (fits_one.mp hfits).1

/-! ## Sets -/

theorem intervals_close (prior : ℕ) (p : List ℕ) : intervals prior (0x5d :: p) = some ([], p) := by
  cases p with
  | nil => rw [intervals, if_pos rfl]
  | cons d p => rw [intervals, if_pos rfl]

theorem intervals_char {prior c : ℕ} {p : List ℕ} (hclose : c ≠ 0x5d)
    (hrange : ¬(c = 0x2d ∧ p.headD 0x5d ≠ 0x5d ∧ 0 < prior)) :
    intervals prior (c :: p) = (intervals c p).map fun r => ((c, c) :: r.1, r.2) := by
  cases p with
  | nil => simp only [intervals, if_neg hclose, Option.map_none]
  | cons d p =>
    have hrange : ¬(c = 0x2d ∧ d ≠ 0x5d ∧ 0 < prior) := hrange
    rw [intervals, if_neg hclose, if_neg hrange]

theorem intervals_range {prior d : ℕ} {p : List ℕ} (hd : d ≠ 0x5d) (hprior : 0 < prior) :
    intervals prior (0x2d :: d :: p) = (intervals 0 p).map fun r => ((prior, d) :: r.1, r.2) := by
  rw [intervals, if_neg (by decide), if_pos ⟨rfl, hd, hprior⟩]

/-- The next byte is `]` iff the next character is. -/
theorem headD_close (p : List UInt8) :
    (p.head? ≠ some 0x5d ∧ p ≠ []) ↔ (codes p).headD 0x5d ≠ 0x5d := by
  cases p with
  | nil =>
    rw [codes_nil]
    exact iff_of_false (fun h => h.2 rfl) (fun h => h rfl)
  | cons b z =>
    rw [codes_cons, List.headD_cons, List.head?_cons, and_iff_left (List.cons_ne_nil b z),
      not_iff_not]
    constructor
    · intro h
      obtain rfl := Option.some.inj h
      rw [sqlite3Utf8Read_single (by decide)]
      rfl
    · intro h
      have hb := sqlite3Utf8Read_ascii (b := b) (z := z) (by omega)
      rw [sqlite3Utf8Read_single (by omega)] at h
      have heq : b = 0x5d := UInt8.toNat_inj.mp h
      rw [heq]

/-- **Scanning a set** collects its intervals. -/
theorem scanSet_eq (c : ℕ) {seen : Bool} {prior : ℕ} {z : List UInt8} (hz : NulFree z) :
    (scanSet c seen prior z = none ∧ intervals prior (codes z) = none) ∨
      ∃ items p, scanSet c seen prior z = some (seen || items.any (within c), p) ∧
        intervals prior (codes z) = some (items, codes p) ∧ NulFree p := by
  induction seen, prior, z using scanSet.induct c with
  | case1 seen prior =>
    left
    rw [scanSet, codes_nil, intervals]
    exact ⟨rfl, rfl⟩
  | case2 seen prior b z c2 hclose =>
    right
    refine ⟨[], (sqlite3Utf8Read (b :: z)).2, ?_, ?_, hz.read⟩
    · rw [scanSet, if_pos hclose, List.any_nil, Bool.or_false]
    · rw [codes_cons, show (sqlite3Utf8Read (b :: z)).1 = 0x5d from hclose, intervals_close]
  | case3 seen prior b z c2 p hclose hrange ih =>
    obtain ⟨hdash, hhead, hne, hprior⟩ := hrange
    have hd := (headD_close p).mp ⟨hhead, hne⟩
    have hcodes : codes (b :: z) =
        0x2d :: (sqlite3Utf8Read p).1 :: codes (sqlite3Utf8Read p).2 := by
      rw [codes_cons, show (sqlite3Utf8Read (b :: z)).1 = 0x2d from hdash]
      obtain ⟨b', z', hp⟩ := List.exists_cons_of_ne_nil hne
      rw [show (sqlite3Utf8Read (b :: z)).2 = b' :: z' from hp, hp, codes_cons]
    obtain ⟨b', z', hp⟩ := List.exists_cons_of_ne_nil hne
    rw [hp, codes_cons, List.headD_cons, ← hp] at hd
    rw [scanSet, if_neg hclose, if_pos ⟨hdash, hhead, hne, hprior⟩, hcodes,
      intervals_range hd hprior]
    rcases ih (NulFree.rest hz.read) with ⟨hscan, hitems⟩ | ⟨items, q, hscan, hitems, hq⟩
    · left
      rw [hscan, hitems]
      exact ⟨rfl, rfl⟩
    · right
      refine ⟨(prior, (sqlite3Utf8Read p).1) :: items, q, ?_, ?_, hq⟩
      · rw [hscan, List.any_cons, Bool.or_assoc, within]
      · rw [hitems, Option.map_some]
  | case4 seen prior b z c2 p hclose hrange ih =>
    have hrange' : ¬(c2 = 0x2d ∧ (codes p).headD 0x5d ≠ 0x5d ∧ 0 < prior) := by
      rintro ⟨hdash, hd, hprior⟩
      obtain ⟨hhead, hne⟩ := (headD_close p).mpr hd
      exact hrange ⟨hdash, hhead, hne, hprior⟩
    rw [scanSet, if_neg hclose, if_neg hrange, codes_cons, intervals_char hclose hrange']
    rcases ih hz.read with ⟨hscan, hitems⟩ | ⟨items, q, hscan, hitems, hq⟩
    · left
      rw [hscan, hitems]
      exact ⟨rfl, rfl⟩
    · right
      have hwithin : within c (c2, c2) = (c == c2) := by
        rw [Bool.eq_iff_iff, within, Bool.and_eq_true, decide_eq_true_eq,
          decide_eq_true_eq, beq_iff_eq]
        omega
      refine ⟨(c2, c2) :: items, q, ?_, ?_, hq⟩
      · rw [hscan, List.any_cons, Bool.or_assoc, hwithin]
      · rw [hitems, Option.map_some]

theorem compareSet_eq (c : ℕ) {z : List UInt8} (hz : NulFree z) :
    (compareSet c z = none ∧ charSet (codes z) = none) ∨
      ∃ test p, compareSet c z = some (test c, p) ∧ charSet (codes z) = some (test, codes p) ∧
        NulFree p := by
  have hskip : ∀ (skipped : Bool) (y : List UInt8),
      codes (if skipped then (sqlite3Utf8Read y).2 else y) = if skipped then (codes y).tail
      else codes y := by
    intro skipped y
    split_ifs
    · exact codes_tail y
    · rfl
  have hrest : ∀ (skipped : Bool) (y : List UInt8), NulFree y →
      NulFree (if skipped then (sqlite3Utf8Read y).2 else y) := by
    intro skipped y hy
    split_ifs
    · exact hy.rest
    · exact hy
  unfold compareSet charSet
  simp only [← hskip, codes_headD]
  rcases scanSet_eq c (hrest _ _ (hrest _ _ hz)) with ⟨hscan, hitems⟩ |
    ⟨items, q, hscan, hitems, hq⟩
  · left
    rw [hscan, hitems]
    exact ⟨rfl, rfl⟩
  · right
    rw [hscan, hitems]
    exact ⟨_, q, rfl, rfl, hq⟩

/-! ## Runs of wildcards -/

/-- The wildcards, the escape character and the `[` of a comparison are different characters. -/
structure CompareInfo.Distinct (info : CompareInfo) (other : ℕ) : Prop where
  one_ne_all : info.matchOne ≠ 0 → info.matchOne ≠ info.matchAll
  one_ne_other : info.matchOne ≠ 0 → info.matchOne ≠ other

/-- What is left of a pattern `z` and a string `s` behind a run of wildcards. -/
structure Skipped (info : CompareInfo) (other : ℕ) (z s q t : List UInt8) : Prop where
  fits_iff : Fits (.many :: parts info other (codes z)) (codes s) ↔
    Fits (.many :: parts info other (codes q)) (codes t)
  pattern : NulFree q
  text : NulFree t
  next : ∀ c ∈ (codes q).head?, c ≠ info.matchAll ∧ c ≠ info.matchOne

theorem skipWildcards_cases {info : CompareInfo} {other : ℕ} (hinfo : info.Distinct other)
    {z s : List UInt8}
    (hz : NulFree z) (hs : NulFree s) :
    (skipWildcards info z s = none ∧ ¬ Fits (.many :: parts info other (codes z)) (codes s)) ∨
      ∃ q t, skipWildcards info z s = some (q, t) ∧ Skipped info other z s q t := by
  have hparts : ∀ {c : ℕ} (p : List ℕ), c ≠ 0 → c = info.matchOne →
      parts info other (c :: p) = .one (fun _ => true) :: parts info other p := by
    rintro c p hc rfl
    exact parts_one (hinfo.one_ne_all hc) (hinfo.one_ne_other hc) rfl
  induction z, s using skipWildcards.induct info with
  | case1 s =>
    right
    refine ⟨[], s, by rw [skipWildcards], Iff.rfl, hz, hs, fun c hc => ?_⟩
    rw [codes_nil] at hc
    cases hc
  | case2 b z s hwild hone hend =>
    left
    refine ⟨by rw [skipWildcards, if_pos hwild, if_pos hone, if_pos hend], ?_⟩
    have hnil : s = [] := by
      by_contra hne
      exact hs.read_ne_zero.mpr hne hend
    rw [hnil, codes_nil, codes_cons, hparts _ hz.code_ne_zero hone, fits_many_nil]
    exact not_fits_one_nil
  | case3 b z s hwild hone hend ih =>
    obtain ⟨b', s, rfl⟩ := List.exists_cons_of_ne_nil (hs.read_ne_zero.mp hend)
    rw [skipWildcards, if_pos hwild, if_pos hone, if_neg hend, codes_cons b z, codes_cons b' s,
      hparts _ hz.code_ne_zero hone, fits_many_any]
    rcases ih hz.read hs.read with hnone | ⟨q, t, hsome, hskipped⟩
    · exact Or.inl hnone
    · refine Or.inr ⟨q, t, hsome, ?_, hskipped.pattern, hskipped.text, hskipped.next⟩
      rw [codes_cons b z, codes_cons b' s, hparts _ hz.code_ne_zero hone, fits_many_any]
      exact hskipped.fits_iff
  | case4 b z s hwild hone ih =>
    have hall := hwild.resolve_right fun h => hone h.1
    rw [skipWildcards, if_pos hwild, if_neg hone, codes_cons, parts_many hall, fits_many_many]
    rcases ih hz.read hs with hnone | ⟨q, t, hsome, hskipped⟩
    · exact Or.inl hnone
    · refine Or.inr ⟨q, t, hsome, ?_, hskipped.pattern, hskipped.text, hskipped.next⟩
      rw [codes_cons, parts_many hall, fits_many_many]
      exact hskipped.fits_iff
  | case5 b z s hwild =>
    right
    refine ⟨b :: z, s, by rw [skipWildcards, if_neg hwild], Iff.rfl, hz, hs, fun c hc => ?_⟩
    rw [codes_cons] at hc
    obtain rfl := Option.some.inj hc
    exact ⟨fun h => hwild (Or.inl h), fun h => hwild (Or.inr ⟨h, h ▸ hz.code_ne_zero⟩)⟩

/-! ## The comparison -/

/-- A pattern that ends too early fits nothing. -/
theorem not_fits_false {ps : List (Piece ℕ)} {s : List ℕ} :
    ¬ Fits (.one (fun _ => false) :: ps) s := by
  rintro ⟨c, t, -, h, -⟩
  cases h

section

variable {info : CompareInfo} {other : ℕ} {b : UInt8} {z s : List UInt8}

/-- The search for what follows a run of wildcards. -/
theorem tells_follow (hz : NulFree (b :: z)) (hs : NulFree s)
    (hall : (sqlite3Utf8Read (b :: z)).1 ≠ info.matchAll)
    (hone : (sqlite3Utf8Read (b :: z)).1 ≠ info.matchOne)
    (hcompare : ∀ y, y.length ≤ (b :: z).length → NulFree y → ∀ u, NulFree u →
      Tells (parts info other (codes y)) (codes u) (patternCompare info other y u)) :
    Tells (.many :: parts info other (codes (b :: z))) (codes s)
      (if (sqlite3Utf8Read (b :: z)).1 = other then
        if info.matchSet = 0 then
          if (sqlite3Utf8Read (sqlite3Utf8Read (b :: z)).2).1 = 0 then .missedAll
          else
            searchFirst info (sqlite3Utf8Read (sqlite3Utf8Read (b :: z)).2).1
              (fun s => patternCompare info other
                (sqlite3Utf8Read (sqlite3Utf8Read (b :: z)).2).2 s) s
        else searchFrom (fun s => patternCompare info other (b :: z) s) s
      else
        searchFirst info (sqlite3Utf8Read (b :: z)).1
          (fun s => patternCompare info other (sqlite3Utf8Read (b :: z)).2 s) s) := by
  have hle := (sqlite3Utf8Read_length b z).le
  by_cases hother : (sqlite3Utf8Read (b :: z)).1 = other
  · rw [if_pos hother]
    by_cases hset : info.matchSet = 0
    · rw [if_pos hset, codes_cons]
      have hfree := hz.read
      rcases hp : (sqlite3Utf8Read (b :: z)).2 with - | ⟨b', z'⟩
      · rw [if_pos sqlite3Utf8Read_end, codes_nil, parts_escape_end hall hother hset]
        exact tells_many_missedAll.mpr fun ⟨u, _, hfits⟩ => not_fits_false hfits
      · rw [hp] at hfree hle
        rw [if_neg hfree.code_ne_zero, codes_cons, parts_escape hall hother hset]
        exact tells_searchFirst
          (hcompare _ ((sqlite3Utf8Read_length b' z').le.trans hle) hfree.read) hs
    · rw [if_neg hset]
      have hhere := hcompare (b :: z) le_rfl hz
      obtain ⟨test, ps, hparts⟩ := @parts_condition info other _
        (codes (sqlite3Utf8Read (b :: z)).2) hall
      rw [codes_cons, hparts] at hhere ⊢
      exact tells_searchFrom hhere hs
  · rw [if_neg hother, codes_cons, parts_char hall hother hone]
    exact tells_searchFirst (hcompare _ hle hz.read) hs

variable (hinfo : info.Distinct other) (hz : NulFree (b :: z)) (hs : NulFree s)
  (hcompare : ∀ y, y.length < (b :: z).length → NulFree y → ∀ u, NulFree u →
    Tells (parts info other (codes y)) (codes u) (patternCompare info other y u))

include hz hs hcompare

include hinfo in
theorem tells_many (hall : (sqlite3Utf8Read (b :: z)).1 = info.matchAll) :
    Tells (parts info other (codes (b :: z))) (codes s) (patternCompare info other (b :: z) s) := by
  rw [patternCompare.eq_def, codes_cons, parts_many hall]
  dsimp only
  rw [if_pos hall]
  rcases skipWildcards_cases hinfo hz.read hs with ⟨hnone, hmiss⟩ | ⟨q, t, hsome, hskipped⟩
  · split
    · exact tells_many_missedAll.mpr hmiss
    · next h => rw [hnone] at h; cases h
    · next h => rw [hnone] at h; cases h
  · refine Tells.congr_many hskipped.fits_iff ?_
    split
    · next h => rw [hsome] at h; cases h
    · next h =>
      rw [hsome] at h
      obtain ⟨rfl, rfl⟩ := Prod.mk.inj (Option.some.inj h)
      rw [codes_nil, parts_nil]
      exact fits_many_last _
    · next b' z' t' h =>
      rw [hsome] at h
      obtain ⟨rfl, rfl⟩ := Prod.mk.inj (Option.some.inj h)
      obtain ⟨hall', hone'⟩ :=
        hskipped.next (sqlite3Utf8Read (b' :: z')).1 (by rw [codes_cons]; rfl)
      exact tells_follow hskipped.pattern hskipped.text hall' hone' fun y hy =>
        hcompare y (hy.trans_lt (skipWildcards_lt hsome))

theorem tells_escape (hall : (sqlite3Utf8Read (b :: z)).1 ≠ info.matchAll)
    (hother : (sqlite3Utf8Read (b :: z)).1 = other) (hset : info.matchSet = 0) :
    Tells (parts info other (codes (b :: z))) (codes s) (patternCompare info other (b :: z) s) := by
  rw [patternCompare.eq_def, codes_cons]
  dsimp only
  rw [if_neg hall, if_pos hother, if_pos hset]
  have hfree := hz.read
  have hlt := sqlite3Utf8Read_length b z
  rcases hp : (sqlite3Utf8Read (b :: z)).2 with - | ⟨b', z'⟩
  · rw [if_pos sqlite3Utf8Read_end, codes_nil, parts_escape_end hall hother hset]
    exact not_fits_false
  · rw [hp] at hfree hlt
    rw [if_neg hfree.code_ne_zero, codes_cons, parts_escape hall hother hset]
    refine tells_compareOne hfree.code_ne_zero (fun d => ?_)
      (hcompare _ ((sqlite3Utf8Read_length b' z').trans hlt) hfree.read) hs
    rw [or_iff_left fun h => Bool.noConfusion h.2]

theorem tells_set (hall : (sqlite3Utf8Read (b :: z)).1 ≠ info.matchAll)
    (hother : (sqlite3Utf8Read (b :: z)).1 = other) (hset : info.matchSet ≠ 0) :
    Tells (parts info other (codes (b :: z))) (codes s) (patternCompare info other (b :: z) s) := by
  rw [patternCompare.eq_def, codes_cons]
  dsimp only
  rw [if_neg hall, if_pos hother, if_neg hset]
  cases s with
  | nil =>
    obtain ⟨test, ps, hparts⟩ := @parts_condition info other _
      (codes (sqlite3Utf8Read (b :: z)).2) hall
    rw [if_pos sqlite3Utf8Read_end, codes_nil, hparts]
    exact not_fits_one_nil
  | cons b' s =>
    rw [if_neg hs.code_ne_zero, codes_cons b' s]
    rcases compareSet_eq (sqlite3Utf8Read (b' :: s)).1 hz.read with ⟨hnone, hend⟩ |
      ⟨test, q, hsome, hread, hq⟩
    · rw [parts_set_end hall hother hset hend]
      split
      · exact not_fits_false
      · next h => rw [hnone] at h; cases h
    · rw [parts_set hall hother hset hread]
      split
      · next h => rw [hsome] at h; cases h
      · next h =>
        rw [hsome] at h
        obtain ⟨rfl, rfl⟩ := Prod.mk.inj (Option.some.inj h)
        split_ifs with htest
        · have hlt := (compareSet_length hsome).trans_lt (sqlite3Utf8Read_length b z)
          exact (hcompare _ hlt hq _ hs.read).one htest
        · exact fun hfits => htest (fits_one.mp hfits).1

theorem tells_char (hall : (sqlite3Utf8Read (b :: z)).1 ≠ info.matchAll)
    (hother : (sqlite3Utf8Read (b :: z)).1 ≠ other) :
    Tells (parts info other (codes (b :: z))) (codes s) (patternCompare info other (b :: z) s) := by
  rw [patternCompare.eq_def, codes_cons]
  dsimp only
  rw [if_neg hall, if_neg hother]
  have hrest := hcompare _ (sqlite3Utf8Read_length b z) hz.read
  by_cases hone : (sqlite3Utf8Read (b :: z)).1 = info.matchOne
  · rw [parts_one hall hother hone]
    exact tells_compareOne hz.code_ne_zero (fun d => iff_of_true rfl (Or.inr ⟨hone, rfl⟩)) hrest hs
  · rw [parts_char hall hother hone]
    refine tells_compareOne hz.code_ne_zero (fun d => ?_) hrest hs
    rw [or_iff_left fun h => hone h.1]

end

/-- **The comparison** tells whether the characters of a string fit the pattern, by induction on the
    length of the pattern. -/
theorem tells_patternCompare {info : CompareInfo} {other : ℕ} (hinfo : info.Distinct other)
    {z s : List UInt8}
    (hz : NulFree z) (hs : NulFree s) :
    Tells (parts info other (codes z)) (codes s) (patternCompare info other z s) := by
  induction hn : z.length using Nat.strong_induction_on generalizing z s with
  | h n ih =>
    subst hn
    cases z with
    | nil =>
      rw [codes_nil, parts_nil, patternCompare]
      cases s with
      | nil => exact fits_nil.mpr codes_nil
      | cons b s =>
        rw [codes_cons]
        exact fun h => List.cons_ne_nil _ _ (fits_nil.mp h)
    | cons b z =>
      have hcompare : ∀ y : List UInt8, y.length < (b :: z).length → NulFree y → ∀ u, NulFree u →
          Tells (parts info other (codes y)) (codes u) (patternCompare info other y u) :=
        fun y hlt hy u hu => ih y.length hlt hy hu rfl
      by_cases hall : (sqlite3Utf8Read (b :: z)).1 = info.matchAll
      · exact tells_many hinfo hz hs hcompare hall
      · by_cases hother : (sqlite3Utf8Read (b :: z)).1 = other
        · by_cases hset : info.matchSet = 0
          · exact tells_escape hz hs hcompare hall hother hset
          · exact tells_set hz hs hcompare hall hother hset
        · exact tells_char hz hs hcompare hall hother

theorem distinct_like {info : CompareInfo}
    (h : info = likeInfoNorm ∨ info = likeInfoAlt ∨ info = globInfo) :
    info.Distinct info.matchSet := by
  rcases h with rfl | rfl | rfl <;> exact ⟨by decide, by decide⟩

/-- **What a comparison finds**, of any bytes: the strings whose characters fit the pattern. -/
theorem patternCompare_found_iff {info : CompareInfo} {other : ℕ} (hinfo : info.Distinct other)
    {z s : List UInt8}
    (hz : NulFree z) (hs : NulFree s) :
    patternCompare info other z s = .found ↔ Fits (parts info other (codes z)) (codes s) :=
  (tells_patternCompare hinfo hz hs).found_iff

/-- `'bA' LIKE '%a'`. -/
theorem patternCompare_found_suffix : patternCompare likeInfoNorm 0 [0x25, 0x61]
    [0x62, 0x41] = .found := by
  have hfree : ∀ a b : UInt8, a ≠ 0 → b ≠ 0 → NulFree [a, b] := by
    intro a b ha hb
    simp [NulFree, ha, hb]
  refine (patternCompare_found_iff (distinct_like (Or.inl rfl)) (hfree _ _ (by decide) (by decide))
    (hfree _ _ (by decide) (by decide))).mpr ?_
  have hcodes : ∀ a b : UInt8, a.toNat < 0xc0 → b.toNat < 0xc0 →
      codes [a, b] = [a.toNat, b.toNat] := by
    intro a b ha hb
    rw [codes_single ha, codes_single hb, codes_nil]
  rw [hcodes _ _ (by decide) (by decide), hcodes _ _ (by decide) (by decide),
    parts_many (by decide), parts_char (by decide) (by decide) (by decide), parts_nil]
  exact ⟨[0x41], List.suffix_cons _ _, 0x41, [], rfl, by decide, rfl⟩

/-! ## `LIKE` of texts -/

theorem cString_utf8 (text : List Char) :
    cString (utf8 text) = utf8 (text.takeWhile fun c => c.toNat ≠ 0) := by
  induction text with
  | nil => rfl
  | cons c text ih =>
    have hcons : ∀ rest, utf8 (c :: rest) = String.utf8EncodeChar c ++ utf8 rest :=
      fun _ => List.flatMap_cons
    by_cases hc : c.toNat = 0
    · have hnul : c = Char.ofNat 0 := by rw [← hc, Char.ofNat_toNat]
      rw [List.takeWhile_cons_of_neg (by simpa using hc), hcons, hnul]
      rfl
    · have hfree : NulFree (String.utf8EncodeChar c) := by
        have h := @nulFree_utf8 [c] fun d hd => by rwa [List.mem_singleton.mp hd]
        rwa [utf8, List.flatMap_singleton] at h
      rw [List.takeWhile_cons_of_pos (by simpa using hc), hcons, hcons, ← ih, cString,
        List.takeWhile_append_of_pos fun b hb => by simpa using hfree b hb]
      rfl

theorem codes_heard (text : List Char) :
    codes (cString (utf8 text)) = (heard text).map Char.toNat := by
  rw [cString_utf8, codes_utf8, heard, List.map_map]
  refine List.map_congr_left fun c _ => ?_
  rw [Function.comp_apply, readAs]
  split_ifs
  · rfl
  · rfl

theorem toNat_toLower (c : Char) :
    c.toLower.toNat = if 0x41 ≤ c.toNat ∧ c.toNat ≤ 0x5a then c.toNat + 0x20 else c.toNat := by
  have hiff : (c.val ≥ 'A'.val ∧ c.val ≤ 'Z'.val) ↔ (0x41 ≤ c.toNat ∧ c.toNat ≤ 0x5a) := Iff.rfl
  unfold Char.toLower
  split_ifs with h h' h'
  · have hsum : (c.val + ('a'.val - 'A'.val)).toNat = (c.toNat + 0x20) % 2 ^ 32 :=
      UInt32.toNat_add _ _
    exact hsum.trans (Nat.mod_eq_of_lt (by omega))
  · exact absurd (hiff.mp h) h'
  · exact absurd (hiff.mpr h') h
  · rfl

theorem sameAs_toNat (c d : Char) :
    sameAs likeInfoNorm c.toNat d.toNat = Backend.sameLetter c d := by
  have hinj : c.toLower = d.toLower ↔ c.toLower.toNat = d.toLower.toNat :=
    ⟨fun h => h ▸ rfl, fun h => Char.toNat_inj.mp h⟩
  rw [Bool.eq_iff_iff, Backend.sameLetter, beq_iff_eq, hinj, toNat_toLower, toNat_toLower, sameAs,
    likeInfoNorm]
  unfold sqlite3Tolower
  simp only [Bool.true_and, Bool.or_eq_true, Bool.and_eq_true, beq_iff_eq, decide_eq_true_eq]
  split_ifs <;> omega

/-- The parts of a pattern of `LIKE` are its wildcards and letters. -/
theorem parts_like {pattern : List Char} (h : ∀ c ∈ pattern, c.toNat ≠ 0) :
    (parts likeInfoNorm likeInfoNorm.matchSet (pattern.map Char.toNat)).map
      (Piece.comap Char.toNat) =
      (pattern.map Backend.sqlItem).map (ofItem Backend.sameLetter) := by
  induction pattern with
  | nil => rw [List.map_nil, parts_nil]; rfl
  | cons c pattern ih =>
    have hother : c.toNat ≠ likeInfoNorm.matchSet := h c List.mem_cons_self
    have hrest := ih fun d hd => h d (List.mem_cons_of_mem c hd)
    have hchar : ∀ {d : Char}, c = d ↔ c.toNat = d.toNat :=
      ⟨fun h => h ▸ rfl, fun h => Char.toNat_inj.mp h⟩
    rw [List.map_cons, List.map_cons, List.map_cons, ← hrest, Backend.sqlItem]
    split_ifs with hmany hone
    · rw [parts_many (hchar.mp hmany)]
      rfl
    · rw [parts_one (fun h => hmany (hchar.mpr h)) hother (hchar.mp hone)]
      rfl
    · rw [parts_char (fun h => hmany (hchar.mpr h)) hother (fun h => hone (hchar.mpr h)),
        List.map_cons, Piece.comap]
      simp only [sameAs_toNat]
      rfl

/-- **`LIKE` of texts** is the `LIKE` of the clause filters, and an error for long patterns. -/
theorem likeFunc_texts (pattern text : List Char) :
    likeFunc likeInfoNorm (some (utf8 pattern)) (some (utf8 text)) none =
      if 50000 < (utf8 pattern).length then .error "LIKE or GLOB pattern too complex"
      else .ok (some (Backend.sqlLike (String.ofList pattern) (String.ofList text))) := by
  have hfound :=
    patternCompare_found_iff (distinct_like (Or.inl rfl)) (nulFree_cString (utf8 pattern))
    (nulFree_cString (utf8 text))
  rw [codes_heard, codes_heard, fits_map, parts_like (heard_ne_zero pattern), fits_ofItem,
    ← Wildcard.matchesPattern_iff] at hfound
  rw [likeFunc]
  refine if_congr Iff.rfl rfl ?_
  rw [likeResult, Option.bind_some, Option.map_some, Backend.sqlLike, String.toList_ofList,
    String.toList_ofList]
  congr 2
  rw [Bool.eq_iff_iff, beq_iff_eq, hfound]

end ProjectEvaluation.Sqlite
