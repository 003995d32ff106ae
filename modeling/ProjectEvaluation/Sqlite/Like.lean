import Mathlib.Data.List.TakeWhile
import ProjectEvaluation.Sqlite.Utf8
import ProjectEvaluation.Lib.Glob

/-!
# `func.c`: `LIKE` and `GLOB`

`patternCompare` compares a string with a pattern, both as bytes. It skips the wildcards of a run at
once, looks for the first character after them byte by byte where that character is of ASCII, and
stops a search that cannot succeed any more. -/

namespace ProjectEvaluation.Sqlite

open Glob

/-! ## Letters -/

/-- `sqlite3Tolower`, with the table `sqlite3UpperToLower` (`global.c`, lines 24–85). -/
def sqlite3Tolower (x : ℕ) : ℕ :=
  if 0x41 ≤ x % 256 ∧ x % 256 ≤ 0x5a then x % 256 + 0x20 else x % 256

/-- `sqlite3Toupper` (`sqliteInt.h`, line 4694); `sqlite3CtypeMap` has the bit 0x20 for the small
    letters. -/
def sqlite3Toupper (x : ℕ) : ℕ := if 0x61 ≤ x % 256 ∧ x % 256 ≤ 0x7a then x - 0x20 else x

/-- `struct compareInfo` (`func.c`, lines 655–660). -/
structure CompareInfo where
  matchAll : ℕ
  matchOne : ℕ
  matchSet : ℕ
  noCase : Bool

/-- `globInfo` (`func.c`, line 675): `*`, `?`, `[`. -/
def globInfo : CompareInfo := ⟨0x2a, 0x3f, 0x5b, false⟩

/-- `likeInfoNorm` (`func.c`, line 678): `%`, `_`. -/
def likeInfoNorm : CompareInfo := ⟨0x25, 0x5f, 0, true⟩

/-- `likeInfoAlt` (`func.c`, line 681). -/
def likeInfoAlt : CompareInfo := ⟨0x25, 0x5f, 0, false⟩

/-! ## The loops of `patternCompare` -/

/-- `while( (c=Utf8Read(zPattern)) == matchAll || (c == matchOne && matchOne!=0) )` (`func.c`, lines
    745–750): the pattern from its next other character on and the rest of the string, or nothing
    where the string is too short. -/
def skipWildcards (info : CompareInfo) : List UInt8 → List UInt8 → Option (List UInt8 × List UInt8)
  | [], s => some ([], s)
  | b :: z, s =>
    if (sqlite3Utf8Read (b :: z)).1 = info.matchAll ∨
        ((sqlite3Utf8Read (b :: z)).1 = info.matchOne ∧ info.matchOne ≠ 0) then
      if (sqlite3Utf8Read (b :: z)).1 = info.matchOne then
        if (sqlite3Utf8Read s).1 = 0 then none
        else skipWildcards info (sqlite3Utf8Read (b :: z)).2 (sqlite3Utf8Read s).2
      else skipWildcards info (sqlite3Utf8Read (b :: z)).2 s
    else some (b :: z, s)
termination_by z => z.length
decreasing_by all_goals exact sqlite3Utf8Read_length b z

/-- `zStop` (`func.c`, lines 780–789): the bytes that begin with `c`. -/
def stops (info : CompareInfo) (c : ℕ) (b : UInt8) : Bool :=
  if info.noCase then b.toNat == sqlite3Toupper c || b.toNat == sqlite3Tolower c else b.toNat == c

/-- `zString += strcspn((const char*)zString, zStop)` and what follows, for each byte of `zStop`
    (`func.c`, lines 790–796). -/
def searchByte (stop : UInt8 → Bool) (compare : List UInt8 → Outcome) : List UInt8 → Outcome
  | [] => .missedAll
  | b :: s =>
    if stop b then (compare s).orElse (searchByte stop compare s) else searchByte stop compare s

/-- `while( (c2 = Utf8Read(zString))!=0 )` for a character beyond ASCII (`func.c`, lines 798–803).
    -/
def searchChar (c : ℕ) (compare : List UInt8 → Outcome) : List UInt8 → Outcome
  | [] => .missedAll
  | b :: s =>
    if (sqlite3Utf8Read (b :: s)).1 ≠ c then searchChar c compare (sqlite3Utf8Read (b :: s)).2
    else (compare (sqlite3Utf8Read (b :: s)).2).orElse
      (searchChar c compare (sqlite3Utf8Read (b :: s)).2)
termination_by s => s.length
decreasing_by all_goals exact sqlite3Utf8Read_length b s

/-- `while( *zString )` with `SQLITE_SKIP_UTF8` (`func.c`, lines 761–766). -/
def searchFrom (compare : List UInt8 → Outcome) : List UInt8 → Outcome
  | [] => .missedAll
  | b :: s => (compare (b :: s)).orElse (searchFrom compare (sqlite3Utf8Read (b :: s)).2)
termination_by s => s.length
decreasing_by exact sqlite3Utf8Read_length b s

/-- The search for the first character after the wildcards (`func.c`, lines 779–805). -/
def searchFirst (info : CompareInfo) (c : ℕ) (compare : List UInt8 → Outcome)
    (s : List UInt8) : Outcome :=
  if c < 0x80 then searchByte (stops info c) compare s else searchChar c compare s

/-- A character of the pattern and the next one of the string (`func.c`, lines 846–852): what is
    left of the string. -/
def compareOne (info : CompareInfo) (c : ℕ) (escaped : Bool) (s : List UInt8) :
    Option (List UInt8) :=
  let c2 := (sqlite3Utf8Read s).1
  if c = c2 then some (sqlite3Utf8Read s).2
  else if info.noCase ∧ sqlite3Tolower c = sqlite3Tolower c2 ∧ c < 0x80 ∧ c2 < 0x80
    then some (sqlite3Utf8Read s).2
  else if c = info.matchOne ∧ escaped = false ∧ c2 ≠ 0 then some (sqlite3Utf8Read s).2
  else none

/-- `while( c2 && c2!=']' )` (`func.c`, lines 827–839): is `c` in the set, and the pattern after it.
    -/
def scanSet (c : ℕ) (seen : Bool) (prior : ℕ) : List UInt8 → Option (Bool × List UInt8)
  | [] => none
  | b :: z =>
    let c2 := (sqlite3Utf8Read (b :: z)).1
    let p := (sqlite3Utf8Read (b :: z)).2
    if c2 = 0x5d then some (seen, p)
    else if c2 = 0x2d ∧ p.head? ≠ some 0x5d ∧ p ≠ [] ∧ 0 < prior then
      scanSet c (seen || (prior ≤ c && c ≤ (sqlite3Utf8Read p).1)) 0 (sqlite3Utf8Read p).2
    else scanSet c (seen || c == c2) c2 p
termination_by z => z.length
decreasing_by
  · exact lt_of_le_of_lt (sqlite3Utf8Read_le _) (sqlite3Utf8Read_length b z)
  · exact sqlite3Utf8Read_length b z

/-- A set, from behind its `[` on (`func.c`, lines 813–843): `^` inverts it, and `]` may be its
    first character. -/
def compareSet (c : ℕ) (p : List UInt8) : Option (Bool × List UInt8) :=
  let invert := (sqlite3Utf8Read p).1 == 0x5e
  let p1 := if invert then (sqlite3Utf8Read p).2 else p
  let bracket := (sqlite3Utf8Read p1).1 == 0x5d
  let p2 := if bracket then (sqlite3Utf8Read p1).2 else p1
  (scanSet c (bracket && c == 0x5d) 0 p2).map fun r => (r.1 ^^ invert, r.2)

theorem skipWildcards_length {info : CompareInfo} {z s q t : List UInt8}
    (h : skipWildcards info z s = some (q, t)) :
    q.length ≤ z.length := by
  induction z, s using skipWildcards.induct info with
  | case1 s =>
    rw [skipWildcards] at h
    rw [(Prod.mk.inj (Option.some.inj h)).1]
  | case2 b z s hwild hone hend =>
    rw [skipWildcards, if_pos hwild, if_pos hone, if_pos hend] at h
    cases h
  | case3 b z s hwild hone hend ih =>
    rw [skipWildcards, if_pos hwild, if_pos hone, if_neg hend] at h
    exact (ih h).trans (sqlite3Utf8Read_length _ _).le
  | case4 b z s hwild hone ih =>
    rw [skipWildcards, if_pos hwild, if_neg hone] at h
    exact (ih h).trans (sqlite3Utf8Read_length _ _).le
  | case5 b z s hwild =>
    rw [skipWildcards, if_neg hwild] at h
    rw [(Prod.mk.inj (Option.some.inj h)).1]

theorem skipWildcards_lt {info : CompareInfo} {b : UInt8} {z s q t : List UInt8}
    (h : skipWildcards info (sqlite3Utf8Read (b :: z)).2 s = some (q, t)) :
    q.length < (b :: z).length :=
  (skipWildcards_length h).trans_lt (sqlite3Utf8Read_length b z)

theorem scanSet_length {c prior : ℕ} {seen r : Bool} {z p : List UInt8}
    (h : scanSet c seen prior z = some (r, p)) :
    p.length ≤ z.length := by
  induction seen, prior, z using scanSet.induct c with
  | case1 seen prior =>
    rw [scanSet] at h
    cases h
  | case2 seen prior b z c2 hclose =>
    rw [scanSet, if_pos hclose] at h
    obtain ⟨-, rfl⟩ := Prod.mk.inj (Option.some.inj h)
    exact (sqlite3Utf8Read_length b z).le
  | case3 seen prior b z c2 p hclose hrange ih =>
    rw [scanSet, if_neg hclose, if_pos hrange] at h
    exact ((ih h).trans (sqlite3Utf8Read_le _)).trans (sqlite3Utf8Read_length b z).le
  | case4 seen prior b z c2 p hclose hrange ih =>
    rw [scanSet, if_neg hclose, if_neg hrange] at h
    exact (ih h).trans (sqlite3Utf8Read_length b z).le

theorem compareSet_length {c : ℕ} {r : Bool} {z p : List UInt8} (h : compareSet c z = some (r, p)) :
    p.length ≤ z.length := by
  obtain ⟨⟨r', p'⟩, hscan, heq⟩ := Option.map_eq_some_iff.mp h
  obtain rfl : p' = p := (Prod.mk.inj heq).2
  refine (scanSet_length hscan).trans ?_
  split_ifs
  · exact (sqlite3Utf8Read_le _).trans (sqlite3Utf8Read_le _)
  · exact sqlite3Utf8Read_le _
  · exact sqlite3Utf8Read_le _
  · exact le_rfl

/-! ## `patternCompare` -/

/-- `patternCompare` (`func.c`, lines 728–855). In front of a set the search compares the pattern
    from `&zPattern[-1]` on, where its `[` is. -/
def patternCompare (info : CompareInfo) (matchOther : ℕ) (pattern s : List UInt8) : Outcome :=
  match pattern with
  | [] => if s.isEmpty then .found else .missed
  | b :: z =>
    let c := (sqlite3Utf8Read (b :: z)).1
    let p := (sqlite3Utf8Read (b :: z)).2
    if c = info.matchAll then
      match _hskip : skipWildcards info p s with
      | none => .missedAll
      | some ([], _) => .found
      | some (b' :: z', s) =>
        let c := (sqlite3Utf8Read (b' :: z')).1
        let p := (sqlite3Utf8Read (b' :: z')).2
        if c = matchOther then
          if info.matchSet = 0 then
            if (sqlite3Utf8Read p).1 = 0 then .missedAll
            else
              searchFirst info (sqlite3Utf8Read p).1
                (fun s => patternCompare info matchOther (sqlite3Utf8Read p).2 s) s
          else searchFrom (fun s => patternCompare info matchOther (b' :: z') s) s
        else searchFirst info c (fun s => patternCompare info matchOther p s) s
    else if c = matchOther then
      if info.matchSet = 0 then
        if (sqlite3Utf8Read p).1 = 0 then .missed
        else
          match compareOne info (sqlite3Utf8Read p).1 true s with
          | none => .missed
          | some s => patternCompare info matchOther (sqlite3Utf8Read p).2 s
      else if (sqlite3Utf8Read s).1 = 0 then .missed
      else
        match _hset : compareSet (sqlite3Utf8Read s).1 p with
        | none => .missed
        | some (seen, p) =>
          if seen then patternCompare info matchOther p (sqlite3Utf8Read s).2 else .missed
    else
      match compareOne info c false s with
      | none => .missed
      | some s => patternCompare info matchOther p s
termination_by pattern.length
decreasing_by
  · exact ((sqlite3Utf8Read_le _).trans (sqlite3Utf8Read_length b' z').le).trans_lt
      (skipWildcards_lt _hskip)
  · exact skipWildcards_lt _hskip
  · exact (sqlite3Utf8Read_length b' z').trans (skipWildcards_lt _hskip)
  · exact (sqlite3Utf8Read_le _).trans_lt (sqlite3Utf8Read_length b z)
  · exact (compareSet_length _hset).trans_lt (sqlite3Utf8Read_length b z)
  · exact sqlite3Utf8Read_length b z

/-! ## `likeFunc` -/

/-- A string without what follows its first NUL. -/
def cString (bytes : List UInt8) : List UInt8 := bytes.takeWhile (· ≠ 0)

/-- `sqlite3Utf8CharLen(z, -1)` (`utf.c`, lines 475–490). -/
def sqlite3Utf8CharLen (bytes : List UInt8) : ℕ := (codes (cString bytes)).length

/-- `SQLITE_LIMIT_LIKE_PATTERN_LENGTH` (`sqliteLimit.h`, lines 210–212). -/
def likePatternLength : ℕ := 50000

/-- The wildcard that is the escape character is none (`func.c`, lines 953–958). -/
def CompareInfo.escapedBy (info : CompareInfo) (escape : ℕ) : CompareInfo :=
  { info with
    matchAll := if escape = info.matchAll then 0 else info.matchAll
    matchOne := if escape = info.matchOne then 0 else info.matchOne }

/-- `patternCompare(zB, zA, pInfo, escape)==SQLITE_MATCH`, or NULL (`func.c`, lines 964–970). -/
def likeResult (info : CompareInfo) (escape : ℕ) (pattern text : Option (List UInt8)) :
    Option Bool :=
  pattern.bind fun p =>
    text.map fun s => patternCompare info escape (cString p) (cString s) == .found

/-- `likeFunc` of a pattern, a text and perhaps an escape character, each a text or NULL (`func.c`,
    lines 907–971). -/
def likeFunc (info : CompareInfo) (pattern text : Option (List UInt8))
    (esc : Option (Option (List UInt8))) :
    Except String (Option Bool) :=
  if likePatternLength < (pattern.getD []).length then .error "LIKE or GLOB pattern too complex"
  else
    match esc with
    | none => .ok (likeResult info info.matchSet pattern text)
    | some none => .ok none
    | some (some e) =>
      if sqlite3Utf8CharLen e ≠ 1 then .error "ESCAPE expression must be a single character"
      else
        let escape := (sqlite3Utf8Read (cString e)).1
        .ok (likeResult (info.escapedBy escape) escape pattern text)

theorem nulFree_cString (bytes : List UInt8) : NulFree (cString bytes) := by
  intro b hb
  have hne := List.mem_takeWhile_imp hb
  simpa using hne

end ProjectEvaluation.Sqlite
