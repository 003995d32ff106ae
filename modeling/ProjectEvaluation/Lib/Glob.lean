import ProjectEvaluation.Lib.Wildcard

/-!
# Searching for patterns

A pattern is a list of parts: any text, or one letter that meets a condition. A comparison of
a pattern with a text ends in one of three ways: the text fits, it does not, or not even a
suffix of it does. The third answer ends a search at once.

Results:
* `Tells.search_stop`, `Tells.search_from`: a search for the first letter after a wildcard, or for
  a whole pattern, tells whether the text fits, also where it ends early.
* `fits_ofItem`: patterns of wildcards and letters as such patterns.
-/

namespace ProjectEvaluation.Glob

variable {α : Type}

/-- A part of a pattern. -/
inductive Piece (α : Type)
  | many
  | one (p : α → Bool)

/-- A text fits a pattern. -/
def Fits : List (Piece α) → List α → Prop
  | [], s => s = []
  | .many :: parts, s => ∃ t, t <:+ s ∧ Fits parts t
  | .one p :: parts, s => ∃ c t, s = c :: t ∧ p c = true ∧ Fits parts t

theorem fits_nil {s : List α} : Fits [] s ↔ s = [] := Iff.rfl

theorem fits_one {p : α → Bool} {parts : List (Piece α)} {c : α} {t : List α} :
    Fits (.one p :: parts) (c :: t) ↔ p c = true ∧ Fits parts t := by
  constructor
  · rintro ⟨d, u, heq, hp, hfits⟩
    obtain ⟨rfl, rfl⟩ := List.cons.inj heq
    exact ⟨hp, hfits⟩
  · rintro ⟨hp, hfits⟩
    exact ⟨c, t, rfl, hp, hfits⟩

theorem not_fits_one_nil {p : α → Bool} {parts : List (Piece α)} : ¬ Fits (.one p :: parts) [] := by
  rintro ⟨c, t, heq, -⟩
  cases heq

theorem Fits.many {parts : List (Piece α)} {s t : List α} (hsuffix : t <:+ s)
    (h : Fits (.many :: parts) t) :
    Fits (.many :: parts) s := by
  obtain ⟨u, hu, hfits⟩ := h
  exact ⟨u, hu.trans hsuffix, hfits⟩

theorem fits_many_nil (parts : List (Piece α)) : Fits (.many :: parts) [] ↔ Fits parts [] := by
  constructor
  · rintro ⟨t, ht, hfits⟩
    rwa [List.suffix_nil.mp ht] at hfits
  · exact fun h => ⟨[], List.suffix_refl [], h⟩

theorem fits_many_cons {parts : List (Piece α)} {c : α} {s : List α} :
    Fits (.many :: parts) (c :: s) ↔ Fits parts (c :: s) ∨ Fits (.many :: parts) s := by
  constructor
  · rintro ⟨t, ht, hfits⟩
    rcases List.suffix_cons_iff.mp ht with rfl | ht
    · exact Or.inl hfits
    · exact Or.inr ⟨t, ht, hfits⟩
  · rintro (h | h)
    · exact ⟨c :: s, List.suffix_refl _, h⟩
    · exact h.many (List.suffix_cons c s)

theorem fits_many_last (s : List α) : Fits [.many] s := ⟨[], List.nil_suffix, rfl⟩

/-- Two wildcards in a row are one. -/
theorem fits_many_many {parts : List (Piece α)} {s : List α} :
    Fits (.many :: .many :: parts) s ↔ Fits (.many :: parts) s := by
  constructor
  · rintro ⟨t, ht, hfits⟩
    exact hfits.many ht
  · exact fun h => ⟨s, List.suffix_refl s, h⟩

/-- A wildcard and any letter: the letter may be the first one. -/
theorem fits_many_any {parts : List (Piece α)} {c : α} {s : List α} :
    Fits (.many :: .one (fun _ => true) :: parts) (c :: s) ↔ Fits (.many :: parts) s := by
  induction s generalizing c with
  | nil =>
    rw [fits_many_cons, fits_one, fits_many_nil, fits_many_nil, or_iff_left not_fits_one_nil,
      and_iff_right rfl]
  | cons d s ih => rw [fits_many_cons, fits_one, ih, fits_many_cons, and_iff_right rfl]

/-- A piece for letters that are read by `f`. -/
def Piece.comap {β : Type} (f : β → α) : Piece α → Piece β
  | .many => .many
  | .one p => .one fun b => p (f b)

theorem fits_map {β : Type} (f : β → α) (pieces : List (Piece α)) (s : List β) :
    Fits pieces (s.map f) ↔ Fits (pieces.map (Piece.comap f)) s := by
  induction pieces generalizing s with
  | nil => exact List.map_eq_nil_iff
  | cons piece pieces ih =>
    cases piece with
    | many =>
      constructor
      · rintro ⟨_, ⟨u, hu⟩, hfits⟩
        obtain ⟨front, t, rfl, -, rfl⟩ := List.map_eq_append_iff.mp hu.symm
        exact ⟨t, List.suffix_append front t, (ih t).mp hfits⟩
      · rintro ⟨t, hsuffix, hfits⟩
        exact ⟨t.map f, hsuffix.map f, (ih t).mpr hfits⟩
    | one p =>
      cases s with
      | nil => exact iff_of_false not_fits_one_nil not_fits_one_nil
      | cons c s =>
        rw [List.map_cons, fits_one, List.map_cons, Piece.comap, fits_one, ih]

/-! ## Searches that end early -/

/-- How a comparison ends. -/
inductive Outcome
  | found
  | missed
  | missedAll
  deriving DecidableEq

/-- What an outcome tells about a pattern and a text. -/
def Tells (parts : List (Piece α)) (s : List α) : Outcome → Prop
  | .found => Fits parts s
  | .missed => ¬ Fits parts s
  | .missedAll => ∀ t, t <:+ s → ¬ Fits parts t

theorem Tells.found_iff {parts : List (Piece α)} {s : List α} {o : Outcome} (h : Tells parts s o) :
    o = .found ↔ Fits parts s := by
  cases o with
  | found => exact iff_of_true rfl h
  | missed => exact iff_of_false (nofun) h
  | missedAll => exact iff_of_false (nofun) (h s (List.suffix_refl s))

/-- A pattern that begins with a wildcard misses all suffixes of a text it misses. -/
theorem tells_many_missedAll {parts : List (Piece α)} {s : List α} :
    Tells (.many :: parts) s .missedAll ↔ ¬ Fits (.many :: parts) s :=
  ⟨fun h => h s (List.suffix_refl s), fun h _ ht hfits => h (hfits.many ht)⟩

/-- Patterns with the same texts. -/
theorem Tells.congr_many {parts parts' : List (Piece α)} {s s' : List α} {o : Outcome}
    (hiff : Fits (.many :: parts) s ↔ Fits (.many :: parts') s')
    (h : Tells (.many :: parts') s' o) :
    Tells (.many :: parts) s o := by
  cases o with
  | found => exact hiff.mpr h
  | missed => exact fun hfits => h (hiff.mp hfits)
  | missedAll =>
    exact tells_many_missedAll.mpr fun hfits => tells_many_missedAll.mp h (hiff.mp hfits)

theorem Tells.one {p : α → Bool} {parts : List (Piece α)} {c : α} {t : List α} {o : Outcome}
    (hp : p c = true)
    (h : Tells parts t o) : Tells (.one p :: parts) (c :: t) o := by
  cases o with
  | found => exact fits_one.mpr ⟨hp, h⟩
  | missed => exact fun hfits => h (fits_one.mp hfits).2
  | missedAll =>
    rintro s hs ⟨d, u, rfl, -, hfits⟩
    refine h u ?_ hfits
    rcases List.suffix_cons_iff.mp hs with heq | hs
    · rw [(List.cons.inj heq).2]
    · exact (List.suffix_cons d u).trans hs

/-- At the end of the text the search for the letter after a wildcard is over. -/
theorem tells_search_nil (p : α → Bool) (parts : List (Piece α)) :
    Tells (.many :: .one p :: parts) [] .missedAll :=
  tells_many_missedAll.mpr fun h => not_fits_one_nil ((fits_many_nil _).mp h)

/-- The search goes on where the pattern does not begin here. -/
theorem Tells.search_next {p : α → Bool} {parts : List (Piece α)} {c : α} {t : List α} {o : Outcome}
    (hmiss : ¬ Fits (.one p :: parts) (c :: t)) (h : Tells (.many :: .one p :: parts) t o) :
    Tells (.many :: .one p :: parts) (c :: t) o := by
  refine h.congr_many ?_
  rw [fits_many_cons, or_iff_right hmiss]

theorem Tells.search_skip {p : α → Bool} {parts : List (Piece α)} {c : α} {t : List α} {o : Outcome}
    (hp : p c ≠ true)
    (h : Tells (.many :: .one p :: parts) t o) : Tells (.many :: .one p :: parts) (c :: t) o :=
  h.search_next fun hfits => hp (fits_one.mp hfits).1

/-- The first outcome counts, unless it is that this text is missed. -/
def Outcome.orElse (o rest : Outcome) : Outcome :=
  match o with
  | .missed => rest
  | o => o

/-- **A search for a pattern** compares it here and goes on where it is missed. Where it misses
    all suffixes, the letters that are still to come need not be tried. -/
theorem Tells.search_from {p : α → Bool} {parts : List (Piece α)} {c : α} {t : List α}
    {o o' : Outcome}
    (h : Tells (.one p :: parts) (c :: t) o) (hrest : Tells (.many :: .one p :: parts) t o') :
    Tells (.many :: .one p :: parts) (c :: t) (o.orElse o') := by
  cases o with
  | found => exact fits_many_cons.mpr (Or.inl h)
  | missed => exact hrest.search_next h
  | missedAll =>
    refine tells_many_missedAll.mpr ?_
    rintro ⟨u, hu, hfits⟩
    exact h u hu hfits

/-- **A search for a letter** compares the rest of the pattern after each letter that meets the
    condition. -/
theorem Tells.search_stop {p : α → Bool} {parts : List (Piece α)} {c : α} {t : List α}
    {o o' : Outcome}
    (hp : p c = true) (h : Tells parts t o) (hrest : Tells (.many :: .one p :: parts) t o') :
    Tells (.many :: .one p :: parts) (c :: t) (o.orElse o') :=
  (h.one hp).search_from hrest

/-! ## Patterns of wildcards and letters -/

/-- An item as a part, where the letters of the text are read by `f`. -/
def ofItem {β : Type} (same : β → β → Bool) : Wildcard.Item β → Piece β
  | .many => .many
  | .one => .one fun _ => true
  | .letter a => .one (same a)

/-- **The texts of a pattern of items** are those that fit its parts. -/
theorem fits_ofItem (same : α → α → Bool) (pattern : List (Wildcard.Item α)) (text : List α) :
    Fits (pattern.map (ofItem same)) text ↔ text ∈ Wildcard.patternLanguage same pattern := by
  induction pattern generalizing text with
  | nil => exact (Wildcard.mem_nil same).symm
  | cons item pattern ih =>
    rw [Wildcard.mem_cons]
    cases item with
    | many =>
      constructor
      · rintro ⟨t, ⟨u, rfl⟩, hfits⟩
        exact ⟨u, trivial, t, (ih t).mp hfits, rfl⟩
      · rintro ⟨u, -, v, hv, rfl⟩
        exact ⟨v, List.suffix_append u v, (ih v).mpr hv⟩
    | one =>
      constructor
      · rintro ⟨c, t, rfl, -, hfits⟩
        exact ⟨[c], ⟨c, rfl⟩, t, (ih t).mp hfits, rfl⟩
      · rintro ⟨_, ⟨c, rfl⟩, v, hv, rfl⟩
        exact ⟨c, v, rfl, rfl, (ih v).mpr hv⟩
    | letter a =>
      constructor
      · rintro ⟨c, t, rfl, hsame, hfits⟩
        exact ⟨[c], ⟨c, rfl, hsame⟩, t, (ih t).mp hfits, rfl⟩
      · rintro ⟨_, ⟨c, rfl, hsame⟩, v, hv, rfl⟩
        exact ⟨c, v, rfl, hsame, (ih v).mpr hv⟩

end ProjectEvaluation.Glob
