import Mathlib.Computability.Language
import Mathlib.Data.List.Forall2

/-!
# Patterns with wildcards

A pattern is a list of items: any text, any letter, or a letter up to a relation between letters.
The texts of a pattern are a language, the product of the languages of its items.

Results:
* `matchesPattern_iff`: a matcher for patterns.
* `mem_around`: a pattern between two items for any text is looked for inside a text.
* `mem_around_letters`: a word of letters is looked for up to what makes letters the same.
* `around_exact_iff`: where the letters of a word are read as items, looking for the pattern is
looking for the word iff each of its letters stands for itself only. -/

namespace ProjectEvaluation.Wildcard

/-- An item of a pattern. -/
inductive Item (α : Type)
  | many
  | one
  | letter (a : α)

variable {α : Type} (same : α → α → Bool)

/-! ## The language of a pattern -/

/-- The texts an item stands for. -/
def Item.language : Item α → Language α
  | .many => (Set.univ : Set (List α))
  | .one => {text | ∃ c, text = [c]}
  | .letter a => {text | ∃ c, text = [c] ∧ same a c = true}

/-- The texts a pattern stands for. -/
def patternLanguage (pattern : List (Item α)) : Language α :=
  (pattern.map (Item.language same)).prod

theorem mem_nil {text : List α} : text ∈ patternLanguage same [] ↔ text = [] :=
  Language.mem_one text

theorem mem_cons {item : Item α} {pattern : List (Item α)} {text : List α} :
    text ∈ patternLanguage same (item :: pattern) ↔
      ∃ u ∈ item.language same, ∃ v ∈ patternLanguage same pattern, u ++ v = text := by
  rw [patternLanguage, List.map_cons, List.prod_cons, Language.mem_mul]
  rfl

theorem mem_append {pattern pattern' : List (Item α)} {text : List α} :
    text ∈ patternLanguage same (pattern ++ pattern') ↔
      ∃ u ∈ patternLanguage same pattern, ∃ v ∈ patternLanguage same pattern', u ++ v = text := by
  rw [patternLanguage, List.map_append, List.prod_append, Language.mem_mul]
  rfl

/-! ## Matching -/

/-- Does a text match a pattern? -/
def matchesPattern : List (Item α) → List α → Bool
  | [], text => text.isEmpty
  | .many :: pattern, text => text.tails.any (matchesPattern pattern)
  | .one :: _, [] => false
  | .one :: pattern, _ :: text => matchesPattern pattern text
  | .letter _ :: _, [] => false
  | .letter a :: pattern, c :: text => same a c && matchesPattern pattern text

/-- **The matcher** accepts the texts of the pattern. -/
theorem matchesPattern_iff (pattern : List (Item α)) (text : List α) :
    matchesPattern same pattern text = true ↔ text ∈ patternLanguage same pattern := by
  induction pattern generalizing text with
  | nil => rw [matchesPattern, List.isEmpty_iff, mem_nil]
  | cons item pattern ih =>
    rw [mem_cons]
    cases item with
    | many =>
      rw [matchesPattern, List.any_eq_true]
      constructor
      · rintro ⟨v, hv, hmatch⟩
        obtain ⟨u, huv⟩ := (List.mem_tails v text).mp hv
        exact ⟨u, trivial, v, (ih v).mp hmatch, huv⟩
      · rintro ⟨u, -, v, hv, rfl⟩
        exact ⟨v, (List.mem_tails v _).mpr (List.suffix_append u v), (ih v).mpr hv⟩
    | one =>
      cases text with
      | nil =>
        refine iff_of_false (by simp [matchesPattern]) ?_
        rintro ⟨_, ⟨c, rfl⟩, v, -, h⟩
        cases h
      | cons c text =>
        rw [matchesPattern, ih]
        constructor
        · intro h
          exact ⟨[c], ⟨c, rfl⟩, text, h, rfl⟩
        · rintro ⟨_, ⟨c', rfl⟩, v, hv, h⟩
          obtain ⟨-, rfl⟩ := List.cons.inj h
          exact hv
    | letter a =>
      cases text with
      | nil =>
        refine iff_of_false (by simp [matchesPattern]) ?_
        rintro ⟨_, ⟨c, rfl, -⟩, v, -, h⟩
        cases h
      | cons c text =>
        rw [matchesPattern, Bool.and_eq_true, ih]
        constructor
        · rintro ⟨hsame, h⟩
          exact ⟨[c], ⟨c, rfl, hsame⟩, text, h, rfl⟩
        · rintro ⟨_, ⟨c', rfl, hsame⟩, v, hv, h⟩
          obtain ⟨rfl, rfl⟩ := List.cons.inj h
          exact ⟨hsame, hv⟩

/-! ## Looking for a pattern -/

/-- A pattern anywhere in a text. -/
def around (pattern : List (Item α)) : List (Item α) := .many :: (pattern ++ [.many])

theorem mem_around {pattern : List (Item α)} {text : List α} :
    text ∈ patternLanguage same (around pattern) ↔ ∃ part ∈ patternLanguage same pattern,
      part <:+: text := by
  have hmany : ∀ v : List α, v ∈ patternLanguage same [.many] := by
    intro v
    exact (mem_cons same).mpr ⟨v, trivial, [], (mem_nil same).mpr rfl, List.append_nil v⟩
  rw [around, mem_cons]
  constructor
  · rintro ⟨u, -, w, hw, rfl⟩
    obtain ⟨part, hpart, v, -, rfl⟩ := (mem_append same).mp hw
    exact ⟨part, hpart, ⟨u, v, by rw [List.append_assoc]⟩⟩
  · rintro ⟨part, hpart, u, v, rfl⟩
    refine ⟨u, trivial, part ++ v, (mem_append same).mpr ⟨part, hpart, v, hmany v, rfl⟩, ?_⟩
    rw [List.append_assoc]

/-- Words whose letters are read as items that stand for them. -/
theorem mem_word {reading : α → Item α} {word : List α}
    (hself : ∀ a ∈ word, [a] ∈ (reading a).language same) :
    word ∈ patternLanguage same (word.map reading) := by
  induction word with
  | nil => exact (mem_nil same).mpr rfl
  | cons a word ih =>
    refine (mem_cons same).mpr ⟨[a], hself a List.mem_cons_self, word, ?_, rfl⟩
    exact ih fun b hb => hself b (List.mem_cons_of_mem a hb)

/-! ## Words -/

/-- **Looking for a word of letters** is looking for it up to what makes letters the same. -/
theorem mem_around_letters {β : Type} {f : α → β} (hsame : ∀ a c, same a c = true ↔ f a = f c)
    (word text : List α) :
    text ∈ patternLanguage same (around (word.map Item.letter)) ↔ word.map f <:+: text.map f := by
  have hword : ∀ part, part ∈ patternLanguage same (word.map Item.letter) ↔
      part.map f = word.map f := by
    intro part
    induction word generalizing part with
    | nil => rw [List.map_nil, mem_nil, List.map_nil, List.map_eq_nil_iff]
    | cons a word ih =>
      rw [List.map_cons, mem_cons, List.map_cons, List.map_eq_cons_iff]
      constructor
      · rintro ⟨_, ⟨c, rfl, hc⟩, v, hv, rfl⟩
        exact ⟨c, v, rfl, ((hsame a c).mp hc).symm, (ih v).mp hv⟩
      · rintro ⟨c, v, rfl, hc, hv⟩
        exact ⟨[c], ⟨c, rfl, (hsame a c).mpr hc.symm⟩, v, (ih v).mpr hv, rfl⟩
  rw [mem_around]
  constructor
  · rintro ⟨part, hpart, hwithin⟩
    rw [← (hword part).mp hpart]
    exact hwithin.map f
  · rintro ⟨before, after, h⟩
    obtain ⟨front, back, rfl, hfront, -⟩ := List.map_eq_append_iff.mp h.symm
    obtain ⟨u, part, rfl, -, hpart⟩ := List.map_eq_append_iff.mp hfront
    exact ⟨part, (hword part).mpr hpart, u, back, rfl⟩

/-- An item that stands for a letter and for something else stands for something else that is not
    longer and has no other letters. -/
theorem exists_other {item : Item α} {a : α} {text : List α} (h : text ∈ item.language same)
    (hne : text ≠ [a]) : ∃ other ∈ item.language same,
    other ≠ [a] ∧ other.length ≤ 1 ∧ other ⊆ text := by
  cases item with
  | many => exact ⟨[], trivial, (List.cons_ne_nil a []).symm, Nat.zero_le 1, List.nil_subset _⟩
  | one =>
    obtain ⟨c, rfl⟩ := h
    exact ⟨[c], ⟨c, rfl⟩, hne, le_rfl, List.Subset.refl _⟩
  | letter b =>
    obtain ⟨c, rfl, hsame⟩ := h
    exact ⟨[c], ⟨c, rfl, hsame⟩, hne, le_rfl, List.Subset.refl _⟩

/-- **Looking for the pattern of a word is looking for the word** in the texts of some letters iff
    each letter of the word stands for no other text of them. -/
theorem around_exact_iff {p : α → Prop} {reading : α → Item α} {word : List α}
    (hself : ∀ a ∈ word, [a] ∈ (reading a).language same) (hword : ∀ a ∈ word, p a) :
    (∀ text, (∀ c ∈ text, p c) →
        (text ∈ patternLanguage same (around (word.map reading)) ↔ word <:+: text)) ↔
      ∀ a ∈ word, ∀ text ∈ (reading a).language same, (∀ c ∈ text, p c) → text = [a] := by
  constructor
  · intro hexact a ha text htext hletters
    by_contra hne
    obtain ⟨other, hother, hne, hlength, hsubset⟩ := exists_other same htext hne
    obtain ⟨u, v, rfl⟩ := List.append_of_mem ha
    -- the word with the other text for one of its letters is found, and it is not longer than the
    -- word
    have hfound : u ++ (other ++ v) ∈ patternLanguage same ((u ++ a :: v).map reading) := by
      rw [List.map_append, List.map_cons]
      refine (mem_append same).mpr
        ⟨u, mem_word same fun b hb => hself b (List.mem_append_left _ hb), other ++ v, ?_, rfl⟩
      refine (mem_cons same).mpr ⟨other, hother, v, mem_word same fun b hb => hself b ?_, rfl⟩
      exact List.mem_append_right _ (List.mem_cons_of_mem a hb)
    have hall : ∀ c ∈ u ++ (other ++ v), p c := by
      intro c hc
      rcases List.mem_append.mp hc with hc | hc
      · exact hword c (List.mem_append_left _ hc)
      · rcases List.mem_append.mp hc with hc | hc
        · exact hletters c (hsubset hc)
        · exact hword c (List.mem_append_right _ (List.mem_cons_of_mem a hc))
    have hwithin := (hexact _ hall).mp ((mem_around same).mpr ⟨_, hfound, List.infix_refl _⟩)
    have hle : (u ++ (other ++ v)).length ≤ (u ++ a :: v).length := by
      simp only [List.length_append, List.length_cons]
      omega
    have heq : u ++ ([a] ++ v) = u ++ (other ++ v) := hwithin.eq_of_length_le hle
    exact hne (List.append_cancel_right (List.append_cancel_left heq)).symm
  · intro hplain text hletters
    rw [mem_around]
    have honly : ∀ part, (∀ c ∈ part, p c) → part ∈ patternLanguage same (word.map reading) →
        part = word := by
      clear hself hword
      induction word with
      | nil => exact fun part _ hpart => (mem_nil same).mp hpart
      | cons a word ih =>
        intro part hall hpart
        obtain ⟨u, hu, v, hv, rfl⟩ := (mem_cons same).mp hpart
        rw [hplain a List.mem_cons_self u hu fun c hc => hall c (List.mem_append_left _ hc),
          ih (fun b hb => hplain b (List.mem_cons_of_mem a hb)) v
            (fun c hc => hall c (List.mem_append_right _ hc)) hv]
        rfl
    constructor
    · rintro ⟨part, hpart, hwithin⟩
      exact honly part (fun c hc => hletters c (hwithin.subset hc)) hpart ▸ hwithin
    · intro hwithin
      exact ⟨word, mem_word same hself, hwithin⟩

end ProjectEvaluation.Wildcard
