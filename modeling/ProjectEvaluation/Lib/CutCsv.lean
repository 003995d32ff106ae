import Mathlib.Algebra.Order.BigOperators.Group.List
import Mathlib.Algebra.Order.Group.Nat
import ProjectEvaluation.Lib.Rfc4180

/-!
# Comma separated values, cut

A reader that knows nothing of quotes: it cuts a text at its line feeds and each line at
its commas, leaves the first line out and keeps the lines with enough values.

Results:
* `cutRows_eq_rows_iff`: it reads the records of a document exactly when none of them with
  enough fields has a quoted one or ends in CRLF, and no line of another has enough values.
* `cutRows_plain`: of a document without quotes it reads all records, with CR at the end of
  the last value of a record that ends in CRLF.
-/

namespace ProjectEvaluation.Rfc4180

/-! ## Cutting -/

/-- The lines of a text, each cut at its commas. -/
def cutLines (text : List Char) : List (List (List Char)) :=
  (text.splitOn '\n').map (List.splitOn ',')

/-- The lines with `n` values or more, without the first line. -/
def cutRows (n : ℕ) (text : List Char) : List (List (List Char)) :=
  ((cutLines text).drop 1).filter fun values => n ≤ values.length

/-- A piece of a text has its characters, but none of those it was cut at. -/
theorem mem_splitOn {a c : Char} {s piece : List Char} (h : piece ∈ s.splitOn a) (hc : c ∈ piece) :
    c ≠ a ∧ c ∈ s := by
  induction s generalizing piece with
  | nil =>
    rw [List.splitOn_nil, List.mem_singleton] at h
    rw [h] at hc
    cases hc
  | cons d s ih =>
    rw [List.splitOn_cons_eq_if_modifyHead] at h
    obtain ⟨first, rest, hsplit⟩ := List.exists_cons_of_ne_nil (List.splitOn_ne_nil a s)
    rw [hsplit] at h ih
    have hrest : piece ∈ first :: rest → c ≠ a ∧ c ∈ d :: s :=
      fun h => (ih h hc).imp_right (List.mem_cons_of_mem d)
    split_ifs at h with hd
    · rcases List.mem_cons.mp h with rfl | h
      · cases hc
      · exact hrest h
    · rcases List.mem_cons.mp h with rfl | h
      · rcases List.mem_cons.mp hc with rfl | hc
        · exact ⟨fun hsame => hd (beq_iff_eq.mpr hsame), List.mem_cons_self⟩
        · exact (ih List.mem_cons_self hc).imp_right (List.mem_cons_of_mem d)
      · exact hrest (List.mem_cons_of_mem _ h)

/-- A text is cut in one more piece than it has separators. -/
theorem length_splitOn (a : Char) (s : List Char) : (s.splitOn a).length = s.count a + 1 := by
  induction s with
  | nil => rfl
  | cons c s ih =>
    rw [List.splitOn_cons_eq_if_modifyHead, List.count_cons]
    split_ifs with hc
    · rw [List.length_cons, ih]
    · rw [List.length_modifyHead, ih]

theorem cutLines_append (s t : List Char) :
    cutLines (s ++ '\n' :: t) = cutLines s ++ cutLines t := by
  rw [cutLines, List.splitOn_append_cons_self, List.map_append]
  rfl

theorem cutLines_line {s : List Char} (h : '\n' ∉ s) : cutLines s = [s.splitOn ','] := by
  rw [cutLines, List.splitOn_eq_singleton h]
  rfl

/-- A value that a line was cut in has no comma and no line feed. -/
theorem mem_cutLines {s : List Char} {values : List (List Char)} (h : values ∈ cutLines s) :
    ∀ value ∈ values, ',' ∉ value ∧ '\n' ∉ value := by
  obtain ⟨line, hline, rfl⟩ := List.mem_map.mp h
  exact fun value hvalue => ⟨fun hc => (mem_splitOn hvalue hc).1 rfl,
    fun hc => (mem_splitOn hline (mem_splitOn hvalue hc).2).1 rfl⟩

/-! ## Documents -/

/-- The records of a document, and whether they end in CRLF. -/
def Document.ended (doc : Document) : List (List Cell × Bool) :=
  doc.lines.map (fun line => (line.1, line.2 == .crlf)) ++ doc.last.toList.map fun cells =>
    (cells, false)

/-- A record as it stands before its line feed. -/
def body (record : List Cell × Bool) : List Char :=
  renderRecord record.1 ++ if record.2 then ['\r'] else []

/-- The texts of the records with `n` fields or more, without the first record. -/
def Document.rows (n : ℕ) (doc : Document) : List (List (List Char)) :=
  ((doc.records.drop 1).map texts).filter fun fields => n ≤ fields.length

/-- A record that is cut right: with enough fields, none of them quoted, and no CRLF at its
    end; or with fewer fields, and with fewer values in every line. -/
def CutRight (n : ℕ) (record : List Cell × Bool) : Prop :=
  if n ≤ record.1.length then (∀ cell ∈ record.1, cell.quoted = false) ∧ record.2 = false
  else ∀ values ∈ cutLines (body record), values.length < n

instance (n : ℕ) (record : List Cell × Bool) : Decidable (CutRight n record) := by
  unfold CutRight
  infer_instance

theorem ended_records (doc : Document) : doc.ended.map Prod.fst = doc.records := by
  simp [Document.ended, Document.records, Function.comp_def]

/-- The lines of a document are those of its records, and an empty one after the last line
    feed. -/
theorem cutLines_render (doc : Document) :
    cutLines doc.render =
      (doc.ended.flatMap fun record => cutLines (body record)) ++ if doc.last.isNone then [[[]]]
        else [] := by
  obtain ⟨lines, last⟩ := doc
  induction lines with
  | nil =>
    cases last with
    | none => rfl
    | some cells => simp [Document.render, Document.ended, body]
  | cons line lines ih =>
    obtain ⟨cells, e⟩ := line
    have hbody : renderRecord cells ++ (e.chars ++ Document.render { lines, last }) =
        body (cells, e == .crlf) ++ '\n' :: Document.render { lines, last } := by
      cases e <;> simp [body, LineEnd.chars]
    rw [Document.render_cons, hbody, cutLines_append, ih, ← List.append_assoc]
    rfl

/-! ## Records -/

theorem mem_render {cell : Cell} {c : Char} (h : c ∈ cell.render) : c = '"' ∨ c ∈ cell.text := by
  have hescape : ∀ text, c ∈ escape text → c = '"' ∨ c ∈ text := by
    intro text hc
    obtain ⟨d, hd, hc⟩ := List.mem_flatMap.mp hc
    split_ifs at hc with hquote
    · exact Or.inl (by simpa using hc)
    · exact Or.inr (List.mem_singleton.mp hc ▸ hd)
  unfold Cell.render at h
  split_ifs at h
  · simp only [List.cons_append, List.mem_cons, List.mem_append, List.not_mem_nil, or_false] at h
    rcases h with h | h | h
    · exact Or.inl h
    · exact hescape cell.text h
    · exact Or.inl h
  · exact Or.inr h

theorem mem_renderRecord {cells : List Cell} {c : Char} (h : c ∈ renderRecord cells) :
    c = ',' ∨ ∃ cell ∈ cells, c ∈ cell.render := by
  induction cells with
  | nil => cases h
  | cons cell cells ih =>
    by_cases hcells : cells = []
    · subst hcells
      exact Or.inr ⟨cell, List.mem_cons_self, h⟩
    · rw [renderRecord_cons cell hcells, List.mem_append, List.mem_cons] at h
      rcases h with h | h | h
      · exact Or.inr ⟨cell, List.mem_cons_self, h⟩
      · exact Or.inl h
      · exact (ih h).imp_right fun ⟨cell', hcell', hc⟩ => ⟨cell', List.mem_cons_of_mem _ hcell', hc⟩

/-- A record has a comma between two fields. -/
theorem count_renderRecord (cells : List Cell) :
    cells.length ≤ (renderRecord cells).count ',' + 1 := by
  induction cells with
  | nil => exact Nat.zero_le _
  | cons cell cells ih =>
    by_cases hcells : cells = []
    · subst hcells
      simp
    · rw [renderRecord_cons cell hcells, List.count_append, List.count_cons_self, List.length_cons]
      omega

/-- The quotes make a record longer than its texts. -/
theorem length_renderRecord (cells : List Cell) :
    ([','].intercalate (texts cells)).length + 2 * cells.countP Cell.quoted ≤
      (renderRecord cells).length := by
  have hescape : ∀ text, text.length ≤ (escape text).length := by
    intro text
    induction text with
    | nil => exact Nat.zero_le _
    | cons c text ih =>
      rw [escape_cons, List.length_append, List.length_cons]
      split_ifs <;> simp only [List.length_cons, List.length_nil] <;> omega
  have hcell : ∀ cell : Cell,
      cell.text.length + 2 * [cell].countP Cell.quoted ≤ cell.render.length := by
    intro cell
    have hlength := hescape cell.text
    unfold Cell.render
    cases hquoted : cell.quoted with
    | false => simp [hquoted]
    | true =>
      simp [hquoted]
      omega
  induction cells with
  | nil => exact Nat.zero_le _
  | cons cell cells ih =>
    have hfirst := hcell cell
    have hcount : (cell :: cells).countP Cell.quoted = [cell].countP Cell.quoted +
        cells.countP Cell.quoted := by
      rw [← List.countP_append, List.singleton_append]
    rcases cells with _ | ⟨cell', cells⟩
    · simpa [texts, renderRecord] using hfirst
    · have hjoin : [','].intercalate (texts (cell :: cell' :: cells)) =
          cell.text ++ ',' :: [','].intercalate (texts (cell' :: cells)) := by
        simp [texts, List.intercalate]
      rw [hcount, hjoin, renderRecord_cons cell (List.cons_ne_nil _ _), List.length_append,
        List.length_append, List.length_cons, List.length_cons]
      omega

/-- Without quotes a record is its texts between commas. -/
theorem renderRecord_plain {cells : List Cell} (h : ∀ cell ∈ cells, cell.quoted = false) :
    renderRecord cells = [','].intercalate (texts cells) := by
  induction cells with
  | nil => rfl
  | cons cell cells ih =>
    have hcell := Cell.render_plain (h cell List.mem_cons_self)
    rcases cells with _ | ⟨cell', cells⟩
    · rw [texts, List.map_singleton, List.intercalate_singleton]
      exact hcell
    · rw [renderRecord_cons cell (List.cons_ne_nil _ _),
        ih fun c hc => h c (List.mem_cons_of_mem _ hc), hcell]
      simp [texts]

/-- A record without line feeds in its texts is one line. -/
theorem not_mem_body {record : List Cell × Bool} (h : ∀ cell ∈ record.1, '\n' ∉ cell.text) :
    '\n' ∉ body record := by
  intro hc
  rcases List.mem_append.mp hc with hc | hc
  · rcases mem_renderRecord hc with hc | ⟨cell, hcell, hc⟩
    · exact absurd hc (by decide)
    · exact (mem_render hc).elim (by decide) (h cell hcell)
  · split_ifs at hc
    · exact absurd (List.mem_singleton.mp hc) (by decide)
    · cases hc

/-- A record has at least as many values as fields. -/
theorem length_values (record : List Cell × Bool) :
    record.1.length ≤ ((body record).splitOn ',').length := by
  rw [length_splitOn, body, List.count_append]
  have hcount := count_renderRecord record.1
  omega

/-! ## The two readings -/

/-- The rows cut out of a record. -/
def cutRecord (n : ℕ) (record : List Cell × Bool) : List (List (List Char)) :=
  (cutLines (body record)).filter fun values => n ≤ values.length

/-- The row a record is. -/
def rowOf (n : ℕ) (record : List Cell × Bool) : List (List (List Char)) :=
  if n ≤ record.1.length then [texts record.1] else []

/-- A record is cut right when the rows cut out of it are the row that it is. -/
theorem cutRecord_eq_iff {n : ℕ} (hn : 0 < n) {record : List Cell × Bool} :
    cutRecord n record = rowOf n record ↔ CutRight n record := by
  unfold rowOf CutRight
  split_ifs with hlong
  · constructor
    · intro heq
      have hmem : texts record.1 ∈ cutLines (body record) :=
        List.mem_of_mem_filter (heq ▸ List.mem_singleton_self (texts record.1))
      have hfeed : '\n' ∉ body record :=
        not_mem_body fun cell hcell => (mem_cutLines hmem _ (List.mem_map_of_mem hcell)).2
      rw [cutLines_line hfeed, List.mem_singleton] at hmem
      have hbody : body record = [','].intercalate (texts record.1) := by
        rw [hmem, List.intercalate_splitOn]
      have hlength := length_renderRecord record.1
      rw [← hbody, body, List.length_append] at hlength
      have hcount : record.1.countP Cell.quoted = 0 := by omega
      refine ⟨fun cell hcell => ?_, ?_⟩
      · simpa using List.countP_eq_zero.mp hcount cell hcell
      · by_contra hcr
        rw [if_pos (by simpa using hcr), List.length_singleton] at hlength
        omega
    · rintro ⟨hplain, hend⟩
      have hspecial : ∀ cell ∈ record.1, ∀ c ∈ cell.text, isSpecial c = false :=
        fun cell hcell => cell.plain (hplain cell hcell)
      have hbody : body record = [','].intercalate (texts record.1) := by
        rw [body, hend, renderRecord_plain hplain]
        exact List.append_nil _
      have hfeed : '\n' ∉ body record :=
        not_mem_body fun cell hcell hc => absurd (hspecial cell hcell _ hc) (by decide)
      have hsplit : (body record).splitOn ',' = texts record.1 := by
        rw [hbody]
        refine List.splitOn_intercalate ',' (fun text htext hc => ?_) ?_
        · obtain ⟨cell, hcell, rfl⟩ := List.mem_map.mp htext
          exact absurd (hspecial cell hcell _ hc) (by decide)
        · exact List.ne_nil_of_length_pos (by rw [texts, List.length_map]; omega)
      rw [cutRecord, cutLines_line hfeed, hsplit, List.filter_singleton]
      simp [texts, hlong]
  · simp [cutRecord, List.filter_eq_nil_iff]

/-- Where every part of one list is at most as long as that of another, the lists are the
    same only if the parts are. -/
theorem parts_eq_of_flatMap_eq {α β : Type} {f g : α → List β} {l : List α}
    (hle : ∀ a ∈ l, (g a).length ≤ (f a).length)
    (h : l.flatMap f = l.flatMap g) : ∀ a ∈ l, f a = g a := by
  induction l with
  | nil => exact fun a ha => (nomatch ha)
  | cons b l ih =>
    have hrest : ∀ l' : List α, (∀ a ∈ l', (g a).length ≤ (f a).length) →
        (l'.flatMap g).length ≤ (l'.flatMap f).length := by
      intro l' hl'
      rw [List.length_flatMap, List.length_flatMap]
      exact List.sum_le_sum hl'
    rw [List.flatMap_cons, List.flatMap_cons] at h
    have hlength := congrArg List.length h
    rw [List.length_append, List.length_append] at hlength
    have hfirst := hle b List.mem_cons_self
    have htail := hrest l fun a ha => hle a (List.mem_cons_of_mem _ ha)
    obtain ⟨hb, hl⟩ := List.append_inj h (by omega)
    intro a ha
    rcases List.mem_cons.mp ha with rfl | ha
    · exact hb
    · exact ih (fun a ha => hle a (List.mem_cons_of_mem _ ha)) hl a ha

/-- The rows are those of the records after the header. -/
theorem rows_eq (n : ℕ) (doc : Document) : doc.rows n = (doc.ended.drop 1).flatMap (rowOf n) := by
  have hrows : ∀ records : List (List Cell × Bool),
      ((records.map Prod.fst).map texts).filter (fun fields => n ≤ fields.length) =
      records.flatMap (rowOf n) := by
    intro records
    induction records with
    | nil => rfl
    | cons record records ih =>
      rw [List.map_cons, List.map_cons, List.filter_cons, ih, List.flatMap_cons, rowOf, texts,
        List.length_map]
      by_cases hlong : n ≤ record.1.length <;> simp [hlong]
  rw [Document.rows, ← ended_records, ← List.map_drop, hrows]

/-- So are the rows cut out of a document whose header has no line feed. -/
theorem cutRows_eq {n : ℕ} (hn : 2 ≤ n) {doc : Document} {header : List Cell}
    (hheader : doc.records.head? = some header) (hfeed : ∀ cell ∈ header, '\n' ∉ cell.text) :
    cutRows n doc.render = (doc.ended.drop 1).flatMap (cutRecord n) := by
  rw [← ended_records] at hheader
  rcases hended : doc.ended with _ | ⟨first, records⟩
  · rw [hended] at hheader
    cases hheader
  · rw [hended] at hheader
    cases hheader
    have hlast : (if doc.last.isNone then [[[]]] else [] : List (List (List Char))).filter
        (fun values => n ≤ values.length) = [] := by
      split_ifs
      · simp only [List.filter_cons, List.length_singleton, List.filter_nil]
        exact if_neg (by simpa using Nat.lt_of_succ_le hn)
      · rfl
    rw [cutRows, cutLines_render, hended, List.flatMap_cons, cutLines_line (not_mem_body hfeed),
      List.append_assoc, List.singleton_append, List.drop_one, List.tail_cons, List.filter_append,
      hlast, List.append_nil, List.filter_flatMap]
    rfl

/-- **Cutting reads the records of a document** exactly when each of them after the header
    is cut right. -/
theorem cutRows_eq_rows_iff {n : ℕ} (hn : 2 ≤ n) {doc : Document} {header : List Cell}
    (hheader : doc.records.head? = some header) (hfeed : ∀ cell ∈ header, '\n' ∉ cell.text) :
    cutRows n doc.render = doc.rows n ↔ ∀ record ∈ doc.ended.drop 1, CutRight n record := by
  rw [cutRows_eq hn hheader hfeed, rows_eq]
  constructor
  · intro heq record hrecord
    refine (cutRecord_eq_iff (by omega)).mp
      (parts_eq_of_flatMap_eq (fun record hrecord => ?_) heq record hrecord)
    unfold rowOf
    split_ifs with hlong
    · -- the row was cut out of some line, so its texts have no line feed and the record is one line
      have hmem : texts record.1 ∈ (doc.ended.drop 1).flatMap (cutRecord n) := by
        rw [heq]
        refine List.mem_flatMap.mpr ⟨record, hrecord, ?_⟩
        rw [rowOf, if_pos hlong]
        exact List.mem_singleton_self _
      obtain ⟨other, -, hmem⟩ := List.mem_flatMap.mp hmem
      have hline : '\n' ∉ body record := not_mem_body fun cell hcell =>
        (mem_cutLines (List.mem_of_mem_filter hmem) _ (List.mem_map_of_mem hcell)).2
      rw [cutRecord, cutLines_line hline, List.filter_singleton,
        decide_eq_true (hlong.trans (length_values record))]
      exact le_rfl
    · exact Nat.zero_le _
  · intro hright
    exact List.flatMap_congr fun record hrecord =>
      (cutRecord_eq_iff (by omega)).mpr (hright record hrecord)

/-! ## Documents without quotes -/

/-- No field is quoted. -/
def Document.Plain (doc : Document) : Prop :=
  ∀ record ∈ doc.records, ∀ cell ∈ record, cell.quoted = false

instance (doc : Document) : Decidable doc.Plain := by
  unfold Document.Plain
  infer_instance

/-- The values of a record without quotes: CR stays at the end of the last one. -/
def written (record : List Cell × Bool) : List (List Char) :=
  if record.2 then (texts record.1).modify (record.1.length - 1) (· ++ ['\r']) else texts record.1

theorem length_written (record : List Cell × Bool) : (written record).length = record.1.length := by
  unfold written
  split_ifs <;> simp [texts]

/-- A value is the text of the field, with CR if it is the last one before CRLF. -/
theorem getElem?_written (record : List Cell × Bool) (i : ℕ) :
    (written record)[i]? =
      (texts record.1)[i]?.map (· ++ if record.2 = true ∧ record.1.length = i + 1 then ['\r']
        else []) := by
  unfold written
  by_cases hend : record.2 = true
  · rw [if_pos hend, List.getElem?_modify]
    by_cases hlast : record.1.length = i + 1
    · simp [hend, hlast]
    · by_cases hsame : record.1.length - 1 = i
      · -- there is no last field
        have hempty : record.1 = [] := List.length_eq_zero_iff.mp (by omega)
        simp [texts, hempty]
      · simp [hend, hlast, hsame]
  · simp [hend]

theorem intercalate_modify_last {pieces : List (List Char)} (h : pieces ≠ []) (s : List Char) :
    [','].intercalate (pieces.modify (pieces.length - 1) (· ++ s)) =
      [','].intercalate pieces ++ s := by
  induction pieces with
  | nil => exact absurd rfl h
  | cons piece pieces ih =>
    rcases pieces with _ | ⟨piece', pieces⟩
    · simp
    · have hrest := ih (List.cons_ne_nil _ _)
      rw [List.length_cons, Nat.add_sub_cancel] at hrest ⊢
      rw [List.length_cons, List.modify_succ_cons]
      have hcons : ∀ ps : List (List Char), ps ≠ [] →
          [','].intercalate (piece :: ps) = piece ++ ',' :: [','].intercalate ps := by
        intro ps hps
        obtain ⟨p, ps, rfl⟩ := List.exists_cons_of_ne_nil hps
        simp [List.intercalate]
      rw [hcons _ (List.cons_ne_nil _ _), hcons _ ?_, hrest]
      · simp
      · exact List.ne_nil_of_length_pos (by rw [List.length_modify]; exact Nat.succ_pos _)

/-- A record without quotes is one line of its values. -/
theorem cutLines_plain {record : List Cell × Bool} (h : ∀ cell ∈ record.1, cell.quoted = false)
    (hne : record.1 ≠ []) : cutLines (body record) = [written record] := by
  have hspecial : ∀ cell ∈ record.1, ∀ c ∈ cell.text, isSpecial c = false :=
    fun cell hcell => cell.plain (h cell hcell)
  have hfeed : '\n' ∉ body record :=
    not_mem_body fun cell hcell hc => absurd (hspecial cell hcell _ hc) (by decide)
  have hbody : body record = [','].intercalate (written record) := by
    rw [body, renderRecord_plain h, written]
    split_ifs with hend
    · have hpieces : texts record.1 ≠ [] := by simpa [texts] using hne
      have hlength : record.1.length = (texts record.1).length := by rw [texts, List.length_map]
      rw [hlength, intercalate_modify_last hpieces]
    · exact List.append_nil _
  have hcomma : ∀ value ∈ written record, ',' ∉ value := by
    intro value hvalue hc
    obtain ⟨i, hi⟩ := List.mem_iff_getElem?.mp hvalue
    rw [getElem?_written] at hi
    obtain ⟨text, htext, rfl⟩ := Option.map_eq_some_iff.mp hi
    rcases List.mem_append.mp hc with hc | hc
    · obtain ⟨cell, hcell, rfl⟩ := List.mem_map.mp (List.mem_of_getElem? htext)
      exact absurd (hspecial cell hcell _ hc) (by decide)
    · split_ifs at hc
      · exact absurd (List.mem_singleton.mp hc) (by decide)
      · cases hc
  have hvalues : written record ≠ [] :=
    List.ne_nil_of_length_pos (by rw [length_written]; exact List.length_pos_of_ne_nil hne)
  rw [cutLines_line hfeed, hbody, List.splitOn_intercalate ',' hcomma hvalues]

/-- A record without quotes that is short has a line that is. -/
theorem cutRecord_short {n : ℕ} (hn : 2 ≤ n) {record : List Cell × Bool}
    (h : ∀ cell ∈ record.1, cell.quoted = false)
    (hshort : record.1.length < n) : cutRecord n record = [] := by
  refine List.filter_eq_nil_iff.mpr fun values hvalues => ?_
  by_cases hne : record.1 = []
  · have hcount : (body record).count ',' = 0 := by
      rw [body, hne, renderRecord]
      split_ifs <;> rfl
    rw [cutLines_line (not_mem_body fun cell hcell => by rw [hne] at hcell; cases hcell),
      List.mem_singleton] at hvalues
    rw [hvalues, length_splitOn, hcount, decide_eq_true_eq]
    omega
  · rw [cutLines_plain h hne, List.mem_singleton] at hvalues
    rw [hvalues, length_written, decide_eq_true_eq]
    omega

/-- **Cutting a document without quotes.** -/
theorem cutRows_plain {n : ℕ} (hn : 2 ≤ n) {doc : Document} (h : doc.Plain) :
    cutRows n doc.render = ((doc.ended.drop 1).filter fun record => n ≤ record.1.length).map
      written := by
  have hrecord : ∀ record ∈ doc.ended, ∀ cell ∈ record.1, cell.quoted = false := by
    intro record hmem
    exact h record.1 (ended_records doc ▸ List.mem_map_of_mem hmem)
  cases hheader : doc.records.head? with
  | none =>
    have hnone : doc.ended = [] := by
      have hrecords := List.head?_eq_none_iff.mp hheader
      rw [← ended_records] at hrecords
      exact List.map_eq_nil_iff.mp hrecords
    rw [cutRows, cutLines_render, hnone]
    split_ifs <;> simp
  | some header =>
    have hfeed : ∀ cell ∈ header, '\n' ∉ cell.text := by
      intro cell hcell hc
      have hplain := h header (List.mem_of_mem_head? hheader) cell hcell
      exact absurd (cell.plain hplain _ hc) (by decide)
    have hcut : ∀ records : List (List Cell × Bool), (∀ record ∈ records, record ∈ doc.ended) →
        records.flatMap (cutRecord n) =
          (records.filter fun record => n ≤ record.1.length).map written := by
      intro records hmem
      induction records with
      | nil => rfl
      | cons record records ih =>
        rw [List.flatMap_cons, ih fun r hr => hmem r (List.mem_cons_of_mem _ hr), List.filter_cons]
        have hquoted := hrecord record (hmem record List.mem_cons_self)
        by_cases hlong : n ≤ record.1.length
        · have hne : record.1 ≠ [] := List.ne_nil_of_length_pos (by omega)
          rw [cutRecord, cutLines_plain hquoted hne, List.filter_singleton, length_written]
          simp [hlong]
        · rw [cutRecord_short hn hquoted (by omega), if_neg (by simpa using hlong), List.nil_append]
    rw [cutRows_eq hn hheader hfeed]
    exact hcut _ fun record hmem => List.mem_of_mem_drop hmem

end ProjectEvaluation.Rfc4180
