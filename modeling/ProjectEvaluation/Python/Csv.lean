import ProjectEvaluation.Lib.Rfc4180
import ProjectEvaluation.Python.Json

/-!
# `str.splitlines` and the `csv` module

The reader of CPython's `_csv.c` with the default dialect, fed with the lines of a
text: `parseChar` is `parse_process_char`, with `none` for the end of a line. The
reader is written to get lines with their line breaks; `splitlines` takes the breaks
away, also those between quotes, and breaks lines at more characters than CR and LF.

Results:
* `readRows_splitLines`: the rows of a text, character by character.
* `feed_record`: what the reader makes of a record of an RFC 4180 document.
* `feed_widths`: a line boundary outside quotes breaks a record into shorter rows.
-/

namespace ProjectEvaluation.Python

open Rfc4180

/-! ## Lines -/

/-- The characters at which `str.splitlines` ends a line. -/
def isLineBoundary (c : Char) : Bool :=
  (10 ≤ c.toNat && c.toNat ≤ 13) || (28 ≤ c.toNat && c.toNat ≤ 30) || c.toNat == 0x85 ||
    c.toNat == 0x2028 || c.toNat == 0x2029

/-- A text without line boundaries. -/
def OneLine (text : List Char) : Prop := ∀ c ∈ text, isLineBoundary c = false

instance (text : List Char) : Decidable (OneLine text) := by unfold OneLine; infer_instance

/-- The lines of a text after the start of a line. -/
def splitLinesFrom (line : List Char) : List Char → List (List Char)
  | [] => if line = [] then [] else [line]
  | '\r' :: '\n' :: cs => line :: splitLinesFrom [] cs
  | c :: cs => if isLineBoundary c then line :: splitLinesFrom [] cs
      else splitLinesFrom (line ++ [c]) cs

/-- `s.splitlines()`. -/
def splitLines (cs : List Char) : List (List Char) := splitLinesFrom [] cs

example : splitLines "a\r\nb\u2028\nc".toList = ["a".toList, "b".toList, [], "c".toList] := by
  decide

/-! ## `csv.reader` -/

/-- The states of the reader. -/
inductive ReaderState
  | startRecord | startField | inField | inQuotedField | quoteInQuotedField | eatNewline
  deriving DecidableEq

/-- The reader: its state, the field it reads and the fields of the row before it. -/
structure Reader where
  state : ReaderState
  field : List Char
  fields : List (List Char)
  deriving DecidableEq

/-- A row of fields. -/
abbrev CsvFields := List (List Char)

/-- The reader before a row. -/
def Reader.start : Reader := { state := .startRecord, field := [], fields := [] }

/-- `csv.field_size_limit()`. -/
def fieldLimit : ℕ := 131072

/-- `parse_save_field`. -/
def Reader.save (r : Reader) (state : ReaderState) : Reader :=
  { state, field := [], fields := r.fields ++ [r.field] }

/-- `parse_add_char`. -/
def Reader.add (r : Reader) (state : ReaderState) (c : Char) : Except Exn Reader :=
  if fieldLimit ≤ r.field.length then .error .csvError
  else .ok { r with state, field := r.field ++ [c] }

/-- The first character of a field. -/
def Reader.parseStart (r : Reader) (c : Char) : Except Exn Reader :=
  if c = '\n' ∨ c = '\r' then .ok (r.save .eatNewline)
  else if c = '"' then .ok { r with state := .inQuotedField }
  else if c = ',' then .ok (r.save .startField)
  else r.add .inField c

/-- `parse_process_char`; `none` is the end of a line. -/
def Reader.parseChar (r : Reader) : Option Char → Except Exn Reader
  | none =>
    match r.state with
    | .startRecord => .ok r
    | .inQuotedField => .ok r
    | .eatNewline => .ok { r with state := .startRecord }
    | _ => .ok (r.save .startRecord)
  | some c =>
    match r.state with
    | .startRecord => if c = '\n' ∨ c = '\r' then .ok { r with state := .eatNewline }
        else r.parseStart c
    | .startField => r.parseStart c
    | .inField =>
      if c = '\n' ∨ c = '\r' then .ok (r.save .eatNewline)
      else if c = ',' then .ok (r.save .startField)
      else r.add .inField c
    | .inQuotedField => if c = '"' then .ok { r with state := .quoteInQuotedField }
        else r.add .inQuotedField c
    | .quoteInQuotedField =>
      if c = '"' then r.add .inQuotedField c
      else if c = ',' then .ok (r.save .startField)
      else if c = '\n' ∨ c = '\r' then .ok (r.save .eatNewline)
      else r.add .inField c
    | .eatNewline => if c = '\n' ∨ c = '\r' then .ok r else .error .csvError

/-- The characters of a line and its end. -/
def marksOf (line : List Char) : List (Option Char) := line.map some ++ [none]

/-- The rows the reader yields for some lines, and the exception that ends them if
    there is one. At the end of the lines a field that was begun is saved. -/
def readRows : Reader → List (List Char) → List CsvFields × Option Exn
  | r, [] =>
    if r.field ≠ [] ∨ r.state = .inQuotedField then ([(r.save .startRecord).fields], none)
      else ([], none)
  | r, line :: lines =>
    match (marksOf line).foldlM Reader.parseChar r with
    | .error e => ([], some e)
    | .ok r =>
      if r.state = .startRecord then
        let (rows, e) := readRows .start lines
        (r.fields :: rows, e)
      else readRows r lines

/-! ## `csv.DictReader` -/

/-- The columns the imports of `routes.py` read. -/
def importFields : List Field :=
  [.systemName, .remarks, .enabledStatus, .projectCategory, .projectLevel, .standardRequirement,
   .requirementType, .inspectionProject, .referenceScreenshot, .clauseId]

/-- The column of a heading. -/
def Field.named (name : String) : Field :=
  (importFields.find? fun f => f.key == name).getD (.other name)

/-- A row as a record: `None` where the row is too short. The last of two columns of one
    name counts; fields beyond the headings are not read. -/
def dictRow (names : List Field) (fields : CsvFields) : List (Field × Option String) :=
  (names.zipIdx.map fun (f, i) => (f, fields[i]?.map String.ofList)).reverse

/-- The records of `csv.DictReader(lines)`: the first row has the names of the columns,
    and blank rows are passed over. -/
def dictReader (lines : List (List Char)) : List (List (Field × Option String)) × Option Exn :=
  match readRows .start lines with
  | ([], e) => ([], e)
  | (names :: rows, e) =>
    ((rows.filter (· ≠ [])).map (dictRow (names.map fun name => Field.named (String.ofList name))),
      e)

/-! ## The reader, character by character -/

/-- A character of a text as the reader gets it. -/
def mark (c : Char) : Option Char := if isLineBoundary c then none else some c

/-- The rows the reader yields for some characters and ends of lines, blank rows left out,
    and the reader after them. -/
def feed : Reader → List (Option Char) → List CsvFields × Except Exn Reader
  | r, [] => ([], .ok r)
  | r, t :: ts =>
    match r.parseChar t with
    | .error e => ([], .error e)
    | .ok s =>
      if t = none ∧ s.state = .startRecord then
        ((if s.fields = [] then [] else [s.fields]) ++ (feed .start ts).1, (feed .start ts).2)
      else feed s ts

/-- The rows of the reader at the end of the lines. -/
def finish : List CsvFields × Except Exn Reader → List CsvFields × Option Exn
  | (rows, .error e) => (rows, some e)
  | (rows, .ok r) =>
    (rows ++ if r.field ≠ [] ∨ r.state = .inQuotedField then [(r.save .startRecord).fields]
      else [], none)

/-- Rows before those of a later part. -/
def after (rows : List CsvFields) (x : List CsvFields × Except Exn Reader) :
    List CsvFields × Except Exn Reader :=
  (rows ++ x.1, x.2)

theorem after_after (rows rows' : List CsvFields) (x : List CsvFields × Except Exn Reader) :
    after rows (after rows' x) = after (rows ++ rows') x := by
  simp only [after, List.append_assoc]

@[simp] theorem feed_nil (r : Reader) : feed r [] = ([], .ok r) := rfl

theorem feed_some {r s : Reader} {c : Char} (h : r.parseChar (some c) = .ok s)
    (ts : List (Option Char)) :
    feed r (some c :: ts) = feed s ts := by
  simp only [feed, h]
  rw [if_neg (by simp)]

theorem feed_error {r : Reader} {t : Option Char} {e : Exn} (h : r.parseChar t = .error e)
    (ts : List (Option Char)) : feed r (t :: ts) = ([], .error e) := by
  simp only [feed, h]

/-- The end of a line after which the row is complete. -/
theorem feed_none {r s : Reader} (h : r.parseChar none = .ok s) (hs : s.state = .startRecord)
    (ts : List (Option Char)) :
    feed r (none :: ts) = after (if s.fields = [] then [] else [s.fields]) (feed .start ts) := by
  simp only [feed, h, hs]
  rfl

theorem feed_append (r : Reader) (ts us : List (Option Char)) :
    feed r (ts ++ us) =
      match feed r ts with
      | (rows, .error e) => (rows, .error e)
      | (rows, .ok s) => after rows (feed s us) := by
  induction ts generalizing r with
  | nil => rfl
  | cons t ts ih =>
    rw [List.cons_append]
    cases hstep : r.parseChar t with
    | error e => rw [feed_error hstep, feed_error hstep]
    | ok s =>
      simp only [feed, hstep]
      by_cases hend : t = none ∧ s.state = .startRecord
      · rw [if_pos hend, if_pos hend, ih]
        rcases feed .start ts with ⟨rows, e | s'⟩
        · rfl
        · exact after_after _ _ _
      · rw [if_neg hend, if_neg hend, ih]

theorem feed_append_eq_ok {r s : Reader} {rows : List CsvFields} {ts us : List (Option Char)} :
    feed r (ts ++ us) = (rows, .ok s) ↔
      ∃ rows₁ rows₂ s', feed r ts = (rows₁, .ok s') ∧ feed s' us = (rows₂, .ok s) ∧
        rows = rows₁ ++ rows₂ := by
  rw [feed_append]
  rcases feed r ts with ⟨rows₁, e | s'⟩
  · constructor
    · intro h
      cases h
    · rintro ⟨_, _, _, h, -⟩
      cases h
  · rcases hus : feed s' us with ⟨rows₂, x⟩
    simp only [after, hus, Prod.mk.injEq]
    constructor
    · rintro ⟨rfl, rfl⟩
      exact ⟨rows₁, rows₂, s', ⟨rfl, rfl⟩, hus, rfl⟩
    · rintro ⟨_, _, _, ⟨rfl, h⟩, hus', rfl⟩
      cases h
      rw [hus] at hus'
      cases hus'
      exact ⟨rfl, rfl⟩

/-! ### Lines -/

/-- A reader that stays as it is at the end of a blank line. -/
def Reader.Settled (r : Reader) : Prop := r = .start ∨ r.state = .inQuotedField

theorem Reader.Settled.feed_none {r : Reader} (h : r.Settled) (ts : List (Option Char)) :
    feed r (none :: ts) = feed r ts := by
  rcases h with rfl | h
  · rfl
  · have hstep : r.parseChar none = .ok r := by simp [Reader.parseChar, h]
    simp only [feed, hstep, h]
    rw [if_neg (by simp)]

/-- After the end of a line the reader is settled. -/
theorem settled_after_line (r : Reader) :
    ∃ rows s, (∀ ts, feed r (none :: ts) = after rows (feed s ts)) ∧ s.Settled := by
  by_cases hquoted : r.state = .inQuotedField
  · exact ⟨[], r, fun ts => Reader.Settled.feed_none (Or.inr hquoted) ts, Or.inr hquoted⟩
  · obtain ⟨s, hstep, hs⟩ : ∃ s, r.parseChar none = .ok s ∧ s.state = .startRecord := by
      obtain ⟨state, field, fields⟩ := r
      cases state with
      | startRecord => exact ⟨_, rfl, rfl⟩
      | startField => exact ⟨_, rfl, rfl⟩
      | inField => exact ⟨_, rfl, rfl⟩
      | inQuotedField => exact absurd rfl hquoted
      | quoteInQuotedField => exact ⟨_, rfl, rfl⟩
      | eatNewline => exact ⟨_, rfl, rfl⟩
    exact ⟨_, .start, fun ts => Python.feed_none hstep hs ts, Or.inl rfl⟩

/-- The lines of a text, as characters and ends of lines: two ends of lines in a row are
    as good as one, and so is one more at the end of the text. -/
theorem feed_splitLinesFrom (r : Reader) (line cs : List Char) (h : line = [] → r.Settled) :
    feed r ((splitLinesFrom line cs).flatMap marksOf) =
      feed r (line.map some ++ (cs.map mark ++ [none])) := by
  induction line, cs using splitLinesFrom.induct generalizing r with
  | case1 =>
    rw [splitLinesFrom, if_pos rfl]
    exact ((h rfl).feed_none []).symm
  | case2 line hline =>
    rw [splitLinesFrom, if_neg hline]
    simp [marksOf]
  | case3 line cs ih =>
    have hmarks : ('\r' :: '\n' :: cs).map mark = none :: none :: cs.map mark := rfl
    rw [splitLinesFrom, List.flatMap_cons, marksOf, hmarks, List.append_assoc, feed_append,
      feed_append]
    rcases feed r (line.map some) with ⟨rows, e | s⟩
    · rfl
    · obtain ⟨rows', s', hfeed, hsettled⟩ := settled_after_line s
      simp only [List.cons_append, List.nil_append, hfeed, ih s' fun _ => hsettled, List.map_nil,
        hsettled.feed_none]
  | case4 line c cs hcrlf hc ih =>
    have hmarks : (c :: cs).map mark = none :: cs.map mark := by rw [List.map_cons, mark, if_pos hc]
    rw [splitLinesFrom, if_pos hc, List.flatMap_cons, marksOf, hmarks, List.append_assoc,
      feed_append, feed_append]
    · rcases feed r (line.map some) with ⟨rows, e | s⟩
      · rfl
      · obtain ⟨rows', s', hfeed, hsettled⟩ := settled_after_line s
        simp only [List.cons_append, List.nil_append, hfeed, ih s' fun _ => hsettled, List.map_nil]
    · exact hcrlf
  | case5 line c cs hcrlf hc ih =>
    have hmarks : (c :: cs).map mark = some c :: cs.map mark := by
      rw [List.map_cons, mark, if_neg hc]
    rw [splitLinesFrom, if_neg hc, ih r fun hnil => absurd hnil (by simp), hmarks]
    · simp
    · exact hcrlf

theorem finish_after (rows : List CsvFields) (x : List CsvFields × Except Exn Reader) :
    finish (after rows x) = (rows ++ (finish x).1, (finish x).2) := by
  rcases x with ⟨rows', e | s⟩
  · rfl
  · simp only [finish, after, List.append_assoc]

/-- One line. -/
theorem feed_line (r : Reader) (line : List Char) (ts : List (Option Char)) :
    feed r (marksOf line ++ ts) =
      match (marksOf line).foldlM Reader.parseChar r with
      | .error e => ([], .error e)
      | .ok s =>
        if s.state = .startRecord
          then after (if s.fields = [] then [] else [s.fields]) (feed .start ts)
        else feed s ts := by
  induction line generalizing r with
  | nil =>
    simp only [marksOf, List.map_nil, List.nil_append, List.foldlM_cons, List.foldlM_nil,
      List.cons_append]
    cases hstep : r.parseChar none with
    | error e => exact feed_error hstep ts
    | ok s =>
      change _ = if s.state = .startRecord then _ else _
      by_cases hs : s.state = .startRecord
      · rw [if_pos hs, feed_none hstep hs]
      · simp only [feed, hstep, hs]
        rfl
  | cons c cs ih =>
    have hmarks : marksOf (c :: cs) = some c :: marksOf cs := rfl
    rw [hmarks, List.cons_append, List.foldlM_cons]
    cases hstep : r.parseChar (some c) with
    | error e => exact feed_error hstep _
    | ok s => rw [feed_some hstep, ih s]; rfl

/-- The rows of some lines, blank ones left out. -/
theorem readRows_feed (r : Reader) (lines : List (List Char)) :
    ((readRows r lines).1.filter (· ≠ []), (readRows r lines).2) =
      finish (feed r (lines.flatMap marksOf)) := by
  induction lines generalizing r with
  | nil =>
    simp only [readRows, List.flatMap_nil, feed_nil, finish, List.nil_append]
    split_ifs with h
    · simp [Reader.save]
    · rfl
  | cons line lines ih =>
    rw [List.flatMap_cons, feed_line, readRows]
    cases (marksOf line).foldlM Reader.parseChar r with
    | error e => rfl
    | ok s =>
      by_cases hs : s.state = .startRecord
      · have hrest := ih .start
        simp only [hs, if_true]
        rw [finish_after, ← hrest]
        by_cases hfields : s.fields = [] <;> simp [hfields]
      · simp only [hs, if_false]
        exact ih s

/-- **The rows of a text**, blank ones left out. -/
theorem readRows_splitLines (cs : List Char) :
    ((readRows .start (splitLines cs)).1.filter (· ≠ []), (readRows .start (splitLines cs)).2) =
      finish (feed .start (cs.map mark ++ [none])) := by
  rw [readRows_feed, splitLines, feed_splitLinesFrom _ _ _ fun _ => Or.inl rfl]
  rfl

/-! ## Records of a document -/

/-- The reader before a field, where the row has some fields already. -/
def Reader.before (fields : List (List Char)) : Reader :=
  { state := if fields = [] then .startRecord else .startField, field := [], fields }

/-- A text as the reader gets it from between quotes: without its line boundaries. -/
def joinLines (text : List Char) : List Char := text.filter fun c => !isLineBoundary c

/-- The fields of a record as the reader gets them. -/
def fieldsOf (cells : List Cell) : CsvFields := cells.map fun cell => joinLines cell.text

/-- A field whose line boundaries, if there are any, stand between quotes. -/
def Intact (cell : Cell) : Prop := cell.quoted = false → OneLine cell.text

instance (cell : Cell) : Decidable (Intact cell) := by unfold Intact; infer_instance

/-- A field the reader has room for. -/
def Fits (cell : Cell) : Prop := (joinLines cell.text).length ≤ fieldLimit

instance (cell : Cell) : Decidable (Fits cell) := by unfold Fits; infer_instance

theorem isLineBoundary_newline {c : Char} (h : isLineBoundary c = false) : c ≠ '\n' ∧ c ≠ '\r' := by
  constructor <;> rintro rfl <;> cases h

theorem isSpecial_of_not {c : Char} (h : isSpecial c = false) :
    c ≠ ',' ∧ c ≠ '"' ∧ c ≠ '\n' ∧ c ≠ '\r' := by
  simpa [isSpecial, and_assoc] using h

theorem joinLines_of_oneLine {text : List Char} (h : OneLine text) : joinLines text = text :=
  List.filter_eq_self.mpr fun c hc => by rw [h c hc]; rfl

/-- A character between quotes. -/
theorem feed_escaped_char {r : Reader} (hr : r.state = .inQuotedField) (c : Char)
    (ts : List (Option Char)) :
    feed r ((if c = '"' then ['"', '"'] else [c]).map mark ++ ts) =
      if isLineBoundary c then feed r ts
      else if fieldLimit ≤ r.field.length then ([], .error .csvError)
      else feed { r with field := r.field ++ [c] } ts := by
  have hsame : ∀ field, ({ r with state := .inQuotedField, field } : Reader) =
      { r with field } := by
    intro field
    rw [← hr]
  by_cases hquote : c = '"'
  · subst hquote
    have hstep : r.parseChar (some '"') = .ok { r with state := .quoteInQuotedField } := by
      simp [Reader.parseChar, hr]
    have hmarks : ['"', '"'].map mark ++ ts = some '"' :: some '"' :: ts := rfl
    have hplain : isLineBoundary '"' = false := rfl
    rw [if_pos rfl, hmarks, feed_some hstep, hplain]
    by_cases hlimit : fieldLimit ≤ r.field.length
    · rw [feed_error (e := .csvError) (by simp [Reader.parseChar, Reader.add, hlimit])]
      simp [hlimit]
    · rw [feed_some (s := { r with field := r.field ++ ['"'] })
        (by simp [Reader.parseChar, Reader.add, hlimit, hsame])]
      simp [hlimit]
  · rw [if_neg hquote, List.map_singleton, List.singleton_append]
    by_cases hbreak : isLineBoundary c = true
    · rw [mark, if_pos hbreak, if_pos hbreak]
      exact Reader.Settled.feed_none (Or.inr hr) ts
    · have hstep : r.parseChar (some c) = r.add .inQuotedField c := by
        simp [Reader.parseChar, hr, hquote]
      rw [mark, if_neg hbreak, if_neg hbreak]
      by_cases hlimit : fieldLimit ≤ r.field.length
      · rw [if_pos hlimit, feed_error (hstep.trans (if_pos hlimit))]
      · rw [if_neg hlimit, feed_some (hstep.trans (if_neg hlimit)), hsame]

/-- The text between quotes. -/
theorem feed_escape (text field : List Char) (fields : List (List Char)) (ts : List (Option Char))
    (h : field.length ≤ fieldLimit) :
    feed ⟨.inQuotedField, field, fields⟩ ((escape text).map mark ++ ts) =
      if field.length + (joinLines text).length ≤ fieldLimit then
        feed ⟨.inQuotedField, field ++ joinLines text, fields⟩ ts
      else ([], .error .csvError) := by
  induction text generalizing field with
  | nil => simp [joinLines, h]
  | cons c cs ih =>
    rw [escape_cons, List.map_append, List.append_assoc, feed_escaped_char rfl]
    by_cases hbreak : isLineBoundary c = true
    · have hcons : joinLines (c :: cs) = joinLines cs := by simp [joinLines, hbreak]
      rw [if_pos hbreak, ih field h, hcons]
    · have hcons : joinLines (c :: cs) = c :: joinLines cs := by simp [joinLines, hbreak]
      rw [if_neg hbreak, hcons, List.length_cons]
      by_cases hlimit : fieldLimit ≤ field.length
      · rw [if_pos hlimit, if_neg (by omega)]
      · have hlength : (field ++ [c]).length + (joinLines cs).length = field.length +
            ((joinLines cs).length + 1) := by
          rw [List.length_append, List.length_singleton]
          omega
        rw [if_neg hlimit, ih (field ++ [c])
          (by rw [List.length_append, List.length_singleton]; omega), hlength, List.append_assoc,
          List.singleton_append]

/-- A character of a field that is not quoted. -/
theorem parseChar_plain {r : Reader}
    (hr : r.state = .startRecord ∨ r.state = .startField ∨ r.state = .inField)
    {c : Char} (hc : isSpecial c = false) : r.parseChar (some c) = r.add .inField c := by
  obtain ⟨hcomma, hquote, hlf, hcr⟩ := isSpecial_of_not hc
  rcases hr with hr | hr | hr <;>
    simp [Reader.parseChar, Reader.parseStart, hr, hcomma, hquote, hlf, hcr]

/-- The text of a field that is not quoted. -/
theorem feed_plain {text : List Char} (hplain : ∀ c ∈ text, isSpecial c = false)
    (honeLine : OneLine text) (r : Reader)
    (hr : r.state = .startRecord ∨ r.state = .startField ∨ r.state = .inField)
    (h : r.field.length ≤ fieldLimit) (ts : List (Option Char)) :
    feed r (text.map mark ++ ts) =
      if r.field.length + text.length ≤ fieldLimit then
        feed (if text = [] then r else ⟨.inField, r.field ++ text, r.fields⟩) ts
      else ([], .error .csvError) := by
  induction text generalizing r with
  | nil => simp [h]
  | cons c cs ih =>
    have hstep := parseChar_plain hr (hplain c List.mem_cons_self)
    have hmark : mark c = some c := by simp [mark, honeLine c List.mem_cons_self]
    rw [List.map_cons, List.cons_append, hmark, List.length_cons, if_neg (List.cons_ne_nil c cs)]
    by_cases hlimit : fieldLimit ≤ r.field.length
    · rw [feed_error (hstep.trans (if_pos hlimit)), if_neg (by omega)]
    · have hlength : (r.field ++ [c]).length = r.field.length + 1 := by
        rw [List.length_append, List.length_singleton]
      rw [feed_some (hstep.trans (if_neg hlimit)),
        ih (fun d hd => hplain d (List.mem_cons_of_mem _ hd))
        (fun d hd => honeLine d (List.mem_cons_of_mem _ hd)) _ (Or.inr (Or.inr rfl))
          (by simp only [hlength]; omega)]
      have hsum : r.field.length + 1 + cs.length = r.field.length + (cs.length + 1) := by omega
      by_cases hcs : cs = []
      · subst hcs
        simp only [hlength, List.length_nil, if_true]
      · simp only [hlength, if_neg hcs, List.append_assoc, List.singleton_append, hsum]

/-- A reader that has read a field: a comma and the end of the line save it. -/
structure Reader.HasRead (r : Reader) (fields : CsvFields) (field : List Char) : Prop where
  comma : ∀ ts, feed r (some ',' :: ts) = feed (.before (fields ++ [field])) ts
  line : fields ≠ [] → ∀ ts, feed r (none :: ts) = after [fields ++ [field]] (feed .start ts)

theorem hasRead_field {state : ReaderState}
    (hstate : state = .inField ∨ state = .quoteInQuotedField)
    (fields : CsvFields) (field : List Char) :
    Reader.HasRead ⟨state, field, fields⟩ fields field := by
  have hbefore : Reader.save ⟨state, field, fields⟩ .startField = .before (fields ++ [field]) := by
    simp [Reader.save, Reader.before]
  constructor
  · intro ts
    rw [← hbefore]
    refine feed_some ?_ ts
    rcases hstate with rfl | rfl <;> rfl
  · intro _ ts
    rw [feed_none (s := Reader.save ⟨state, field, fields⟩ .startRecord)
      (by rcases hstate with rfl | rfl <;> rfl) rfl]
    simp [Reader.save]

theorem hasRead_before (fields : CsvFields) : (Reader.before fields).HasRead fields [] := by
  by_cases hfields : fields = []
  · subst hfields
    exact ⟨fun ts => rfl, fun h => absurd rfl h⟩
  · have hbefore : Reader.before fields = ⟨.startField, [], fields⟩ := by
      simp [Reader.before, hfields]
    rw [hbefore]
    constructor
    · intro ts
      refine feed_some ?_ ts
      simp [Reader.parseChar, Reader.parseStart, Reader.save, Reader.before]
    · intro _ ts
      rw [feed_none (s := Reader.save ⟨.startField, [], fields⟩ .startRecord) rfl rfl]
      simp [Reader.save]

/-- A field between quotes. -/
theorem feed_quoted {cell : Cell} (hquoted : cell.quoted = true) (fields : CsvFields)
    (ts : List (Option Char)) :
    feed (.before fields) (cell.render.map mark ++ ts) =
      if Fits cell then feed ⟨.quoteInQuotedField, joinLines cell.text, fields⟩ ts
      else ([], .error .csvError) := by
  have hrender : cell.render.map mark ++
      ts = some '"' :: ((escape cell.text).map mark ++ (some '"' :: ts)) := by
    rw [Cell.render_quoted hquoted]
    simp [mark, isLineBoundary]
  have hopen : (Reader.before fields).parseChar (some '"') = .ok ⟨.inQuotedField, [], fields⟩ := by
    by_cases hfields : fields = [] <;>
      simp [Reader.before, Reader.parseChar, Reader.parseStart, hfields]
  rw [hrender, feed_some hopen, feed_escape _ _ _ _ (Nat.zero_le _), List.length_nil, Nat.zero_add,
    List.nil_append]
  by_cases hfits : Fits cell
  · rw [if_pos hfits, if_pos (show _ ≤ _ from hfits)]
    exact feed_some rfl ts
  · rw [if_neg hfits, if_neg (show ¬ _ ≤ _ from hfits)]

/-- The reader in the middle of a field that is not quoted, or before it. -/
def Reader.Open (r : Reader) : Prop :=
  r.state = .startRecord ∨ r.state = .startField ∨ r.state = .inField

theorem open_before (fields : CsvFields) : (Reader.before fields).Open := by
  by_cases hfields : fields = [] <;> simp [Reader.Open, Reader.before, hfields]

/-- **A field** whose line boundaries, if there are any, stand between quotes. -/
theorem feed_cell {cell : Cell} (h : Intact cell) (fields : CsvFields) :
    (Fits cell → ∃ r, (∀ ts, feed (.before fields) (cell.render.map mark ++ ts) = feed r ts) ∧
      r.HasRead fields (joinLines cell.text)) ∧
    (¬ Fits cell → ∀ ts, feed (.before fields) (cell.render.map mark ++ ts) =
      ([], .error .csvError)) := by
  by_cases hquoted : cell.quoted = true
  · constructor
    · intro hfits
      exact ⟨_, fun ts => (feed_quoted hquoted fields ts).trans (if_pos hfits),
        hasRead_field (Or.inr rfl) fields _⟩
    · intro hlong ts
      exact (feed_quoted hquoted fields ts).trans (if_neg hlong)
  · have hquoted : cell.quoted = false := by simpa using hquoted
    have hrender := Cell.render_plain hquoted
    have hbreaks := h hquoted
    have hread := feed_plain (cell.plain hquoted) hbreaks (Reader.before fields)
      (open_before fields) (Nat.zero_le _)
    rw [Fits, joinLines_of_oneLine hbreaks, hrender]
    constructor
    · intro hfits
      refine ⟨_, fun ts => by rw [hread, if_pos (by simpa [Reader.before] using hfits)], ?_⟩
      by_cases htext : cell.text = []
      · rw [if_pos htext, htext]
        exact hasRead_before fields
      · rw [if_neg htext]
        exact hasRead_field (Or.inl rfl) fields _
    · intro hlong ts
      rw [hread, if_neg (by simpa [Reader.before] using hlong)]

/-- **A record.** Its fields come through without their line boundaries. -/
theorem feed_record {cells : List Cell} (hintact : ∀ cell ∈ cells, Intact cell) (fields : CsvFields)
    (hcells : cells ≠ []) (hlength : fields ≠ [] ∨ 2 ≤ cells.length) (ts : List (Option Char)) :
    ((∀ cell ∈ cells, Fits cell) →
      feed (.before fields) ((renderRecord cells).map mark ++ none :: ts) =
      after [fields ++ fieldsOf cells] (feed .start ts)) ∧
    ((∃ cell ∈ cells, ¬ Fits cell) →
      feed (.before fields) ((renderRecord cells).map mark ++ none :: ts) =
      ([], .error .csvError)) := by
  induction cells generalizing fields with
  | nil => exact absurd rfl hcells
  | cons cell cells ih =>
    obtain ⟨hread, hlong⟩ := feed_cell (hintact cell List.mem_cons_self) fields
    by_cases hlast : cells = []
    · subst hlast
      have hfields : fields ≠ [] := by simpa using hlength
      constructor
      · intro hfits
        obtain ⟨r, hr, hhas⟩ := hread (hfits cell List.mem_cons_self)
        exact (hr _).trans (hhas.line hfields ts)
      · rintro ⟨d, hd, hfits⟩
        rw [List.mem_singleton.mp hd] at hfits
        exact hlong hfits _
    · have hmarks : (renderRecord (cell :: cells)).map mark ++ none :: ts =
          cell.render.map mark ++ (some ',' :: ((renderRecord cells).map mark ++ none :: ts)) := by
        rw [renderRecord_cons cell hlast]
        simp [mark, isLineBoundary]
      obtain ⟨ihfits, ihlong⟩ := ih (fun d hd => hintact d (List.mem_cons_of_mem _ hd))
        (fields ++ [joinLines cell.text]) hlast (Or.inl (by simp))
      rw [hmarks]
      constructor
      · intro hfits
        obtain ⟨r, hr, hhas⟩ := hread (hfits cell List.mem_cons_self)
        rw [hr, hhas.comma, ihfits fun d hd => hfits d (List.mem_cons_of_mem _ hd),
          List.append_assoc]
        rfl
      · rintro ⟨d, hd, hfits⟩
        by_cases hcell : Fits cell
        · obtain ⟨r, hr, hhas⟩ := hread hcell
          rw [hr, hhas.comma]
          rcases List.mem_cons.mp hd with rfl | hd
          · exact absurd hcell hfits
          · exact ihlong ⟨d, hd, hfits⟩
        · exact hlong hcell _

/-! ### Records with line boundaries outside quotes -/

/-- **What a character does** to the field and the fields of the reader. -/
theorem parseChar_cases {r s : Reader} {t : Option Char} (h : r.parseChar t = .ok s) :
    (s.field = [] ∧ s.fields = r.fields ++ [r.field]) ∨
      (s.fields = r.fields ∧ (s.field = r.field ∨ ∃ c, t = some c ∧ s.field = r.field ++ [c])) := by
  have hsave : ∀ state, (Except.ok (r.save state) : Except Exn Reader) = .ok s →
      s.field = [] ∧ s.fields = r.fields ++ [r.field] := by
    intro state h
    cases h
    exact ⟨rfl, rfl⟩
  have hadd : ∀ state c, r.add state c = .ok s → s.fields = r.fields ∧
      s.field = r.field ++ [c] := by
    intro state c h
    unfold Reader.add at h
    split_ifs at h
    cases h
    exact ⟨rfl, rfl⟩
  have hkeep : ∀ state, (Except.ok { r with state } : Except Exn Reader) = .ok s →
      s.fields = r.fields ∧ s.field = r.field := by
    intro state h
    cases h
    exact ⟨rfl, rfl⟩
  cases t with
  | none =>
    simp only [Reader.parseChar] at h
    split at h
    · exact Or.inr ⟨(hkeep _ h).1, Or.inl (hkeep _ h).2⟩
    · exact Or.inr ⟨(hkeep _ h).1, Or.inl (hkeep _ h).2⟩
    · exact Or.inr ⟨(hkeep _ h).1, Or.inl (hkeep _ h).2⟩
    · exact Or.inl (hsave _ h)
  | some c =>
    have hadd' : ∀ state, r.add state c = .ok s →
        s.fields = r.fields ∧ (s.field = r.field ∨ ∃ d,
          some c = some d ∧ s.field = r.field ++ [d]) :=
      fun state h => ⟨(hadd state c h).1, Or.inr ⟨c, rfl, (hadd state c h).2⟩⟩
    have hkeep' : ∀ state, (Except.ok { r with state } : Except Exn Reader) = .ok s →
        s.fields = r.fields ∧ (s.field = r.field ∨ ∃ d,
          some c = some d ∧ s.field = r.field ++ [d]) :=
      fun state h => ⟨(hkeep state h).1, Or.inl (hkeep state h).2⟩
    simp only [Reader.parseChar, Reader.parseStart] at h
    split at h <;> split_ifs at h <;>
      first
      | exact Or.inl (hsave _ h)
      | exact Or.inr (hadd' _ h)
      | exact Or.inr (hkeep' _ h)

/-- The reader holds no line boundary. -/
def Reader.Clean (r : Reader) : Prop := OneLine r.field ∧ ∀ field ∈ r.fields, OneLine field

theorem start_clean : Reader.start.Clean := ⟨fun _ hc => (nomatch hc), fun _ hf => (nomatch hf)⟩

/-- **No field of a row has a line boundary.** -/
theorem feed_clean {ts : List (Option Char)} (hts : ∀ c, some c ∈ ts → isLineBoundary c = false)
    {r : Reader} (hr : r.Clean) :
    (∀ row ∈ (feed r ts).1, ∀ field ∈ row, OneLine field) ∧ ∀ s,
      (feed r ts).2 = .ok s → s.Clean := by
  induction ts generalizing r with
  | nil => exact ⟨fun row hrow => (nomatch hrow), fun s hs => by cases hs; exact hr⟩
  | cons t ts ih =>
    have hrest : ∀ c, some c ∈ ts → isLineBoundary c = false :=
      fun c hc => hts c (List.mem_cons_of_mem _ hc)
    cases hstep : r.parseChar t with
    | error e =>
      rw [feed_error hstep]
      exact ⟨fun row hrow => (nomatch hrow), fun s hs => (nomatch hs)⟩
    | ok s =>
      have hs : s.Clean := by
        rcases parseChar_cases hstep with ⟨hfield, hfields⟩ | ⟨hfields, hfield | ⟨c, rfl, hfield⟩⟩
        · refine ⟨by rw [hfield]; exact fun c hc => (nomatch hc), fun field hmem => ?_⟩
          rw [hfields] at hmem
          rcases List.mem_append.mp hmem with hmem | hmem
          · exact hr.2 field hmem
          · rw [List.mem_singleton.mp hmem]; exact hr.1
        · exact ⟨by rw [hfield]; exact hr.1, by rw [hfields]; exact hr.2⟩
        · refine ⟨fun d hd => ?_, by rw [hfields]; exact hr.2⟩
          rw [hfield] at hd
          rcases List.mem_append.mp hd with hd | hd
          · exact hr.1 d hd
          · rw [List.mem_singleton.mp hd]; exact hts c List.mem_cons_self
      simp only [feed, hstep]
      by_cases hend : t = none ∧ s.state = .startRecord
      · obtain ⟨hrows, hlast⟩ := ih hrest (r := .start) start_clean
        rw [if_pos hend]
        refine ⟨fun row hrow => ?_, hlast⟩
        rcases List.mem_append.mp hrow with hrow | hrow
        · split_ifs at hrow
          · cases hrow
          · rw [List.mem_singleton.mp hrow]; exact hs.2
        · exact hrows row hrow
      · rw [if_neg hend]
        exact ih hrest hs

/-- The end of a line in a field that is not quoted. -/
theorem Reader.Open.line {r : Reader} (h : r.Open) :
    ∃ rows, (∀ ts, feed r (none :: ts) = after rows (feed .start ts)) ∧
      ∀ row ∈ rows, row.length ≤ r.fields.length + 1 := by
  obtain ⟨s, hstep, hs, hwidth⟩ : ∃ s, r.parseChar none = .ok s ∧ s.state = .startRecord ∧
      s.fields.length ≤ r.fields.length + 1 := by
    rcases h with h | h | h
    · exact ⟨r, by simp [Reader.parseChar, h], h, Nat.le_succ _⟩
    · exact ⟨r.save .startRecord, by simp [Reader.parseChar, h], rfl, by simp [Reader.save]⟩
    · exact ⟨r.save .startRecord, by simp [Reader.parseChar, h], rfl, by simp [Reader.save]⟩
  refine ⟨_, fun ts => feed_none hstep hs ts, fun row hrow => ?_⟩
  split_ifs at hrow
  · cases hrow
  · rw [List.mem_singleton.mp hrow]; exact hwidth

/-- A comma after a field that is not quoted. -/
theorem Reader.Open.comma {r : Reader} (h : r.Open) (ts : List (Option Char)) :
    feed r (some ',' :: ts) = feed (.before (r.fields ++ [r.field])) ts := by
  have hsave : r.save .startField = .before (r.fields ++ [r.field]) := by
    simp [Reader.save, Reader.before]
  rw [← hsave]
  refine feed_some ?_ ts
  rcases h with h | h | h <;> simp [Reader.parseChar, Reader.parseStart, h]

/-- The text of a field that is not quoted, with line boundaries or without. -/
theorem feed_plain_widths {text : List Char} (hplain : ∀ c ∈ text, isSpecial c = false)
    {r s : Reader}
    (hr : r.Open) {rows : List CsvFields} (h : feed r (text.map mark) = (rows, .ok s)) :
    (∀ row ∈ rows, row.length ≤ r.fields.length + 1) ∧ s.Open ∧
      s.fields = if OneLine text then r.fields else [] := by
  induction text generalizing r rows with
  | nil =>
    cases h
    exact ⟨fun row hrow => (nomatch hrow), hr, (if_pos fun c hc => (nomatch hc)).symm⟩
  | cons c cs ih =>
    have hcs : ∀ d ∈ cs, isSpecial d = false := fun d hd => hplain d (List.mem_cons_of_mem _ hd)
    rw [List.map_cons] at h
    by_cases hbreak : isLineBoundary c = true
    · have hbroken : ¬ OneLine (c :: cs) := fun hone => by
        have hc := hone c List.mem_cons_self
        rw [hbreak] at hc
        cases hc
      obtain ⟨rows', hline, hwidth⟩ := hr.line
      rw [mark, if_pos hbreak, hline] at h
      rcases hrest : feed .start (cs.map mark) with ⟨rows'', e | s'⟩
      · rw [hrest] at h; cases h
      · rw [hrest] at h
        cases h
        obtain ⟨hrows, hopen, hfields⟩ := ih hcs (r := .start) (Or.inl rfl) hrest
        refine ⟨fun row hrow => ?_, hopen, ?_⟩
        · rcases List.mem_append.mp hrow with hrow | hrow
          · exact hwidth row hrow
          · have hle := hrows row hrow
            have hstart : Reader.start.fields.length = 0 := rfl
            omega
        · rw [if_neg hbroken, hfields]
          split_ifs <;> rfl
    · have hstep := parseChar_plain hr (hplain c List.mem_cons_self)
      have hone : OneLine (c :: cs) ↔ OneLine cs := by
        simp only [OneLine, List.forall_mem_cons]
        exact and_iff_right (by simpa using hbreak)
      rw [mark, if_neg hbreak] at h
      by_cases hlimit : fieldLimit ≤ r.field.length
      · rw [feed_error (hstep.trans (if_pos hlimit))] at h
        cases h
      · rw [feed_some (hstep.trans (if_neg hlimit))] at h
        obtain ⟨hrows, hopen, hfields⟩ := ih hcs (Or.inr (Or.inr rfl)) h
        refine ⟨hrows, hopen, ?_⟩
        simp only [hone]
        exact hfields

/-- Any field, with the comma or the end of the line after it. -/
theorem feed_cell_widths {cell : Cell} {fields : CsvFields} {rows : List CsvFields} {s : Reader}
    (h : feed (.before fields) (cell.render.map mark) = (rows, .ok s)) :
    (∀ row ∈ rows, row.length ≤ fields.length + 1) ∧
      (s.fields = if Intact cell then fields else []) ∧
      (∀ ts, feed s (some ',' :: ts) = feed (.before (s.fields ++ [s.field])) ts) ∧
      ∃ rows', (∀ ts, feed s (none :: ts) = after rows' (feed .start ts)) ∧
        ∀ row ∈ rows', row.length ≤ s.fields.length + 1 := by
  by_cases hquoted : cell.quoted = true
  · have hread := feed_quoted hquoted fields []
    rw [List.append_nil, h] at hread
    split_ifs at hread
    · cases hread
      have hhas := hasRead_field (Or.inr rfl) fields (joinLines cell.text)
      refine ⟨fun row hrow => (nomatch hrow), (if_pos fun hplain => ?_).symm, hhas.comma, _,
        feed_none (s := Reader.save ⟨.quoteInQuotedField, joinLines cell.text, fields⟩ .startRecord)
        rfl rfl, ?_⟩
      · rw [hquoted] at hplain
        cases hplain
      · simp [Reader.save]
    · cases hread
  · have hquoted : cell.quoted = false := by simpa using hquoted
    have hintact : Intact cell ↔ OneLine cell.text := by simp [Intact, hquoted]
    rw [Cell.render_plain hquoted] at h
    obtain ⟨hrows, hopen, hfields⟩ := feed_plain_widths (cell.plain hquoted) (open_before fields) h
    simp only [hintact]
    exact ⟨hrows, hfields, hopen.comma, hopen.line⟩

/-- The longest row a record is broken into, where it has `n` fields already. -/
def widest : ℕ → List Cell → ℕ
  | n, [] => n
  | n, cell :: cells => if Intact cell then widest (n + 1) cells else max (n + 1) (widest 1 cells)

theorem le_widest (n : ℕ) (cells : List Cell) : n ≤ widest n cells := by
  induction cells generalizing n with
  | nil => exact le_refl n
  | cons cell cells ih =>
    have hle := ih (n + 1)
    unfold widest
    split_ifs <;> omega

/-- **Broken records.** Whatever stands in a record, the reader is ready for the next one
    after it, and the rows it yielded are no longer than the parts of the record. -/
theorem feed_widths {cells : List Cell} (hcells : cells ≠ []) {fields : CsvFields}
    {rows : List CsvFields}
    {s : Reader}
    (h : feed (.before fields) ((renderRecord cells).map mark ++ [none]) = (rows, .ok s)) :
    s = .start ∧ ∀ row ∈ rows, row.length ≤ widest fields.length cells := by
  induction cells generalizing fields rows with
  | nil => exact absurd rfl hcells
  | cons cell cells ih =>
    have hrow : ∀ {s' : Reader}, (s'.fields = if Intact cell then fields else []) →
        s'.fields.length ≤ fields.length := by
      intro s' hfields
      rw [hfields]
      split_ifs
      · exact le_refl _
      · exact Nat.zero_le _
    by_cases hlast : cells = []
    · subst hlast
      obtain ⟨rows₁, rows₂, s', hread, hline, rfl⟩ := feed_append_eq_ok.mp h
      obtain ⟨hrows, hfields, -, rows', hend, hwidth⟩ := feed_cell_widths hread
      rw [hend, feed_nil] at hline
      cases hline
      refine ⟨rfl, fun row hmem => ?_⟩
      have hwidest : fields.length + 1 ≤ widest fields.length [cell] := by
        unfold widest
        split_ifs
        · exact le_refl _
        · exact le_max_left _ _
      rcases List.mem_append.mp hmem with hmem | hmem
      · exact (hrows row hmem).trans hwidest
      · have hle := hwidth row (by simpa using hmem)
        have hshort := hrow hfields
        omega
    · have hmarks : (renderRecord (cell :: cells)).map mark ++ [none] =
          cell.render.map mark ++ (some ',' :: ((renderRecord cells).map mark ++ [none])) := by
        rw [renderRecord_cons cell hlast]
        simp [mark, isLineBoundary]
      rw [hmarks] at h
      obtain ⟨rows₁, rows₂, s', hread, hrest, rfl⟩ := feed_append_eq_ok.mp h
      obtain ⟨hrows, hfields, hcomma, -⟩ := feed_cell_widths hread
      rw [hcomma] at hrest
      obtain ⟨hs, hwidth⟩ := ih hlast hrest
      refine ⟨hs, fun row hmem => ?_⟩
      have hlength : (s'.fields ++ [s'.field]).length = s'.fields.length + 1 := by
        rw [List.length_append, List.length_singleton]
      rw [hlength] at hwidth
      unfold widest
      split_ifs at hfields ⊢ with hintact
      · rw [hfields] at hwidth
        rcases List.mem_append.mp hmem with hmem | hmem
        · exact (hrows row hmem).trans (le_widest _ _)
        · exact hwidth row hmem
      · rw [hfields] at hwidth
        rcases List.mem_append.mp hmem with hmem | hmem
        · exact (hrows row hmem).trans (le_max_left _ _)
        · exact (hwidth row hmem).trans (le_max_right _ _)

/-! ## Documents -/

/-- The rows of one record. -/
def recordRows (cells : List Cell) : List CsvFields × Except Exn Reader :=
  feed .start ((renderRecord cells).map mark ++ [none])

/-- A record that is read leaves the reader at the start of another. -/
theorem recordRows_widths {cells : List Cell} (hcells : cells ≠ []) {rows : List CsvFields}
    {s : Reader}
    (h : recordRows cells = (rows, .ok s)) :
    s = .start ∧ ∀ row ∈ rows, row.length ≤ widest 0 cells := by
  have hfeed : feed (.before []) ((renderRecord cells).map mark ++ [none]) = (rows, .ok s) := h
  exact feed_widths hcells hfeed

/-- The rows of some records. -/
def readRecords : List (List Cell) → List CsvFields × Except Exn Reader
  | [] => ([], .ok .start)
  | cells :: records =>
    match recordRows cells with
    | (rows, .error e) => (rows, .error e)
    | (rows, .ok _) => after rows (readRecords records)

/-- **The rows of a document** are those of its records, whatever its line ends are. -/
theorem feed_document {doc : Document} (h : ∀ cells ∈ doc.records, cells ≠ []) :
    feed .start (doc.render.map mark ++ [none]) = readRecords doc.records := by
  obtain ⟨lines, last⟩ := doc
  induction lines with
  | nil =>
    cases last with
    | none => rfl
    | some cells =>
      have hrecords : Document.records ⟨[], some cells⟩ = [cells] := rfl
      have hrender : Document.render ⟨[], some cells⟩ = renderRecord cells := rfl
      rw [hrecords, hrender]
      change recordRows cells = readRecords [cells]
      rcases hrows : recordRows cells with ⟨rows, e | s⟩
      · simp only [readRecords, hrows]
      · obtain ⟨rfl, -⟩ :=
          recordRows_widths (h cells (by rw [hrecords]; exact List.mem_singleton_self _)) hrows
        simp only [readRecords, hrows, after, List.append_nil]
  | cons line lines ih =>
    obtain ⟨cells, e⟩ := line
    have hrecords : Document.records ⟨(cells, e) :: lines, last⟩ =
        cells :: Document.records ⟨lines, last⟩ :=
      rfl
    rw [hrecords] at h ⊢
    have hrest := ih fun cells' hmem => h cells' (List.mem_cons_of_mem _ hmem)
    have hmarks : ∃ extra, (extra = [] ∨ extra = [none]) ∧
        (Document.render ⟨(cells, e) :: lines, last⟩).map mark ++ [none] =
          (renderRecord cells).map mark ++ [none] ++
            (extra ++ ((Document.render ⟨lines, last⟩).map mark ++ [none])) := by
      rw [Document.render_cons]
      cases e with
      | lf => exact ⟨[], Or.inl rfl, by simp [LineEnd.chars, mark, isLineBoundary]⟩
      | crlf => exact ⟨[none], Or.inr rfl, by simp [LineEnd.chars, mark, isLineBoundary]⟩
    obtain ⟨extra, hextra, hmarks⟩ := hmarks
    rw [hmarks, feed_append]
    change (match recordRows cells with | (rows, .error e) => _ | (rows, .ok s) => _) = _
    rcases hrows : recordRows cells with ⟨rows, e | s⟩
    · simp only [readRecords, hrows]
    · obtain ⟨rfl, -⟩ := recordRows_widths (h cells List.mem_cons_self) hrows
      simp only [readRecords, hrows]
      rcases hextra with rfl | rfl
      · rw [List.nil_append, hrest]
      · rw [List.singleton_append, Reader.Settled.feed_none (Or.inl rfl), hrest]

/-- **A document that is read.** Every record is read by itself. -/
theorem readRecords_eq_ok {records : List (List Cell)} (h : ∀ cells ∈ records, cells ≠ [])
    {rows : List CsvFields}
    {s : Reader} (hread : readRecords records = (rows, .ok s)) :
    s = .start ∧ rows = records.flatMap (fun cells => (recordRows cells).1) ∧
      ∀ cells ∈ records, (recordRows cells).2 = .ok .start := by
  induction records generalizing rows with
  | nil =>
    cases hread
    exact ⟨rfl, rfl, fun cells hmem => (nomatch hmem)⟩
  | cons cells records ih =>
    unfold readRecords at hread
    rcases hrows : recordRows cells with ⟨rows₁, e | s'⟩
    · rw [hrows] at hread; cases hread
    · obtain ⟨rfl, -⟩ := recordRows_widths (h cells List.mem_cons_self) hrows
      rcases hrest : readRecords records with ⟨rows₂, x⟩
      rw [hrows, hrest] at hread
      simp only [after, Prod.mk.injEq] at hread
      obtain ⟨rfl, rfl⟩ := hread
      obtain ⟨hs, rfl, hall⟩ := ih (fun cells' hmem => h cells' (List.mem_cons_of_mem _ hmem)) hrest
      refine ⟨hs, by rw [List.flatMap_cons, hrows], fun cells' hmem => ?_⟩
      rcases List.mem_cons.mp hmem with rfl | hmem
      · rw [hrows]
      · exact hall cells' hmem

/-- A record whose line boundaries stand between quotes is one row. -/
theorem recordRows_intact {cells : List Cell} (hlength : 2 ≤ cells.length)
    (hintact : ∀ cell ∈ cells, Intact cell) :
    recordRows cells =
      if ∀ cell ∈ cells, Fits cell then ([fieldsOf cells], .ok .start)
        else ([], .error .csvError) := by
  have hne : cells ≠ [] := by
    rintro rfl
    cases hlength
  obtain ⟨hread, hlong⟩ := feed_record hintact [] hne (Or.inr hlength) []
  by_cases hfits : ∀ cell ∈ cells, Fits cell
  · rw [if_pos hfits]
    exact hread hfits
  · rw [if_neg hfits]
    exact hlong (by simpa using hfits)

/-- A document whose line boundaries stand between quotes: every record is one row. -/
theorem readRecords_intact {records : List (List Cell)}
    (h : ∀ cells ∈ records, 2 ≤ cells.length ∧ ∀ cell ∈ cells, Intact cell ∧ Fits cell) :
    readRecords records = (records.map fieldsOf, .ok .start) := by
  induction records with
  | nil => rfl
  | cons cells records ih =>
    obtain ⟨hlength, hcells⟩ := h cells List.mem_cons_self
    have hrows := recordRows_intact hlength fun cell hcell => (hcells cell hcell).1
    rw [if_pos fun cell hcell => (hcells cell hcell).2] at hrows
    unfold readRecords
    rw [hrows, ih fun cells' hmem => h cells' (List.mem_cons_of_mem _ hmem)]
    rfl

/-- A document with a field that is too long is not read to its end. -/
theorem readRecords_long {records : List (List Cell)}
    (h : ∀ cells ∈ records, 2 ≤ cells.length ∧ ∀ cell ∈ cells, Intact cell)
    (hlong : ∃ cells ∈ records, ∃ cell ∈ cells, ¬ Fits cell) :
    (readRecords records).2 = .error .csvError := by
  induction records with
  | nil =>
    obtain ⟨cells, hcells, -⟩ := hlong
    cases hcells
  | cons cells records ih =>
    obtain ⟨hlength, hintact⟩ := h cells List.mem_cons_self
    have hrows := recordRows_intact hlength hintact
    unfold readRecords
    by_cases hfits : ∀ cell ∈ cells, Fits cell
    · rw [if_pos hfits] at hrows
      rw [hrows]
      refine ih (fun cells' hmem => h cells' (List.mem_cons_of_mem _ hmem)) ?_
      obtain ⟨cells', hmem, cell, hcell, hnot⟩ := hlong
      rcases List.mem_cons.mp hmem with rfl | hmem
      · exact absurd (hfits cell hcell) hnot
      · exact ⟨cells', hmem, cell, hcell, hnot⟩
    · rw [if_neg hfits] at hrows
      rw [hrows]

/-! ## A file with headings -/

theorem splitLinesFrom_line {line : List Char} (h : OneLine line) (e : LineEnd)
    (start rest : List Char) :
    splitLinesFrom start (line ++ (e.chars ++ rest)) = (start ++ line) :: splitLines rest := by
  induction line generalizing start with
  | nil =>
    rw [List.append_nil, List.nil_append]
    cases e with
    | lf =>
      rw [LineEnd.chars, List.singleton_append, splitLinesFrom.eq_def]
      rfl
    | crlf => rfl
  | cons c cs ih =>
    have hc : isLineBoundary c = false := h c List.mem_cons_self
    have hcr : c ≠ '\r' := (isLineBoundary_newline hc).2
    rw [List.cons_append, splitLinesFrom.eq_def]
    split
    · contradiction
    · rename_i heq
      exact absurd (List.cons.inj heq).1 hcr
    · rename_i heq
      obtain ⟨rfl, rfl⟩ := List.cons.inj heq
      rw [hc, if_neg Bool.false_ne_true, ih fun d hd => h d (List.mem_cons_of_mem _ hd),
        List.append_assoc, List.singleton_append]

/-- **A file with headings**: one record for each row of the rest of the text. -/
theorem dictReader_of_headings {line : List Char} {names : CsvFields} (hline : OneLine line)
    (hparse : (marksOf line).foldlM Reader.parseChar .start = .ok ⟨.startRecord, [], names⟩)
    (e : LineEnd)
    (rest : List Char) :
    dictReader (splitLines (line ++ (e.chars ++ rest))) =
      ((finish (feed .start (rest.map mark ++ [none]))).1.map
          (dictRow (names.map fun name => Field.named (String.ofList name))),
        (finish (feed .start (rest.map mark ++ [none]))).2) := by
  have hlines : splitLines (line ++ (e.chars ++ rest)) = line :: splitLines rest :=
    splitLinesFrom_line hline e [] rest
  rw [← readRows_splitLines rest, hlines, dictReader, readRows, hparse]
  rfl

/-! ## Blanks -/

theorem isSpace_of_boundary {c : Char} (h : isLineBoundary c = true) : isSpace c = true := by
  unfold isLineBoundary at h
  unfold isSpace
  simp only [Bool.or_eq_true, Bool.and_eq_true, decide_eq_true_eq, beq_iff_eq] at h ⊢
  omega

theorem dropSpace_joinLines (cs : List Char) :
    (joinLines cs).dropWhile isSpace = joinLines (cs.dropWhile isSpace) := by
  induction cs with
  | nil => rfl
  | cons c cs ih =>
    by_cases hspace : isSpace c = true
    · rw [List.dropWhile_cons_of_pos hspace, ← ih]
      by_cases hbreak : isLineBoundary c = true
      · simp [joinLines, hbreak]
      · simp [joinLines, hbreak, hspace]
    · have hbreak : isLineBoundary c = false := by
        by_contra hbreak
        exact hspace (isSpace_of_boundary (by simpa using hbreak))
      rw [List.dropWhile_cons_of_neg hspace]
      simp [joinLines, hbreak, hspace]

/-- Line boundaries are blanks. -/
theorem stripChars_joinLines (cs : List Char) : stripChars (joinLines cs) = joinLines
    (stripChars cs) := by
  have hreverse : ∀ l : List Char, (joinLines l).reverse = joinLines l.reverse :=
    fun l => (List.filter_reverse ..).symm
  unfold stripChars
  rw [dropSpace_joinLines, hreverse, dropSpace_joinLines, hreverse]

theorem stripChars_sublist (cs : List Char) : (stripChars cs).Sublist cs := by
  have hdrop : ∀ l : List Char, (l.dropWhile isSpace).Sublist l :=
    fun l => (List.dropWhile_suffix _).sublist
  have hreverse := (hdrop (cs.dropWhile isSpace).reverse).reverse
  rw [List.reverse_reverse] at hreverse
  exact hreverse.trans (hdrop cs)

theorem OneLine.strip {cs : List Char} (h : OneLine cs) : OneLine (stripChars cs) :=
  fun c hc => h c ((stripChars_sublist cs).subset hc)

end ProjectEvaluation.Python
