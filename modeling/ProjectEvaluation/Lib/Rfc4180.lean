import Mathlib.Data.List.Basic
import ProjectEvaluation.Lib.Decimal

/-!
# RFC 4180

Comma separated values by their grammar: a document is a list of records that end in
LF or CRLF, the last of them possibly in nothing; a record is a list of fields between
commas; a field stands as it is or between quotes, with its quotes doubled. A field that
holds a comma, a quote, CR or LF is quoted.

Results:
* `Document.render_cons`: a document begins with its first record.
-/

namespace ProjectEvaluation.Rfc4180

/-- The characters a field has only between quotes. -/
def isSpecial (c : Char) : Bool := c == ',' || c == '"' || c == '\n' || c == '\r'

/-- A field: its text, and whether it is quoted. -/
structure Cell where
  text : List Char
  quoted : Bool
  plain : quoted = false → ∀ c ∈ text, isSpecial c = false

/-- A field between quotes. -/
def Cell.quote (text : List Char) : Cell where
  text
  quoted := true
  plain := (nomatch ·)

/-- A field that is quoted only if it must be. -/
def Cell.ofText (text : List Char) : Cell :=
  if h : ∀ c ∈ text, isSpecial c = false then { text, quoted := false, plain := fun _ => h }
    else .quote text

/-- The text of a quoted field, its quotes doubled. -/
def escape (text : List Char) : List Char :=
  text.flatMap fun c => if c = '"' then ['"', '"'] else [c]

/-- A field as it is written. -/
def Cell.render (cell : Cell) : List Char :=
  if cell.quoted then '"' :: escape cell.text ++ ['"'] else cell.text

/-- A record as it is written. -/
def renderRecord : List Cell → List Char
  | [] => []
  | [cell] => cell.render
  | cell :: cells => cell.render ++ ',' :: renderRecord cells

/-- The ends of a record. -/
inductive LineEnd
  | lf
  | crlf
  deriving DecidableEq

def LineEnd.chars : LineEnd → List Char
  | .lf => ['\n']
  | .crlf => ['\r', '\n']

/-- A document: the records that end in a line end, and a last one that does not. -/
structure Document where
  lines : List (List Cell × LineEnd)
  last : Option (List Cell)

/-- The records of a document. -/
def Document.records (doc : Document) : List (List Cell) :=
  doc.lines.map Prod.fst ++ doc.last.toList

/-- The texts of a record. -/
def texts (cells : List Cell) : List (List Char) := cells.map Cell.text

/-- A document as it is written. -/
def Document.render (doc : Document) : List Char :=
  (doc.lines.flatMap fun line => renderRecord line.1 ++ line.2.chars) ++
    doc.last.elim [] renderRecord

theorem renderRecord_cons {cells : List Cell} (cell : Cell) (h : cells ≠ []) :
    renderRecord (cell :: cells) = cell.render ++ ',' :: renderRecord cells := by
  cases cells with
  | nil => exact absurd rfl h
  | cons _ _ => rfl

@[simp] theorem escape_nil : escape [] = [] := rfl

theorem escape_cons (c : Char) (cs : List Char) :
    escape (c :: cs) = (if c = '"' then ['"', '"'] else [c]) ++ escape cs := List.flatMap_cons

theorem Cell.render_quoted {cell : Cell} (h : cell.quoted = true) :
    cell.render = '"' :: escape cell.text ++ ['"'] := if_pos h

theorem Cell.render_plain {cell : Cell} (h : cell.quoted = false) : cell.render = cell.text := by
  rw [Cell.render, h]
  rfl

theorem Document.render_cons (cells : List Cell) (e : LineEnd) (lines : List (List Cell × LineEnd))
    (last : Option (List Cell)) :
    Document.render { lines := (cells, e) :: lines, last } =
      renderRecord cells ++ (e.chars ++ Document.render { lines, last }) := by
  simp only [Document.render, List.flatMap_cons, List.append_assoc]

end ProjectEvaluation.Rfc4180
