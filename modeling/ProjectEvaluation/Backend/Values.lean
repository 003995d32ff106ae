import Mathlib.Data.Int.Log
import ProjectEvaluation.Sqlite.Numbers
import ProjectEvaluation.Python.Dates
import ProjectEvaluation.Python.Json

/-!
# Column values

How a value assigned to a mapped attribute reaches a SQLite column: the bind
processors of SQLAlchemy 1.4 (`Date`, `Time` and `DateTime` take date objects
only, `Boolean` takes `None`, `True`, `False` and the numbers equal to them,
`Float` calls `float`), the types the `sqlite3` driver accepts, and the affinity
of the column, which converts what it can and stores the rest as sent.

Results:
* `bindJson_canonical`: what is stored in a column is in the canonical form of the
  column's type.
* `bindJson_toJson`: a canonical value that is sent back as JSON is stored
  again as the same value, except for dates and times.
-/

namespace ProjectEvaluation.Backend

open Python Sqlite Decimal

/-- The column types of `models.py` (`String` and `Text` have the same
    affinity). -/
inductive ColType
  | integer
  | string
  | float
  | boolean
  | date
  | time
  | dateTime
  deriving DecidableEq

/-- The value of an attribute loaded from a column. -/
inductive Value
  | null
  | int (n : ℤ)
  | real (x : PyFloat)
  | text (s : String)
  | bool (b : Bool)
  | date (d : Date)
  | time (t : Time)
  | dateTime (d : Date) (t : Time)
  deriving DecidableEq

/-! ## Numbers -/

/-- A number as it is stored. -/
def Value.ofNumber : Number → Value
  | .int n => .int n
  | .real x => .real x

/-- `float(s)` for a string `s`; `none` is a `ValueError`. -/
def pyFloat (s : String) : Option PyFloat :=
  let cs := stripChars s.toList
  let word := (if cs.head? = some '-' ∨ cs.head? = some '+' then cs.drop 1 else cs).map Char.toLower
  if word = "inf".toList ∨ word = "infinity".toList then some (.inf (cs.head? == some '-'))
  else if word = "nan".toList then some .nan
  else
    let spelled := (cs.zip (' ' :: cs)).zip (cs.drop 1 ++ [' ']) |>.all fun ((c, before), after) =>
      c ≠ '_' || ((digitValue before).isSome && (digitValue after).isSome)
    if spelled then
      (signedNumeral digitValue (cs.filter (· ≠ '_'))).map fun numeral => .ofRat numeral.value
    else none

/-- The text of a REAL under TEXT affinity: 15 significant digits (`%!.15g`). -/
def realText : PyFloat → String
  | .nan => ""
  | .inf negative => if negative then "-Inf" else "Inf"
  | .finite x =>
    let q := x.value
    if q = 0 then "0.0"
    else
      let a := if q < 0 then -q else q
      let e := Int.log 10 a
      let scaled : ℚ := if e ≤ 14 then a * 10 ^ (14 - e).toNat else a / 10 ^ (e - 14).toNat
      let m := (scaled + 1 / 2).floor.toNat
      let (m, e) := if m = 10 ^ 15 then (10 ^ 14, e + 1) else (m, e)
      let digits := ((Nat.toDigits 10 m).reverse.dropWhile (· == '0')).reverse
      let point := fun k : ℕ =>
        let padded := digits ++ List.replicate (k + 1 - digits.length) '0'
        padded.take k ++ '.' :: padded.drop k
      let body :=
        if e < -4 ∨ 15 ≤ e then
          let x := Nat.toDigits 10 e.natAbs
          point 1 ++ 'e' :: (if e < 0 then '-' else '+') :: (if x.length < 2 then '0' :: x else x)
        else if e < 0 then '0' :: '.' :: (List.replicate (-e - 1).toNat '0' ++ digits)
        else point (e.toNat + 1)
      String.ofList (if q < 0 then '-' :: body else body)

/-! ## Binding and affinity -/

/-- A float under INTEGER affinity; NaN is stored as NULL. -/
def floatAsInteger : PyFloat → Value
  | .nan => .null
  | x => .ofNumber (sqlite3VdbeIntegerAffinity x)

/-- A text under INTEGER affinity: the number it spells, or the text. -/
def textAsInteger (s : String) : Value := (applyNumericAffinity s).elim (.text s) .ofNumber

/-- A float in a REAL column; NaN is stored as NULL. -/
def floatAsReal : PyFloat → Value
  | .nan => .null
  | x => .real x

/-- `float(n)` for an integer; past the doubles an `OverflowError`, which reaches the handler as
    a `StatementError`. -/
def intAsFloat (n : ℤ) : Except Exn PyFloat :=
  if Binary64.units n < Binary64.bound then .ok (.ofRat n) else .error .statementError

/-- A JSON value assigned to a column of a type: the stored value, or the
    exception raised by the bind processor or the driver. -/
def bindJson : ColType → Json → Except Exn Value
  | _, .null => .ok .null
  | .integer, .bool b => .ok (.int (if b then 1 else 0))
  | .integer, .int n => if inInt64 n then .ok (.int n) else .error .overflowError
  | .integer, .float x => .ok (floatAsInteger x)
  | .integer, .str s => .ok (textAsInteger s)
  | .integer, _ => .error .interfaceError
  | .string, .bool b => .ok (.text (if b then "1" else "0"))
  | .string, .int n => if inInt64 n then .ok (.text (toString n)) else .error .overflowError
  | .string, .float .nan => .ok .null
  | .string, .float x => .ok (.text (realText x))
  | .string, .str s => .ok (.text s)
  | .string, _ => .error .interfaceError
  | .float, .bool b => .ok (.real (.ofRat (if b then 1 else 0)))
  | .float, .int n => floatAsReal <$> intAsFloat n
  | .float, .float x => .ok (floatAsReal x)
  | .float, .str s => (pyFloat s).elim (.error .statementError) fun x => .ok (floatAsReal x)
  | .float, _ => .error .statementError
  | .boolean, .bool b => .ok (.bool b)
  | .boolean, .int n =>
    if n = 0 then .ok (.bool false) else if n = 1 then .ok (.bool true) else .error .statementError
  | .boolean, .float (.finite x) =>
    if x.value = 0 then .ok (.bool false)
    else if x.value = 1 then .ok (.bool true)
    else .error .statementError
  | .boolean, _ => .error .statementError
  | .date, _ => .error .statementError
  | .time, _ => .error .statementError
  | .dateTime, _ => .error .statementError

theorem bindJson_int {n : ℤ} {v : Value} (h : bindJson .integer (.int n) = .ok v) : v = .int n := by
  simp only [bindJson] at h
  split_ifs at h
  exact (Except.ok.inj h).symm

/-- The canonical values of a column type, NULL aside. -/
def fits : ColType → Value → Bool
  | .integer, .int n => inInt64 n
  | .integer, .real .nan => false
  | .integer, .real x => sqlite3VdbeIntegerAffinity x == .real x
  | .integer, .text s => applyNumericAffinity s == none
  | .string, .text _ => true
  | .float, .real .nan => false
  | .float, .real _ => true
  | .boolean, .bool _ => true
  | .date, .date _ => true
  | .time, .time _ => true
  | .dateTime, .dateTime _ _ => true
  | _, _ => false

/-- A value in the canonical form of a column type, or NULL. -/
def Canonical (ty : ColType) (v : Value) : Prop := v = .null ∨ fits ty v = true

instance (ty : ColType) (v : Value) : Decidable (Canonical ty v) := by
  unfold Canonical; infer_instance

theorem canonical_null (ty : ColType) : Canonical ty .null := Or.inl rfl

theorem canonical_affinity {x : PyFloat} (hx : x ≠ .nan) :
    Canonical .integer (.ofNumber (sqlite3VdbeIntegerAffinity x)) := by
  right
  cases haffinity : sqlite3VdbeIntegerAffinity x with
  | int n =>
    have hbounds := sqlite3VdbeIntegerAffinity_int haffinity
    exact (inInt64_iff n).mpr ⟨by omega, by omega⟩
  | real y =>
    obtain rfl := sqlite3VdbeIntegerAffinity_real haffinity
    cases y <;> first | exact absurd rfl hx | exact beq_iff_eq.mpr haffinity

theorem canonical_floatAsInteger (x : PyFloat) : Canonical .integer (floatAsInteger x) := by
  by_cases hx : x = .nan
  · subst hx
    exact canonical_null _
  · have hfloat : floatAsInteger x = .ofNumber (sqlite3VdbeIntegerAffinity x) := by
      cases x <;> first | exact absurd rfl hx | rfl
    rw [hfloat]
    exact canonical_affinity hx

theorem canonical_textAsInteger (s : String) : Canonical .integer (textAsInteger s) := by
  rw [textAsInteger]
  cases hnumber : applyNumericAffinity s with
  | none => exact Or.inr (beq_iff_eq.mpr hnumber)
  | some number =>
    rcases applyNumericAffinity_cases hnumber with ⟨n, rfl, hn⟩ | ⟨x, hx, rfl⟩
    · exact Or.inr hn
    · exact canonical_affinity hx

theorem canonical_floatAsReal (x : PyFloat) : Canonical .float (floatAsReal x) := by
  cases x with
  | finite q => exact Or.inr rfl
  | inf negative => exact Or.inr rfl
  | nan => exact Or.inl rfl

theorem canonical_real {x : PyFloat} (hx : x ≠ .nan) : Canonical .float (.real x) := by
  right
  cases x <;> first | exact absurd rfl hx | rfl

/-- **What is stored is canonical.** -/
theorem bindJson_canonical {ty : ColType} {j : Json} {v : Value} (h : bindJson ty j = .ok v) :
    Canonical ty v := by
  cases j with
  | null => cases ty <;> cases h <;> exact canonical_null _
  | bool b =>
    cases ty with
    | float => cases h; exact canonical_real (Binary64.ofRat_ne_nan _)
    | integer => cases h; exact Or.inr (by cases b <;> rfl)
    | _ => cases h <;> exact Or.inr rfl
  | int n =>
    cases ty with
    | float =>
      simp only [bindJson] at h
      cases hfloat : intAsFloat n with
      | error e => rw [hfloat] at h; cases h
      | ok x => rw [hfloat] at h; cases h; exact canonical_floatAsReal x
    | _ =>
      simp only [bindJson] at h
      try split_ifs at h
      all_goals cases h
      all_goals exact Or.inr (by simp_all [fits])
  | float x =>
    cases ty with
    | integer => cases h; exact canonical_floatAsInteger x
    | float => cases h; exact canonical_floatAsReal x
    | string => cases x <;> cases h <;> first | exact canonical_null _ | exact Or.inr rfl
    | boolean =>
      cases x <;> simp only [bindJson] at h <;> (try split_ifs at h) <;> cases h <;>
        exact Or.inr rfl
    | _ => cases h
  | str s =>
    cases ty with
    | integer => cases h; exact canonical_textAsInteger s
    | string => cases h; exact Or.inr rfl
    | float =>
      simp only [bindJson] at h
      cases hs : pyFloat s with
      | none => rw [hs] at h; cases h
      | some x => rw [hs] at h; cases h; exact canonical_floatAsReal x
    | _ => cases h
  | list items => cases ty <;> cases h
  | dict entries => cases ty <;> cases h

/-! ## Back to JSON -/

/-- `jsonify` of a column value. (A `Time` is never passed to `jsonify`: the
    handlers format times first.) -/
def Value.toJson : Value → Json
  | .null => .null
  | .int n => .int n
  | .real x => .float x
  | .text s => .str s
  | .bool b => .bool b
  | .date d => .str (httpDate d)
  | .time t => .str t.strftime
  | .dateTime d t => .str (httpDateTime d t.hour t.minute t.second)

/-- The types whose values a client gets back the way they are stored. -/
def ColType.plain : ColType → Bool
  | .date | .time | .dateTime => false
  | _ => true

/-- **A canonical value sent back as JSON is stored as the same value.** -/
theorem bindJson_toJson {ty : ColType} {v : Value} (hty : ty.plain = true) (h : Canonical ty v) :
    bindJson ty v.toJson = .ok v := by
  rcases h with rfl | h
  · cases ty <;> rfl
  · cases ty with
    | integer =>
      cases v with
      | int n => simp only [fits] at h; simp [Value.toJson, bindJson, h]
      | real x =>
        cases x with
        | finite x =>
          have haffinity := beq_iff_eq.mp h
          simp only [Value.toJson, bindJson, floatAsInteger, haffinity, Value.ofNumber]
        | inf negative => rfl
        | nan => cases h
      | text s =>
        have hnumber : applyNumericAffinity s = none := beq_iff_eq.mp h
        simp only [Value.toJson, bindJson, textAsInteger, hnumber, Option.elim_none]
      | _ => cases h
    | string => cases v <;> first | rfl | cases h
    | float =>
      cases v with
      | real x => cases x <;> first | rfl | cases h
      | _ => cases h
    | boolean => cases v <;> first | rfl | cases h
    | _ => cases hty

/-- The truth value of an attribute. -/
def Value.truthy : Value → Bool
  | .null => false
  | .int n => n != 0
  | .real (.finite x) => x.value != 0
  | .text s => s != ""
  | .bool b => b
  | _ => true

/-- `data['k'] == row.k` for a text column. -/
def equalsText : Json → Value → Bool
  | .null, .null => true
  | .str s, .text t => s == t
  | _, _ => false

end ProjectEvaluation.Backend
