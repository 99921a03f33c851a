import RowFilter.Decimal.Numeral
import RowFilter.Traced
import RowFilter.Word

/-!
# RowFilter — typed literals

The text of a literal becomes a value of its column's type. Blanks around it and one pair of quotes go
first. Literals of numeric and boolean columns that do not read as such stay texts, and a warning says
so; literals of all other columns are texts.

Main results:

* `outcome_castTraced` — casting with a report gives the plain cast.
* `cast_of_isTextual` — a literal of a textual column is its unquoted text.
-/

namespace RowFilter.Literal

open Text (trim lowercase)

/-- Drops one quote at both ends. -/
def dropQuotes (q : Char) (s : List Char) : Option (List Char) :=
  match s with
  | c :: d :: rest => if c = q ∧ (d :: rest).getLast? = some q then some (d :: rest).dropLast else none
  | _ => none

/-- Trims blanks and drops one pair of equal quotes around the rest. -/
def unquote (s : List Char) : List Char :=
  let trimmed := trim s
  ((dropQuotes '\'' trimmed).or (dropQuotes '"' trimmed)).getD trimmed

/-- Reads an integer that fits 64 bits. -/
def readInt64? (s : List Char) : Option Int64 :=
  (Decimal.readInt? s).bind toInt64?

/-- Reads a finite number. -/
def readFinite? (s : List Char) : Option Binary64 := (Decimal.readFloat? s).filter Binary64.isFinite

/-- Reads one of the words for true and false; any other number is true unless it is zero. -/
def readBool? (s : List Char) : Option Bool :=
  let word := String.ofList (lowercase s)
  if word ∈ ["true", "1", "yes", "on"] then some true
  else if word ∈ ["false", "0", "no", "off"] then some false
  else (readFinite? s).map fun x => !x.isZero

/-- Reads a value of a type. An integer column also takes numbers that are no integers. -/
def read? (type : LogicalType) (s : List Char) : Option Value :=
  match type with
  | .integer => ((readInt64? s).map .int).or ((readFinite? s).map .float)
  | .float => (readFinite? s).map .float
  | .boolean => (readBool? s).map .bool
  | _ => some (.text (String.ofList s))

/-- The value of a literal for a column of a type. -/
def cast (raw : List Char) (type : LogicalType) : Value :=
  let s := unquote raw
  (read? type s).getD (.text (String.ofList s))

/-- Casts a literal, and warns if it does not read as a value of the type. -/
def castTraced (raw : List Char) (type : LogicalType) : Traced Value := do
  let s := unquote raw
  if (read? type s).isNone then
    Traced.report (.castFallback (String.ofList s) type)
  return cast raw type

@[simp] theorem outcome_castTraced (raw : List Char) (type : LogicalType) :
    (castTraced raw type).outcome = .ok (cast raw type) := by
  simp only [castTraced]
  split <;> rfl

theorem cast_of_isTextual (raw : List Char) {type : LogicalType} (h : type.isTextual = true) :
    cast raw type = .text (String.ofList (unquote raw)) := by
  cases type <;> first | rfl | cases h

/-- Casts several literals in order. -/
def castAllTraced (raws : List (List Char)) (type : LogicalType) : Traced (List Value) :=
  raws.mapM fun raw => castTraced raw type

end RowFilter.Literal
