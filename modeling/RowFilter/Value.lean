import RowFilter.Json.Writer
import RowFilter.Text.Quoted
import RowFilter.Word

/-!
# RowFilter — cells and literals

A value is a cell of a table or a typed literal of a query: nothing, a truth value, a signed 64-bit
integer, a floating-point number or a text.

Integers and floating-point numbers compare with each other as floating-point numbers, so an integer
is rounded first. Texts compare code point by code point. All other pairs have no order.

Main results:

* `Value.ofJson_toJson` — all values but infinities and what is no number survive JSON.
-/

namespace RowFilter

/-- A cell of a table, or a typed literal. -/
inductive Value
  | null
  | bool (b : Bool)
  | int (i : Int64)
  | float (x : Binary64)
  | text (s : String)
deriving DecidableEq, Repr, Inhabited

namespace Value

/-- Nothing. -/
def isNull : Value → Bool
  | null => true
  | _ => false

/-- The number that a numeric value compares as. -/
def number? : Value → Option Binary64
  | int i => some (Binary64.ofInt i.toInt)
  | float x => some x
  | _ => none

/-- The order of two values, if they have one. -/
def compare? : Value → Value → Option Ordering
  | int a, int b => some (compare a b)
  | text a, text b => some (compare a b)
  | bool a, bool b => some (compare a b)
  | a, b => do (← a.number?).compare? (← b.number?)

/-- A truth value as a word. -/
def boolText (b : Bool) : String := if b then "true" else "false"

/-- The text of a value without quotes, as text operators see it. -/
def toText : Value → String
  | null => ""
  | bool b => boolText b
  | int i => toString i.toInt
  | float x => Decimal.plainLayout.render x
  | text s => s

/-- A value as messages show it: a text stands between apostrophes. -/
def display : Value → String
  | null => "null"
  | text s => "'" ++ s ++ "'"
  | v => v.toText

/-- A value as diagnostics show it: with its kind, and a text quoted. -/
def debug : Value → String
  | null => "Null"
  | bool b => "Boolean(" ++ boolText b ++ ")"
  | int i => "Integer(" ++ toString i.toInt ++ ")"
  | float x => "Float(" ++ Decimal.debugLayout.render x ++ ")"
  | text s => "String(" ++ Text.quoted s ++ ")"

/-! ## JSON -/

/-- An integer that fits 64 bits stays one, and every other number is a floating-point number. Arrays
and objects are kept as their text. -/
def ofJson : Json → Value
  | .null => null
  | .bool b => bool b
  | .int i =>
    match toInt64? i with
    | some w => int w
    | none => float (Binary64.ofInt i)
  | .float x => float x
  | .string s => text s
  | j => text j.compact

/-- A value in JSON; what is not a finite number is null. -/
def toJson : Value → Json
  | null => .null
  | bool b => .bool b
  | int i => .int i.toInt
  | float x => if x.isFinite then .float x else .null
  | text s => .string s

theorem ofJson_toJson {v : Value} (h : ∀ x, v = float x → x.isFinite = true) :
    ofJson v.toJson = v := by
  cases v with
  | null => rfl
  | bool b => rfl
  | int i => simp [toJson, ofJson, toInt64?_eq_some_iff.2 rfl]
  | float x => simp [toJson, ofJson, h x rfl]
  | text s => rfl

end Value

end RowFilter
