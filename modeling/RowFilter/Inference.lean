import RowFilter.Calendar
import RowFilter.Compile
import RowFilter.Table

/-!
# RowFilter — inferred schemas

The type of a column follows from its cells. Missing cells do not count; integers together with
floating-point numbers are `float`; texts of different kinds are `string`; every other mix, and a column
without any cell, is `unknown`.

Main results:

* `kind_null` — only a missing cell has no type of its own.
* `join_self`, `join_comm` — combining types does not depend on their order.
-/

namespace RowFilter

namespace Inference

open Calendar (Parsers)

/-- The formats of a date together with a time. -/
def dateTimeFormats : List String := ["%Y-%m-%d %H:%M:%S", "%Y-%m-%dT%H:%M:%S", "%Y-%m-%d %H:%M"]

/-- The format of a date. -/
def dateFormat : String := "%Y-%m-%d"

/-- The formats of a time of day. -/
def timeFormats : List String := ["%H:%M:%S", "%H:%M"]

/-- The type of a text: that of the calendar format it is written in, or `string`. -/
def textType [Parsers] (s : String) : LogicalType :=
  let s := Text.trim s.toList
  if Parsers.isStamp s || dateTimeFormats.any fun format => Parsers.isDateTime format s then .datetime
  else if (Parsers.date? dateFormat s).isSome then .date
  else if timeFormats.any fun format => (Parsers.time? format s).isSome then .time
  else .string

/-- A text compares as text, whatever format it is written in. -/
theorem isTextual_textType [Parsers] (s : String) : (textType s).isTextual = true := by
  unfold textType
  simp only
  repeat' split
  all_goals rfl

/-- The type of one cell. -/
def kind [Parsers] : Value → Option LogicalType
  | .null => none
  | .bool _ => some .boolean
  | .int _ => some .integer
  | .float _ => some .float
  | .text s => some (textType s)

theorem kind_null [Parsers] (v : Value) : kind v = none ↔ v = .null := by
  cases v <;> simp [kind]

/-- The type of two cells together, unless they do not mix. -/
def join (a b : LogicalType) : Option LogicalType :=
  if a = b then some a
  else if (a = .integer ∧ b = .float) ∨ (a = .float ∧ b = .integer) then some .float
  else if a.isTextual && b.isTextual then some .string
  else none

theorem join_self (a : LogicalType) : join a a = some a := by simp [join]

theorem join_comm (a b : LogicalType) : join a b = join b a := by
  cases a <;> cases b <;> decide

/-- Goes through the cells behind the first, which have the type `seen` so far. -/
def columnTypeFrom [Parsers] (seen : LogicalType) : List Value → LogicalType
  | [] => seen
  | v :: rest =>
    match kind v with
    | none => columnTypeFrom seen rest
    | some t =>
      match join seen t with
      | some both => columnTypeFrom both rest
      | none => .unknown

/-- The type of a column with these cells. -/
def columnType [Parsers] : List Value → LogicalType
  | [] => .unknown
  | v :: rest =>
    match kind v with
    | none => columnType rest
    | some t => columnTypeFrom t rest

/-- The types of the columns from a place on. -/
def schemaFrom [Parsers] (t : Table) (index : Nat) : List String → List (String × LogicalType)
  | [] => []
  | name :: rest => (name, columnType (t.columnValues index)) :: schemaFrom t (index + 1) rest

end Inference

/-- The schema of a table by its cells. -/
def Table.schema [Calendar.Parsers] (t : Table) : Schema := Store.ofList (Inference.schemaFrom t 0 t.columns)

end RowFilter
