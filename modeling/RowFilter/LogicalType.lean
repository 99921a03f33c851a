/-!
# RowFilter — logical types of columns

Every column has one of eight types. The numeric ones and `boolean` compare by value; cells of all
others compare as text.
-/

namespace RowFilter

/-- The type of a column. -/
inductive LogicalType
  | integer
  | float
  | string
  | boolean
  | datetime
  | date
  | time
  | unknown
deriving DecidableEq, Repr

namespace LogicalType

/-- All types, in their usual order. -/
def all : List LogicalType := [integer, float, string, boolean, datetime, date, time, unknown]

/-- The name of a type. -/
def name : LogicalType → String
  | integer => "integer"
  | float => "float"
  | string => "string"
  | boolean => "boolean"
  | datetime => "datetime"
  | date => "date"
  | time => "time"
  | unknown => "unknown"

/-- The type with a name. -/
def ofName? (s : String) : Option LogicalType := all.find? fun t => t.name == s

/-- Cells of these types compare as text. -/
def isTextual : LogicalType → Bool
  | integer | float | boolean => false
  | _ => true

end LogicalType

end RowFilter
