import RowFilter.LogicalType
import RowFilter.Text.Blank
import RowFilter.Text.Lowercase

/-!
# RowFilter — operators

The operators that stand between a column and a literal. Their spellings are found after blanks are
collapsed and the case is dropped; each has one canonical name.

Main results:

* `Operator.ofKeyword?_name` — an operator is found by its canonical name.
-/

namespace RowFilter

/-- An operator of a clause. -/
inductive Operator
  | eq
  | ne
  | lt
  | le
  | gt
  | ge
  | is
  | inSet
  | notInSet
  | inUserList
  | notInUserList
  | between
  | notBetween
  | contains
  | doesNotContain
  | beginsWith
  | endsWith
  | null
  | notNull
deriving DecidableEq, Repr

namespace Operator

/-- The canonical name. -/
def name : Operator → String
  | eq => "="
  | ne => "!="
  | lt => "<"
  | le => "<="
  | gt => ">"
  | ge => ">="
  | is => "is"
  | inSet => "in"
  | notInSet => "not in"
  | inUserList => "inUserList"
  | notInUserList => "notInUserList"
  | between => "between"
  | notBetween => "notBetween"
  | contains => "contains"
  | doesNotContain => "doesNotContain"
  | beginsWith => "beginsWith"
  | endsWith => "endsWith"
  | null => "null"
  | notNull => "notNull"

/-- Every spelling in lower case. -/
def spellings : List (String × Operator) :=
  [("=", eq), ("==", eq), ("!=", ne), ("<", lt), ("<=", le), (">", gt), (">=", ge), ("is", is),
    ("in", inSet), ("not in", notInSet), ("notin", notInSet), ("inuserlist", inUserList),
    ("notinuserlist", notInUserList), ("between", between), ("notbetween", notBetween),
    ("contains", contains), ("doesnotcontain", doesNotContain), ("beginswith", beginsWith),
    ("endswith", endsWith), ("null", null), ("notnull", notNull)]

/-- A keyword with single spaces between its words, in lower case. -/
def normalize (s : List Char) : List Char :=
  Text.lowercase (List.intercalate [' '] (Text.words s))

/-- The operator with a spelling. -/
def ofKeyword? (s : List Char) : Option Operator :=
  (spellings.find? fun p => p.1.toList == normalize s).map Prod.snd

/-- The number of literals an operator takes. -/
def arity : Operator → Nat
  | null | notNull => 0
  | _ => 1

/-- Operators on parts of a text, for textual columns only. -/
def isText : Operator → Bool
  | contains | doesNotContain | beginsWith | endsWith => true
  | _ => false

/-- Operators that need an order of cell and literal. -/
def isOrdering : Operator → Bool
  | lt | le | gt | ge | between | notBetween => true
  | _ => false

/-- For a negated operator, the one whose answer it turns around. -/
def negates? : Operator → Option Operator
  | ne => some eq
  | notInSet => some inSet
  | notInUserList => some inUserList
  | notBetween => some between
  | doesNotContain => some contains
  | notNull => some null
  | _ => none

/-- May the operator stand behind a column of this type? -/
def supports (op : Operator) (type : LogicalType) : Bool := !op.isText || type.isTextual

theorem ofKeyword?_name (op : Operator) : ofKeyword? op.name.toList = some op := by
  cases op <;> decide +kernel

end Operator

end RowFilter
