import RowFilter.Formula
import RowFilter.Operator

/-!
# RowFilter — clauses

A query is a formula of clauses, each of which is a condition on one column.
-/

namespace RowFilter.Query

/-- A condition on one column, as it was written. -/
structure Clause where
  column : String
  /-- Where the column reference starts. -/
  offset : Nat
  operator : Operator
  value : Option String
deriving DecidableEq, Repr

end RowFilter.Query
