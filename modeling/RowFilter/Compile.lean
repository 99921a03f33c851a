import RowFilter.Literal.Elements
import RowFilter.Query.Reading

/-!
# RowFilter — compiling a query

A query is compiled against the schema of a dataset in three passes: every clause is checked, then the
named lists are looked up, each once for a name and a type, and then the literals are cast. So an error
that needs no look-up always comes first. The two later passes check a clause again to get the type of its
column.

Main results:

* `checkClause_eq_ok` — a checked clause is the clause itself with the type of its column.
-/

namespace RowFilter

open Query (Clause)
open Literal (NamedLists)

/-- The types of the columns of a dataset. -/
abbrev Schema := Store String LogicalType

namespace Compile

/-- The literal of a clause, or no characters. -/
def rawOf (c : Clause) : List Char := (c.value.getD "").toList

/-- The operators on ranges. -/
def takesRange (op : Operator) : Bool := op == .between || op == .notBetween

/-- The operators on named lists. -/
def takesList (op : Operator) : Bool := op == .inUserList || op == .notInUserList

/-! ## First pass: checks -/

/-- Finds the type of the column, and checks the operator against it and the count of a range. -/
def checkClause (schema : Schema) (c : Clause) : Except FilterError (Clause × LogicalType) :=
  match schema.find? c.column with
  | none => .error (.unknownColumn c.column c.offset)
  | some type =>
    if c.operator.supports type then
      if takesRange c.operator then (Literal.bounds (rawOf c)).map fun _ => (c, type)
      else .ok (c, type)
    else .error (.unsupportedOperator c.operator c.column type)

/-- The first pass over a query. -/
def checkAll (schema : Schema) (query : Formula Clause) : Except FilterError Unit :=
  forM query.leaves fun c => (checkClause schema c).map fun _ => ()

theorem checkClause_eq_ok {schema : Schema} {c : Clause} {r : Clause × LogicalType}
    (h : checkClause schema c = .ok r) : r.1 = c ∧ schema.find? c.column = some r.2 := by
  unfold checkClause at h
  split at h
  · cases h
  · rename_i type ht
    split at h
    · split at h
      · cases hb : Literal.bounds (rawOf c) with
        | error e => rw [hb] at h; cases h
        | ok b => rw [hb] at h; cases h; exact ⟨rfl, ht⟩
      · cases h
        exact ⟨rfl, ht⟩
    · cases h

/-! ## Second pass: named lists -/

/-- Lists that were looked up, by name and type. -/
abbrev Resolved := List ((String × LogicalType) × List Value)

/-- The name and type under which the list of a clause is looked up. -/
def listKey (c : Clause) (type : LogicalType) : String × LogicalType :=
  (String.ofList (Literal.unquote (rawOf c)), type)

/-- Looks the list of a clause up, unless that was done before. -/
def resolveList (lists : NamedLists) (user : String) (found : Resolved)
    (c : Clause × LogicalType) : Traced Resolved :=
  let key := listKey c.1 c.2
  match found.lookup key with
  | some _ => pure found
  | none => do
    let items ← Literal.resolveTraced lists user key.1.toList c.2
    return found ++ [(key, items)]

/-- The second pass over a query. -/
def resolveLists (schema : Schema) (lists : NamedLists) (user : String) (query : Formula Clause) :
    Traced Resolved :=
  let step (found : Resolved) (c : Clause) : Traced Resolved :=
    if takesList c.operator then do
      let checked ← Traced.ofExcept (checkClause schema c)
      resolveList lists user found checked
    else pure found
  query.leaves.foldlM step []

/-! ## Third pass: operands -/

/-- A bare word for a missing value. -/
def isNullWord (raw : List Char) : Bool :=
  let word := Literal.unquote raw
  Text.sameIgnoringCase word "null".toList || Text.sameIgnoringCase word "none".toList

/-- The operand of a clause. A clause whose list was not looked up has no operand. -/
def operandTraced (user : String) (found : Resolved) (c : Clause) (type : LogicalType) :
    Traced Operand :=
  let raw := rawOf c
  match c.operator with
  | .null | .notNull => return .none
  | .inSet | .notInSet => do
    return .set (← Literal.castAllTraced (Literal.elements raw) type)
  | .inUserList | .notInUserList =>
    match found.lookup (listKey c type) with
    | some items => return .set items
    | none => throw (.listNotFound user (listKey c type).1)
  | .between | .notBetween => do
    let (low, high) ← Literal.rangeTraced raw type
    return .range low high
  | _ => do return .scalar (← Literal.castTraced raw type)

/-- The predicate of a clause; `is` with a word for a missing value becomes the test for it. -/
def predicateTraced (user : String) (found : Resolved) (c : Clause × LogicalType) :
    Traced Predicate :=
  let (clause, type) := c
  if clause.operator = .is ∧ isNullWord (rawOf clause) then
    return ⟨clause.column, type, .null, .none, clause.value, clause.offset⟩
  else do
    let operand ← operandTraced user found clause type
    return ⟨clause.column, type, clause.operator, operand, clause.value, clause.offset⟩

/-- The third pass over a query. -/
def build (schema : Schema) (user : String) (found : Resolved) (query : Formula Clause) :
    Traced (Formula Predicate) :=
  query.traverse fun c => do
    let checked ← Traced.ofExcept (checkClause schema c)
    predicateTraced user found checked

/-- Compiles a query that has been read from `source`. -/
def formula (schema : Schema) (lists : NamedLists) (user source : String)
    (query : Formula Clause) : Traced Compiled := do
  -- nothing is looked up before every clause has been checked, and nothing is cast before that
  Traced.ofExcept (checkAll schema query)
  let found ← resolveLists schema lists user query
  let root ← build schema user found query
  let compiled : Compiled := ⟨source, root⟩
  Traced.report (.compiled compiled)
  return compiled

/-- Reads and compiles a query. -/
def text (schema : Schema) (lists : NamedLists) (user source : String) : Traced Compiled := do
  let query ← Traced.ofExcept (Query.parse source)
  formula schema lists user source query

end Compile

end RowFilter
