import RowFilter.Predicate
import RowFilter.Query.Token

/-!
# RowFilter — errors of a filter

A filter either answers or fails with exactly one of these errors. Each error holds its cause; the
wording is in `FilterError.message`.
-/

namespace RowFilter

/-- What is wrong with the text of a query. -/
inductive SyntaxFault
  | emptyQuery
  | unterminatedColumn
  | unterminatedValue
  /-- A `not` that no `in` follows. -/
  | loneNot
  | unrecognizedOperator (word : String)
  | countMismatch (columns operators : Nat)
  | operatorWithoutValue (text : String)
  | valueWithoutOperator (text : String)
  | emptyColumn
  | nestingTooDeep
  | unclosedParenthesis
  | unexpected (kind : Query.TokenKind) (text : String)
  | unexpectedEnd (wanted : Query.TokenKind)
  | unwanted (wanted found : Query.TokenKind) (text : String)
deriving DecidableEq, Repr

/-- The wording of a fault. -/
def SyntaxFault.message : SyntaxFault → String
  | emptyQuery => "empty query"
  | unterminatedColumn => "unterminated column reference"
  | unterminatedValue => "unterminated value reference"
  | loneNot => "expected 'in' after 'not'"
  | unrecognizedOperator word => "unrecognized operator '" ++ word ++ "'"
  | countMismatch columns operators =>
    toString columns ++ " column reference(s) but " ++ toString operators ++ " operator(s)"
  | operatorWithoutValue text => "operator '" ++ text ++ "' has no value reference"
  | valueWithoutOperator text => "value reference '\x7b" ++ text ++ "\x7d' has no operator"
  | emptyColumn => "empty column reference"
  | nestingTooDeep => "nesting too deep"
  | unclosedParenthesis => "unclosed parenthesis"
  | unexpected kind text => "unexpected " ++ kind.name ++ " '" ++ text ++ "'"
  | unexpectedEnd wanted => "expected " ++ wanted.wanted ++ ", found end of query"
  | unwanted wanted found text =>
    "expected " ++ wanted.wanted ++ ", found " ++ found.name ++ " '" ++ text ++ "'"

/-- Why a predicate has no answer for a cell. -/
inductive EvaluationFault
  | unordered (cell literal : Value)
  /-- The operand has the wrong shape for the operator that is applied. -/
  | misfit (operand : Operand) (operator : Operator)
deriving DecidableEq, Repr

/-- The wording of a fault. -/
def EvaluationFault.message : EvaluationFault → String
  | unordered cell literal => "cannot order " ++ cell.display ++ " against " ++ literal.display
  | misfit operand operator =>
    "operand " ++ operand.debug ++ " does not fit operator '" ++ operator.name ++ "'"

/-- An error of a filter. -/
inductive FilterError
  | querySyntax (offset : Nat) (fault : SyntaxFault)
  | unknownColumn (column : String) (offset : Nat)
  | unsupportedOperator (operator : Operator) (column : String) (type : LogicalType)
  | betweenCount (raw : String) (count : Nat)
  | listNotFound (user list : String)
  | unknownSchema (dataset : String)
  | unknownDataset (dataset : String)
  | columnNotFound (column : String)
  | evaluation (predicate : Predicate) (fault : EvaluationFault)
  | invalidPagination (offset limit : UInt64)
deriving DecidableEq, Repr

/-- The literal of a predicate as an evaluation error shows it: a scalar by its value, sets and ranges
by the whole predicate. -/
def Predicate.shownLiteral (p : Predicate) : String :=
  match p.operand with
  | .none => ""
  | .scalar v => v.display
  | .set _ => p.display
  | .range _ _ => p.display

/-- A literal as it was written, for diagnostics. -/
def shownRaw : Option String → String
  | none => "None"
  | some s => "Some(" ++ Text.quoted s ++ ")"

/-- The wording of an error. -/
def FilterError.message : FilterError → String
  | querySyntax offset fault =>
    "Query syntax error at offset " ++ toString offset ++ ": " ++ fault.message
  | unknownColumn column offset =>
    "Unknown column '" ++ column ++ "' at offset " ++ toString offset
  | unsupportedOperator operator column type =>
    "Operator '" ++ operator.name ++ "' is not supported for column '" ++ column ++ "' of type "
      ++ type.name
  | betweenCount raw count =>
    "between expects exactly 2 comma-separated values, got " ++ toString count ++ " in '" ++ raw
      ++ "'"
  | listNotFound user list => "Named list '" ++ list ++ "' not found for user '" ++ user ++ "'"
  | unknownSchema dataset =>
    "Failed to resolve schema for dataset '" ++ dataset ++ "': dataset is not registered"
  | unknownDataset dataset =>
    "Failed to load dataset '" ++ dataset ++ "': dataset is not registered"
  | columnNotFound column => "Column '" ++ column ++ "' not found in dataset"
  | evaluation p fault =>
    "Evaluation error on column '" ++ p.column ++ "' with operator '" ++ p.operator.name
      ++ "' (raw value " ++ shownRaw p.raw ++ ", cast value " ++ p.shownLiteral ++ "): "
      ++ fault.message
  | invalidPagination offset limit =>
    "Invalid pagination: offset=" ++ toString offset ++ ", limit=" ++ toString limit
      ++ " (limit must be positive)"

end RowFilter
