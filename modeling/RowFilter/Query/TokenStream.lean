import RowFilter.Query.Word

/-!
# RowFilter — the tokens of a query

A query is scanned for columns, then for literals, and the words outside both give operators and
conjunctions. At the end the tokens are counted: there must be an operator for each column and a
literal for each operator that takes one.

Main results:

* `TokenStream.checkValues_ok_iff` — the literals are as many as the operators want.
-/

namespace RowFilter.Query

namespace TokenStream

/-- The number of literals that an operator token wants; an unknown one wants one. -/
def wantedBy (t : Token) : Nat :=
  match Operator.ofKeyword? t.text.toList with
  | some op => op.arity
  | none => 1

/-- Gives operators their literals in order. The first operator without a literal is an error, or
else the first literal that is left. -/
def checkValues : List Token → List Token → Except FilterError Unit
  | [], [] => .ok ()
  | [], v :: _ => .error (.querySyntax v.start (.valueWithoutOperator v.text))
  | o :: os, vs =>
    if wantedBy o = 1 then
      match vs with
      | [] => .error (.querySyntax o.start (.operatorWithoutValue o.text))
      | _ :: vs => checkValues os vs
    else checkValues os vs

/-- Checks that columns, operators and literals fit in number. -/
def checkCounts (s : TokenStream) : Except FilterError Unit :=
  let fault := SyntaxFault.countMismatch s.columns.length s.operators.length
  match s.columns.drop s.operators.length, s.operators.drop s.columns.length with
  | c :: _, _ => .error (.querySyntax c.start fault)
  | [], o :: _ => .error (.querySyntax o.start fault)
  | [], [] => checkValues s.operators s.values

theorem checkValues_ok_iff (os vs : List Token) :
    checkValues os vs = .ok () ↔ vs.length = (os.filter fun o => wantedBy o = 1).length := by
  induction os generalizing vs with
  | nil => cases vs <;> simp [checkValues]
  | cons o os ih =>
    by_cases h : wantedBy o = 1
    · cases vs with
      | nil => simp [checkValues, h]
      | cons v vs => simp [checkValues, h, ih]
    · simp [checkValues, h, ih]

end TokenStream

/-- The words outside the markers, run by run. -/
def plainWords (markers : List Token) (s : List Char) : List (List Word) :=
  (plainRuns markers 0 s).map fun r => wordsFrom r.1 [] r.2

/-- The tokens of a query, or the first error of its scans and counts. -/
def tokenize (query : String) : Except FilterError TokenStream := do
  let s := query.toList
  let columns ← scanColumns 0 s
  let values ← scanValues 0 false s
  let runs := plainWords (columns ++ values) s
  let operators ← runs.mapM operatorTokens
  let stream : TokenStream :=
    ⟨columns, operators.flatten, values, conjunctionTokens runs.flatten⟩
  stream.checkCounts
  return stream

end RowFilter.Query
