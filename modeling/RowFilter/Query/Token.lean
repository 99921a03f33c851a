import RowFilter.Text.Lowercase

/-!
# RowFilter — tokens of a query

A query consists of column references, operators, literals and conjunctions. Each token knows the
bytes it covers. The four kinds are kept in lists of their own, and put into source order when the
query is read.

Main results:

* `TokenStream.merged_perm` — putting the tokens in order loses none and adds none.
-/

namespace RowFilter.Query

/-- The kinds of tokens. -/
inductive TokenKind
  | column
  | operator
  | value
  | conjunction
deriving DecidableEq, Repr

/-- The name of a kind in messages. -/
def TokenKind.name : TokenKind → String
  | .column => "column"
  | .operator => "operator"
  | .value => "value"
  | .conjunction => "conjunction"

/-- What the reader says it wants when it wants a token of a kind. -/
def TokenKind.wanted : TokenKind → String
  | .column => "column reference"
  | .operator => "operator"
  | .value => "value reference"
  | .conjunction => "conjunction"

/-- The words and marks between clauses. -/
inductive Conjunction
  | and
  | or
  | opening
  | closing
deriving DecidableEq, Repr

/-- The conjunction that a text spells, in any case. -/
def Conjunction.ofKeyword? (s : List Char) : Option Conjunction :=
  let word := Text.lowercase s
  if word = ['a', 'n', 'd'] then some .and
  else if word = ['o', 'r'] then some .or
  else if word = ['('] then some .opening
  else if word = [')'] then some .closing
  else none

/-- A token: its text without the marks around a column or a literal, and the bytes from `start` to
`stop` that it covers with them. -/
structure Token where
  kind : TokenKind
  text : String
  start : Nat
  stop : Nat
deriving DecidableEq, Repr

/-- The conjunction of a token of that kind. -/
def Token.conjunction? (t : Token) : Option Conjunction :=
  if t.kind = .conjunction then Conjunction.ofKeyword? t.text.toList else none

/-- The tokens of a query by kind. -/
structure TokenStream where
  columns : List Token
  operators : List Token
  values : List Token
  conjunctions : List Token
deriving DecidableEq, Repr

namespace TokenStream

/-- No tokens at all. -/
def isEmpty (s : TokenStream) : Bool :=
  s.columns.isEmpty && s.operators.isEmpty && s.values.isEmpty && s.conjunctions.isEmpty

/-- The tokens in the order of their starts; tokens that start together stay in the order of the
lists. -/
def merged (s : TokenStream) : List Token :=
  (s.columns ++ s.operators ++ s.values ++ s.conjunctions).mergeSort fun a b => a.start ≤ b.start

theorem merged_perm (s : TokenStream) :
    s.merged.Perm (s.columns ++ s.operators ++ s.values ++ s.conjunctions) :=
  List.mergeSort_perm _ _

end TokenStream

end RowFilter.Query
