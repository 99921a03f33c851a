import RowFilter.Query.Clause
import RowFilter.Query.TokenStream

/-!
# RowFilter — reading a query

A query is a formula of clauses. `or` binds looser than `and`, chains of either have any number of
operands, and parentheses may be nested 64 deep. The reader goes through the tokens once, from left to
right, and keeps for every open parenthesis the chains that it has read there; an error is always about
the token at hand, or about the end.

Main results:

* `Reading.run_append` — reading two runs of tokens is reading one after the other.
-/

namespace RowFilter.Query

/-- Deepest nesting of parentheses. -/
def maxNesting : Nat := 64

/-- What has been read inside one pair of parentheses: the operands of the `or` chain, and those of
the `and` chain that is being read. -/
structure Chain where
  done : List (Formula Clause)
  current : List (Formula Clause)

namespace Chain

/-- Nothing yet. -/
def empty : Chain := ⟨[], []⟩

/-- Adds an operand. -/
def push (c : Chain) (f : Formula Clause) : Chain := ⟨c.done, c.current ++ [f]⟩

/-- An `or` ends the `and` chain. -/
def split (c : Chain) : Chain := ⟨c.done ++ [.chainAll c.current], []⟩

/-- The formula of the chains. -/
def formula (c : Chain) : Formula Clause := .chainAny (c.done ++ [.chainAll c.current])

end Chain

/-- What the reader waits for. -/
inductive Await
  /-- A column or an opening parenthesis. -/
  | operand
  /-- The operator behind a column, which has a name and an offset. -/
  | operator (column : String) (offset : Nat)
  /-- The literal behind an operator. -/
  | value (column : String) (offset : Nat) (op : Operator)
  /-- A conjunction, a closing parenthesis or the end. -/
  | connective
deriving DecidableEq, Repr

/-- A state of the reader: for every open parenthesis, from the innermost outwards, where it stands
and what was read before it; what was read since; and what must come next. -/
structure Reading where
  opened : List (Nat × Chain)
  chain : Chain
  await : Await

namespace Reading

/-- Nothing has been read. -/
def start : Reading := ⟨[], .empty, .operand⟩

/-- The error of a token that is not of the kind that is wanted. -/
def unwanted {α : Type} (wanted : TokenKind) (t : Token) : Except FilterError α :=
  .error (.querySyntax t.start (.unwanted wanted t.kind t.text))

/-- An operand is complete. -/
def complete (r : Reading) (f : Formula Clause) : Reading := ⟨r.opened, r.chain.push f, .connective⟩

/-- Reads the token at which an operand starts. -/
def readOperand (r : Reading) (t : Token) : Except FilterError Reading :=
  if t.conjunction? = some .opening then
    if maxNesting ≤ r.opened.length then .error (.querySyntax t.start .nestingTooDeep)
    else .ok ⟨(t.start, r.chain) :: r.opened, .empty, .operand⟩
  else if t.kind = .column then
    let name := Text.trim t.text.toList
    if name.isEmpty then .error (.querySyntax t.start .emptyColumn)
    else .ok { r with await := .operator (String.ofList name) t.start }
  else unwanted .column t

/-- Reads the token behind a column. -/
def readOperator (r : Reading) (column : String) (offset : Nat) (t : Token) :
    Except FilterError Reading :=
  if t.kind = .operator then
    match Operator.ofKeyword? t.text.toList with
    | none => .error (.querySyntax t.start (.unrecognizedOperator t.text))
    | some op =>
      if op.arity = 1 then .ok { r with await := .value column offset op }
      else .ok (r.complete (.leaf ⟨column, offset, op, none⟩))
  else unwanted .operator t

/-- Reads the token behind an operator that takes a literal. -/
def readValue (r : Reading) (column : String) (offset : Nat) (op : Operator) (t : Token) :
    Except FilterError Reading :=
  if t.kind = .value then .ok (r.complete (.leaf ⟨column, offset, op, some t.text⟩))
  else unwanted .value t

/-- Reads the token behind an operand. -/
def readConnective (r : Reading) (t : Token) : Except FilterError Reading :=
  match t.conjunction?, r.opened with
  | some .and, _ => .ok { r with await := .operand }
  | some .or, _ => .ok ⟨r.opened, r.chain.split, .operand⟩
  -- the group is an operand of the level outside
  | some .closing, (_, outer) :: opened =>
    .ok ⟨opened, outer.push (.group r.chain.formula), .connective⟩
  | _, (pos, _) :: _ => .error (.querySyntax pos .unclosedParenthesis)
  | _, [] => .error (.querySyntax t.start (.unexpected t.kind t.text))

/-- Reads one token. -/
def step (r : Reading) (t : Token) : Except FilterError Reading :=
  match r.await with
  | .operand => r.readOperand t
  | .operator column offset => r.readOperator column offset t
  | .value column offset op => r.readValue column offset op t
  | .connective => r.readConnective t

/-- The formula at the end of the tokens, where the query ends at byte `stop`. -/
def finish (r : Reading) (stop : Nat) : Except FilterError (Formula Clause) :=
  match r.await, r.opened with
  | .operand, _ => .error (.querySyntax stop (.unexpectedEnd .column))
  | .operator .., _ => .error (.querySyntax stop (.unexpectedEnd .operator))
  | .value .., _ => .error (.querySyntax stop (.unexpectedEnd .value))
  | .connective, (pos, _) :: _ => .error (.querySyntax pos .unclosedParenthesis)
  | .connective, [] => .ok r.chain.formula

/-- Reads a run of tokens. -/
def run (r : Reading) (ts : List Token) : Except FilterError Reading := ts.foldlM step r

theorem run_append (r : Reading) (s t : List Token) :
    r.run (s ++ t) = (r.run s).bind fun r' => r'.run t := by
  simp only [run, List.foldlM_append]
  rfl

end Reading

/-- Reads the tokens of a query that ends at byte `stop`. -/
def readTokens (s : TokenStream) (stop : Nat) : Except FilterError (Formula Clause) :=
  if s.merged.isEmpty then .error (.querySyntax 0 .emptyQuery)
  else do
    let r ← Reading.start.run s.merged
    r.finish stop

/-- Reads a query. -/
def parse (query : String) : Except FilterError (Formula Clause) := do
  let stream ← tokenize query
  readTokens stream query.utf8ByteSize

end RowFilter.Query
