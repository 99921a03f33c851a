import RowFilter.Json.Lexeme

/-!
# RowFilter — the syntax tree of JSON text

The grammar of JSON on its own: lexemes become a tree that still holds numerals and texts as they are
written, of any depth. What a number or a text means is decided later, and only where it is wanted.

The reader keeps the containers that are open and what may come next; each lexeme is one step.
-/

namespace RowFilter.Json

/-- JSON text before numbers and texts are looked at. -/
inductive Tree
  | null
  | bool (b : Bool)
  | number (n : Numeral)
  | string (s : Option String)
  | array (items : List Tree)
  | object (members : List (Option String × Tree))
deriving Repr, Inhabited

/-- A container that is open, with what it holds so far (reversed); an object also has the name whose
value is due. -/
inductive Level
  | array (items : List Tree)
  | object (members : List (Option String × Tree)) (key : Option String)

/-- What may come next. -/
inductive Expect
  | value
  | valueOrClose
  | keyOrClose
  | key
  | colon
  | commaOrClose
  | nothing
deriving DecidableEq

/-- A state of the reader: the open containers, what may come next, and the tree at the end. -/
structure Reading where
  levels : List Level
  expect : Expect
  result : Tree

namespace Reading

/-- Nothing has been read. -/
def start : Reading := ⟨[], .value, .null⟩

/-- A value is complete: it goes into the innermost container, or is the whole. -/
def complete (v : Tree) : List Level → Reading
  | [] => ⟨[], .nothing, v⟩
  | .array items :: rest => ⟨.array (v :: items) :: rest, .commaOrClose, .null⟩
  | .object ms key :: rest => ⟨.object ((key, v) :: ms) none :: rest, .commaOrClose, .null⟩

/-- A value starts with this lexeme. -/
def beginValue (levels : List Level) : Lexeme → Option Reading
  | .null => some (complete .null levels)
  | .bool b => some (complete (.bool b) levels)
  | .number n => some (complete (.number n) levels)
  | .string s => some (complete (.string s) levels)
  | .openArray => some ⟨.array [] :: levels, .valueOrClose, .null⟩
  | .openObject => some ⟨.object [] none :: levels, .keyOrClose, .null⟩
  | _ => none

/-- The innermost container ends with this lexeme. -/
def close (levels : List Level) (l : Lexeme) : Option Reading :=
  match levels, l with
  | .array items :: rest, .closeArray => some (complete (.array items.reverse) rest)
  | .object ms _ :: rest, .closeObject => some (complete (.object ms.reverse) rest)
  | _, _ => none

/-- A name starts a member. -/
def beginMember (levels : List Level) (l : Lexeme) : Option Reading :=
  match levels, l with
  | .object ms _ :: rest, .string key => some ⟨.object ms key :: rest, .colon, .null⟩
  | _, _ => none

/-- After a comma an array wants a value and an object a name. -/
def afterComma : List Level → Option Reading
  | .array items :: rest => some ⟨.array items :: rest, .value, .null⟩
  | .object ms key :: rest => some ⟨.object ms key :: rest, .key, .null⟩
  | [] => none

/-- Reads one lexeme. -/
def step (r : Reading) (l : Lexeme) : Option Reading :=
  match r.expect with
  | .value => beginValue r.levels l
  | .valueOrClose => (close r.levels l).or (beginValue r.levels l)
  | .keyOrClose => (close r.levels l).or (beginMember r.levels l)
  | .key => beginMember r.levels l
  | .colon => if l = .colon then some ⟨r.levels, .value, .null⟩ else none
  | .commaOrClose => if l = .comma then afterComma r.levels else close r.levels l
  | .nothing => none

/-- Reads a run of lexemes. -/
def run (r : Reading) (ls : List Lexeme) : Option Reading := ls.foldlM step r

end Reading

/-- The tree of a whole text. -/
def Tree.read? (s : List Char) : Option Tree := do
  let ls ← lexemes s
  let r ← Reading.start.run ls
  if r.expect = .nothing then some r.result else none

end RowFilter.Json
