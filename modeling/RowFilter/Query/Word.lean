import RowFilter.Query.Marker
import RowFilter.Operator
import RowFilter.Text.Alphanumeric

/-!
# RowFilter — words between the markers

The text outside columns and literals falls into *plain runs*, and a run into words: a run of letters,
digits and underscores, a run of comparison signs, or any other single character that is not blank.
Every word is a conjunction or an operator; `not in` is the only operator of two words, which must
stand in one plain run.
-/

namespace RowFilter.Query

open Text (isBlank width sameIgnoringCase)

/-! ## Plain runs -/

/-- Does one of the markers cover a byte? -/
def covered (markers : List Token) (pos : Nat) : Bool :=
  markers.any fun t => t.start ≤ pos && pos < t.stop

/-- Puts a character in front of the run that starts right behind it, or starts a run. -/
def prepend (pos : Nat) (c : Char) : List (Nat × List Char) → List (Nat × List Char)
  | [] => [(pos, [c])]
  | (start, run) :: more =>
    if start = pos + c.utf8Size then (pos, c :: run) :: more else (pos, [c]) :: (start, run) :: more

/-- The maximal runs of characters that no marker covers, in a text that starts at byte `pos`. -/
def plainRuns (markers : List Token) (pos : Nat) : List Char → List (Nat × List Char)
  | [] => []
  | c :: rest =>
    let more := plainRuns markers (pos + c.utf8Size) rest
    if covered markers pos then more else prepend pos c more

/-! ## Words -/

/-- Letters, digits and the underscore. -/
def isNameChar (c : Char) : Bool := Text.isAlphanumeric c || c == '_'

/-- The signs that comparison operators are made of. -/
def isSign (c : Char) : Bool := c == '=' || c == '!' || c == '<' || c == '>'

/-- May the second character go on a word that starts with the first one? -/
def sameWord (first c : Char) : Bool :=
  if isNameChar first then isNameChar c
  else if isSign first then isSign c
  else false

/-- A word, where it starts, and the blanks between it and the word before it in its run. -/
structure Word where
  gap : List Char
  start : Nat
  text : List Char
deriving DecidableEq, Repr

/-- Where a word ends. -/
def Word.stop (w : Word) : Nat := w.start + width w.text

/-- The words of a text that starts at byte `pos`, after the blanks `gap` (reversed). -/
def wordsFrom (pos : Nat) (gap : List Char) (s : List Char) : List Word :=
  match s with
  | [] => []
  | c :: rest =>
    if isBlank c then wordsFrom (pos + c.utf8Size) (c :: gap) rest
    else
      have : (rest.dropWhile (sameWord c)).length ≤ rest.length :=
        (List.dropWhile_sublist _).length_le
      let text := c :: rest.takeWhile (sameWord c)
      ⟨gap.reverse, pos, text⟩ :: wordsFrom (pos + width text) [] (rest.dropWhile (sameWord c))
termination_by s.length
decreasing_by all_goals (simp only [List.length_cons]; omega)

/-! ## Tokens of words -/

/-- The token of a whole word. -/
def Word.token (w : Word) (kind : TokenKind) : Token :=
  ⟨kind, String.ofList w.text, w.start, w.stop⟩

/-- The conjunctions among words. -/
def conjunctionTokens (ws : List Word) : List Token :=
  (ws.filter fun w => (Conjunction.ofKeyword? w.text).isSome).map (Word.token · .conjunction)

/-- The operators among the words of one plain run. The first word that is neither a conjunction nor
an operator is an error. -/
def operatorTokens : List Word → Except FilterError (List Token)
  | [] => .ok []
  | w :: rest =>
    if (Conjunction.ofKeyword? w.text).isSome then operatorTokens rest
    else if sameIgnoringCase w.text ['n', 'o', 't'] then
      -- the token covers both words and the blanks between them
      match rest with
      | [] => .error (.querySyntax w.start .loneNot)
      | next :: more =>
        if sameIgnoringCase next.text ['i', 'n'] then
          (operatorTokens more).map
            (⟨.operator, String.ofList (w.text ++ next.gap ++ next.text), w.start, next.stop⟩ :: ·)
        else .error (.querySyntax w.start .loneNot)
    else if (Operator.ofKeyword? w.text).isSome then
      (operatorTokens rest).map (w.token .operator :: ·)
    else .error (.querySyntax w.start (.unrecognizedOperator (String.ofList w.text)))

end RowFilter.Query
