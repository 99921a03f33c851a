import RowFilter.Literal.Cast
import RowFilter.Store

/-!
# RowFilter — lists and ranges in literals

A literal of several values stands in brackets, in parentheses or bare, with commas between the
elements. A comma inside quotes does not separate, and blank elements do not count. A range is a list
of exactly two elements. A named list is looked up in the store of its user.
-/

namespace RowFilter.Literal

open Text (isBlank trim)

/-- Drops brackets or parentheses around a text. -/
def dropPair (opening closing : Char) (s : List Char) : Option (List Char) :=
  match s with
  | c :: d :: rest =>
    if c = opening ∧ (d :: rest).getLast? = some closing then some (d :: rest).dropLast else none
  | _ => none

/-- Trims blanks and drops one pair of brackets or parentheses around the rest. -/
def dropBrackets (s : List Char) : List Char :=
  let trimmed := trim s
  ((dropPair '[' ']' trimmed).or (dropPair '(' ')' trimmed)).getD trimmed

/-- Splits at the commas outside quotes: `quote` is the quote that is open and `piece` what has been
read of the element, reversed. -/
def splitFrom (quote : Option Char) (piece : List Char) : List Char → List (List Char)
  | [] => [piece.reverse]
  | c :: rest =>
    match quote with
    | some q => splitFrom (if c = q then none else some q) (c :: piece) rest
    | none =>
      if c = '\'' || c = '"' then splitFrom (some c) (c :: piece) rest
      else if c = ',' then piece.reverse :: splitFrom none [] rest
      else splitFrom none (c :: piece) rest

/-- The elements of a literal, as they are written. -/
def elements (raw : List Char) : List (List Char) :=
  (splitFrom none [] (dropBrackets raw)).filter fun e => !e.all isBlank

/-- The elements of a literal as values of a type. -/
def castElements (raw : List Char) (type : LogicalType) : List Value :=
  (elements raw).map fun e => cast e type

/-- The bounds of a range, as they are written. -/
def bounds (raw : List Char) : Except FilterError (List Char × List Char) :=
  match elements raw with
  | [low, high] => .ok (low, high)
  | es => .error (.betweenCount (String.ofList raw) es.length)

/-- The bounds of a range as values of a type, with the warnings of their casts. -/
def rangeTraced (raw : List Char) (type : LogicalType) : Traced (Value × Value) := do
  let (low, high) ← Traced.ofExcept (bounds raw)
  let low ← castTraced low type
  let high ← castTraced high type
  return (low, high)

/-! ## Named lists -/

/-- The lists of all users, by user and name. -/
abbrev NamedLists := Store (String × String) (List Value)

/-- The list of a user. -/
def namedList (lists : NamedLists) (user name : String) : Except FilterError (List Value) :=
  match lists.find? (user, name) with
  | some items => .ok items
  | none => .error (.listNotFound user name)

/-- An item of a named list as a literal of a type; a missing item stays missing. -/
def castItemTraced (type : LogicalType) (item : Value) : Traced Value :=
  if item.isNull then return .null else castTraced item.toText.toList type

/-- The items of a user's list as values of a type. One pair of quotes around the name is dropped. -/
def resolveTraced (lists : NamedLists) (user : String) (name : List Char) (type : LogicalType) :
    Traced (List Value) := do
  let name := String.ofList (unquote name)
  let items ← Traced.ofExcept (namedList lists user name)
  Traced.report (.listResolved name user items.length)
  items.mapM (castItemTraced type)

end RowFilter.Literal
