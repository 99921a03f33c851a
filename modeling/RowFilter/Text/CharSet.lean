/-!
# RowFilter — sets of characters

A set of characters is the sorted list of its boundaries: the first one opens a range, the second
closes it (and is outside), the third opens the next one. The tables of the Unicode properties are
values of this type.
-/

namespace RowFilter.Text

/-- A set of characters, given by its boundaries in increasing order. -/
structure CharSet where
  bounds : List Nat
deriving Repr

namespace CharSet

/-- Walks the boundaries pair by pair and stops at the first one above `n`. -/
def inside (n : Nat) : List Nat → Bool
  | low :: high :: rest => if n < low then false else if n < high then true else inside n rest
  | _ => false

/-- Membership of a character. -/
def contains (s : CharSet) (c : Char) : Bool := inside c.toNat s.bounds

end CharSet

end RowFilter.Text
