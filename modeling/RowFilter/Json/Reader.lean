import RowFilter.Json.Basic
import RowFilter.Json.Tree
import RowFilter.Word

/-!
# RowFilter — reading JSON values

A tree becomes a value if its containers are nested at most 127 deep, every text has characters and
every number is in range. A numeral without a point and an exponent is an integer as long as it fits
64 bits; every other one is a floating-point number. That number is not always the nearest one: the
digits that fit 64 bits are rounded first, and the power of ten is then multiplied in or divided out,
each time with one rounding.
-/

namespace RowFilter.Json

open Decimal (digitValue digitsValue)

/-- Deepest nesting of arrays and objects. -/
def maxDepth : Nat := 127

/-- Reads digits on top of `n` as long as the number stays below 2⁶⁴; gives the number and the digits
that are left. -/
def absorb (n : Nat) : List Char → Nat × List Char
  | [] => (n, [])
  | d :: ds => if 10 * n + digitValue d < wordBound then absorb (10 * n + digitValue d) ds else (n, d :: ds)

/-- The word of `10^k`. -/
def tenWord (k : Nat) : Nat := Binary64.nearestWord (tenPow k) 1

/-- Divides a magnitude by `10^k`, at most 308 places at a time; a number below 2⁶⁴ is gone after
two such steps. -/
def divideByTen (word k : Nat) : Nat :=
  if k ≤ 308 then Binary64.divWords word (tenWord k)
  else if k ≤ 616 then Binary64.divWords (Binary64.divWords word (tenWord 308)) (tenWord (k - 308))
  else 0

/-- The magnitude of a significand below 2⁶⁴ times a power of ten, or nothing if it is out of
range. -/
def scaledWord? (significand : Nat) (exponent : Int) : Option Nat :=
  let word := Binary64.nearestWord significand 1
  if exponent < 0 then some (divideByTen word (-exponent).toNat)
  else if exponent ≤ 308 then
    let scaled := Binary64.mulWords word (tenWord exponent.toNat)
    if scaled < Binary64.infinityWord then some scaled else none
  else if word = 0 then some 0
  else none

/-- The floating-point number of a numeral. -/
def Numeral.float? (n : Numeral) : Option Binary64 :=
  -- digits of the whole part that do not fit count as places
  let (significand, left) := absorb 0 n.whole
  let fraction := n.fraction.getD []
  let (significand, unused) := if n.fraction.isSome then absorb significand fraction
    else (significand, [])
  let places : Int := (left.length : Int) - (fraction.length - unused.length : Nat)
  let exponent : Option Int := match n.exponent with
    | none => some places
    | some (neg, ds) =>
      let e := digitsValue 0 ds
      -- a larger exponent is far out of range on either side
      if e < 0x80000000 then some (if neg then places - e else places + e)
      else if significand = 0 || neg then some (-0x80000000) else none
  (exponent.bind (scaledWord? significand)).map (Binary64.ofWord n.neg)

/-- The value of a numeral. -/
def ofNumeral (n : Numeral) : Option Json :=
  if n.fraction.isSome || n.exponent.isSome then n.float?.map .float
  else
    let i := digitsValue 0 n.whole
    if n.neg then
      if i ≠ 0 && i ≤ int64Bound then some (.int (-i)) else n.float?.map .float
    else if i < wordBound then some (.int i)
    else n.float?.map .float

mutual
/-- The value of a tree inside `depth` containers. -/
def ofTree (depth : Nat) : Tree → Option Json
  | .null => some .null
  | .bool b => some (.bool b)
  | .number n => ofNumeral n
  | .string s => s.map .string
  | .array items =>
    if depth < maxDepth then (ofItems (depth + 1) items).map .array else none
  | .object ms =>
    if depth < maxDepth then (ofTreeMembers (depth + 1) ms).map fun ms => .object (ofMembers ms)
    else none

/-- The values of the items. -/
def ofItems (depth : Nat) : List Tree → Option (List Json)
  | [] => some []
  | t :: rest => do
    let j ← ofTree depth t
    let js ← ofItems depth rest
    return j :: js

/-- The values of the members, in source order. -/
def ofTreeMembers (depth : Nat) : List (Option String × Tree) → Option (List (String × Json))
  | [] => some []
  | (key, t) :: rest => do
    let k ← key
    let j ← ofTree depth t
    let ms ← ofTreeMembers depth rest
    return (k, j) :: ms
end

/-- Reads JSON text. -/
def read? (s : String) : Option Json := (Tree.read? s.toList).bind (ofTree 0)

end RowFilter.Json
