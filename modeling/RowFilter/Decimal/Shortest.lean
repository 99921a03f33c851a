import RowFilter.Decimal.Binary64

/-!
# RowFilter — the shortest decimal that reads back

Of all decimals that round to a given number, the shortest digits are written, and of those the
nearest to the number. For one, two, … digits the two neighbours of the number on that decimal grid are
tested; the first grid with a hit wins. Where the two neighbours are equally near, the caller says
which one is taken.

Main results:

* `Scientific` — digits and the exponent of the first one.
-/

namespace RowFilter.Decimal

/-- Digits `d₀ d₁ …` and an exponent `e`, for `d₀.d₁… · 10^e`. -/
structure Scientific where
  digits : List Char
  exponent : Int
deriving Repr, DecidableEq

/-- Which of two equally near decimals is written. -/
inductive Tie
  | up
  | even
deriving Repr, DecidableEq

open Binary64

/-- The exponent of the first decimal digit of a magnitude above zero: the smallest magnitude has its
first digit in place 324 after the point. -/
def leadingExponent (word : Nat) : Int :=
  ((Nat.toDigits 10 (units word * tenPow 324 / twoPow 1074)).length : Int) - 325

/-- Tests the neighbours of a magnitude among the multiples of `10^place`, and gives the multiple that
reads back. An end of the interval that rounds to the magnitude belongs to it if the magnitude is
even. -/
def onGrid (tie : Tie) (word : Nat) (place : Int) : Option Nat :=
  -- all numbers are doubled units, times the denominator of the grid
  let step := tenPow place.toNat * twoPow 1075
  let scale := tenPow (-place).toNat
  let low := (units (word - 1) + units word) * scale
  let high := (units word + units (word + 1)) * scale
  let value := 2 * units word * scale
  let inside (d : Nat) : Bool :=
    if word % 2 = 0 then low ≤ d * step && d * step ≤ high else low < d * step && d * step < high
  -- the two neighbours are `floor` and `floor + 1`
  let floor := value / step
  let below := value - floor * step
  let above := (floor + 1) * step - value
  match inside floor && 0 < floor, inside (floor + 1) with
  | true, true =>
    if below < above then some floor
    else if above < below then some (floor + 1)
    else match tie with
      | .up => some (floor + 1)
      | .even => if floor % 2 = 0 then some floor else some (floor + 1)
  | true, false => some floor
  | false, true => some (floor + 1)
  | false, false => none

/-- Drops the zeros at the end. -/
def dropZeros (digits : List Char) : List Char := (digits.reverse.dropWhile (· == '0')).reverse

/-- The multiple `d` of `10^place` by its digits. -/
def Scientific.ofMultiple (d : Nat) (place : Int) : Scientific :=
  let digits := Nat.toDigits 10 d
  ⟨dropZeros digits, place + digits.length - 1⟩

/-- The shortest digits of a magnitude above zero; seventeen always suffice. -/
def shortest (tie : Tie) (word : Nat) : Scientific :=
  let lead := leadingExponent word
  let tried := (List.range 17).findSome? fun (n : Nat) =>
    let place := lead - (n : Int)
    (onGrid tie word place).map fun d => Scientific.ofMultiple d place
  tried.getD ⟨['0'], 0⟩

example : shortest .up (ofInt 1200).word = ⟨['1', '2'], 3⟩ := by decide +kernel
example : shortest .up 1 = ⟨['5'], -324⟩ := by decide +kernel

end RowFilter.Decimal
