import RowFilter.Decimal.Shortest

/-!
# RowFilter — how numbers are laid out

A layout says which exponents are written positionally, what a whole number ends with, whether the
exponent shows a plus, and which of two equally near decimals is taken. The three layouts of this
library stand at the end.
-/

namespace RowFilter.Decimal

/-- The decisions of a number format. -/
structure Layout where
  /-- Is a number whose first digit has this exponent written without an exponent? -/
  positional : Int → Bool
  /-- Ends a whole number that is written positionally. -/
  whole : String
  /-- Shows the sign of an exponent that is not negative. -/
  plus : String
  tie : Tie

/-- `n` zeros. -/
def zeros (n : Nat) : List Char := List.replicate n '0'

/-- Digits with the point at its place. -/
def positionalText (layout : Layout) (x : Scientific) : String :=
  let n := x.digits.length
  if x.exponent < 0 then
    String.ofList ('0' :: '.' :: (zeros ((-x.exponent).toNat - 1) ++ x.digits))
  else
    let split := x.exponent.toNat + 1
    if split < n then String.ofList (x.digits.take split ++ '.' :: x.digits.drop split)
    else String.ofList (x.digits ++ zeros (split - n)) ++ layout.whole

/-- Digits with the point after the first, and the exponent. -/
def exponentText (layout : Layout) (x : Scientific) : String :=
  let mantissa := match x.digits with
    | d :: e :: rest => d :: '.' :: e :: rest
    | ds => ds
  let sign := if x.exponent < 0 then "-" else layout.plus
  String.ofList mantissa ++ "e" ++ sign ++ toString x.exponent.natAbs

/-- The text of a number, of an infinity or of what is not a number. -/
def Layout.render (layout : Layout) (x : Binary64) : String :=
  if x.isNaN then "NaN"
  else
    let sign := if x.isNegative then "-" else ""
    if x.isFinite then
      if x.isZero then sign ++ "0" ++ layout.whole
      else
        let digits := shortest layout.tie x.word
        sign ++ (if layout.positional digits.exponent then positionalText layout digits
          else exponentText layout digits)
    else sign ++ "inf"

/-- Numbers as text: never an exponent, and nothing after a whole number. -/
def plainLayout : Layout := ⟨fun _ => true, "", "", .up⟩

/-- Numbers in diagnostics: a whole number ends in `.0`, and large and small ones have an exponent. -/
def debugLayout : Layout := ⟨fun e => -5 < e && e < 16, ".0", "", .up⟩

/-- Numbers in JSON: a whole number ends in `.0`, and the exponent shows its sign. -/
def jsonLayout : Layout := ⟨fun e => -5 ≤ e && e ≤ 15, ".0", "+", .even⟩

example : plainLayout.render (Binary64.ofDecimal false 3 0) = "3" := by decide +kernel
example : debugLayout.render (Binary64.ofDecimal true 0 0) = "-0.0" := by decide +kernel
example : jsonLayout.render (Binary64.ofDecimal false 15 299) = "1.5e+300" := by decide +kernel
example : jsonLayout.render (Binary64.ofDecimal false 1 (-5)) = "0.00001" := by decide +kernel

end RowFilter.Decimal
