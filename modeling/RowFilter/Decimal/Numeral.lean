import RowFilter.Decimal.Binary64

/-!
# RowFilter — reading numbers

Two readers of whole texts: integers are a sign and digits; floating-point numbers may have a
fraction and an exponent, or be one of the words for infinity and for no number. Only the ten ASCII
digits count.

Main results:

* `digitsValue_append` — the value of digits that are read one after the other.
-/

namespace RowFilter.Decimal

/-- One of the ten ASCII digits. -/
def isDigit (c : Char) : Bool := '0'.toNat ≤ c.toNat && c.toNat ≤ '9'.toNat

/-- The value of a digit. -/
def digitValue (c : Char) : Nat := c.toNat - '0'.toNat

/-- The number that digits write in base ten, after the number `acc` was read. -/
def digitsValue (acc : Nat) (ds : List Char) : Nat := ds.foldl (fun n d => 10 * n + digitValue d) acc

theorem digitsValue_append (acc : Nat) (s t : List Char) :
    digitsValue acc (s ++ t) = digitsValue (digitsValue acc s) t := by
  simp [digitsValue]

/-- Splits the digits in front off. -/
def spanDigits (s : List Char) : List Char × List Char := (s.takeWhile isDigit, s.dropWhile isDigit)

/-- Splits a sign in front off: `true` for a minus. -/
def splitSign : List Char → Bool × List Char
  | '-' :: rest => (true, rest)
  | '+' :: rest => (false, rest)
  | s => (false, s)

/-- Reads a sign and one or more digits, and nothing else. -/
def readInt? (s : List Char) : Option Int :=
  let (neg, ds) := splitSign s
  if ds.isEmpty || !ds.all isDigit then none
  else
    let n : Int := digitsValue 0 ds
    some (if neg then -n else n)

/-- Reads what may follow the mantissa: nothing, or an `e`, a sign and digits. -/
def readExponent? : List Char → Option Int
  | [] => some 0
  | c :: rest => if c = 'e' || c = 'E' then readInt? rest else none

/-- Reads digits with an optional point and exponent; one side of the point may be empty. -/
def readUnsigned? (neg : Bool) (s : List Char) : Option Binary64 :=
  let (whole, rest) := spanDigits s
  let (fraction, rest) := match rest with
    | '.' :: rest => spanDigits rest
    | rest => ([], rest)
  if whole.isEmpty && fraction.isEmpty then none
  else (readExponent? rest).map fun e =>
    Binary64.ofDecimal neg (digitsValue 0 (whole ++ fraction)) (e - fraction.length)

/-- Reads a floating-point number of any spelling, infinities and no number included. -/
def readFloat? (s : List Char) : Option Binary64 :=
  let (neg, rest) := splitSign s
  let word := rest.map Char.toLower
  if word = "inf".toList || word = "infinity".toList then
    some (Binary64.ofWord neg Binary64.infinityWord)
  else if word = "nan".toList then some (Binary64.ofWord neg Binary64.nanWord)
  else readUnsigned? neg rest

example : readInt? "-0042".toList = some (-42) := by decide +kernel
example : readFloat? ".5e1".toList = some (Binary64.ofInt 5) := by decide +kernel
example : readFloat? "e5".toList = none := by decide +kernel

end RowFilter.Decimal
