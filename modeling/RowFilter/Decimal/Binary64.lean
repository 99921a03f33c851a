/-!
# RowFilter — binary floating-point numbers

A number of 64 bits: a sign, eleven bits of exponent and fifty-two of fraction. Its magnitude is a
whole number of *units* of two to the power of -1074, the smallest positive number, so all arithmetic
here is exact arithmetic on naturals. The magnitude word with the largest exponent and no fraction is
infinity and reads as the next power of two; the words above it are not numbers.

Main results:

* `units_le_units` — the words of magnitudes are ordered as the units they stand for.
-/

namespace RowFilter

/-- A power of two. -/
def twoPow (k : Nat) : Nat := Nat.pow 2 k

/-- A power of ten. -/
def tenPow (k : Nat) : Nat := Nat.pow 10 k

theorem twoPow_succ (k : Nat) : twoPow (k + 1) = twoPow k * 2 := rfl

theorem twoPow_pos (k : Nat) : 0 < twoPow k := by
  induction k with
  | zero => decide
  | succ k ih =>
    rw [twoPow_succ]
    omega

/-- A binary floating-point number, by its bits. -/
structure Binary64 where
  bits : UInt64
deriving DecidableEq, Repr, Inhabited

namespace Binary64

/-- The bit above all magnitudes. -/
def signBit : Nat := 0x8000000000000000

/-- The magnitude word of infinity. -/
def infinityWord : Nat := 0x7ff0000000000000

/-- The usual magnitude word of what is no number. -/
def nanWord : Nat := 0x7ff8000000000000

/-- The bit above all fractions. -/
def hiddenBit : Nat := 0x10000000000000

/-- A number from its sign and its magnitude word. -/
def ofWord (neg : Bool) (word : Nat) : Binary64 :=
  ⟨UInt64.ofNat (if neg then signBit + word else word)⟩

/-- The sign, also of zeros. -/
def isNegative (x : Binary64) : Bool := signBit ≤ x.bits.toNat

/-- The bits without the sign. -/
def word (x : Binary64) : Nat := x.bits.toNat % signBit

/-- Neither a number nor an infinity. -/
def isNaN (x : Binary64) : Bool := infinityWord < x.word

/-- A number, not an infinity. -/
def isFinite (x : Binary64) : Bool := x.word < infinityWord

/-- Zero of either sign. -/
def isZero (x : Binary64) : Bool := x.word == 0

/-- The units of 2⁻¹⁰⁷⁴ that a magnitude word stands for. -/
def units (word : Nat) : Nat :=
  if word < hiddenBit then word
  else (hiddenBit + word % hiddenBit) * twoPow (word / hiddenBit - 1)

theorem units_lt_units_succ (n : Nat) : units n < units (n + 1) := by
  unfold units hiddenBit
  by_cases h : n + 1 < 0x10000000000000
  · rw [if_pos h, if_pos (by omega)]
    omega
  · by_cases h' : n < 0x10000000000000
    · have hn : n + 1 = 0x10000000000000 := by omega
      rw [if_pos h', if_neg h, hn]
      have h1 : twoPow (0x10000000000000 / 0x10000000000000 - 1) = 1 := rfl
      rw [h1]
      omega
    · rw [if_neg h, if_neg h']
      by_cases hm : n % 0x10000000000000 + 1 < 0x10000000000000
      · have h1 : (n + 1) % 0x10000000000000 = n % 0x10000000000000 + 1 := by omega
        have h2 : (n + 1) / 0x10000000000000 = n / 0x10000000000000 := by omega
        rw [h1, h2]
        exact Nat.mul_lt_mul_of_pos_right (by omega) (twoPow_pos _)
      · have h1 : (n + 1) % 0x10000000000000 = 0 := by omega
        have h2 : (n + 1) / 0x10000000000000 - 1 = (n / 0x10000000000000 - 1) + 1 := by omega
        rw [h1, h2, twoPow_succ]
        have h3 : 0x10000000000000 + n % 0x10000000000000 < 0x10000000000000 * 2 := by omega
        calc (0x10000000000000 + n % 0x10000000000000) * twoPow (n / 0x10000000000000 - 1)
            < (0x10000000000000 * 2) * twoPow (n / 0x10000000000000 - 1) :=
              Nat.mul_lt_mul_of_pos_right h3 (twoPow_pos _)
          _ = (0x10000000000000 + 0) * (twoPow (n / 0x10000000000000 - 1) * 2) := by
              rw [Nat.add_zero, Nat.mul_assoc, Nat.mul_comm 2]

theorem units_le_units {m n : Nat} (h : m ≤ n) : units m ≤ units n := by
  induction h with
  | refl => exact Nat.le_refl _
  | step _ ih => exact Nat.le_trans ih (Nat.le_of_lt (units_lt_units_succ _))

/-- The signed number of units; both zeros are `0`, and an infinity is the next power of two. -/
def signedUnits (x : Binary64) : Int :=
  if x.isNegative then -(units x.word : Int) else (units x.word : Int)

/-- The numeric order; what is not a number has no place in it, and the zeros are equal. -/
def compare? (x y : Binary64) : Option Ordering :=
  if x.isNaN || y.isNaN then none else some (compare x.signedUnits y.signedUnits)

/-- The quotient of two naturals as the nearest natural; a half goes to the even one. -/
def roundDiv (num den : Nat) : Nat :=
  let low := num / den
  let twice := 2 * (num % den)
  if twice < den then low
  else if den < twice then low + 1
  else if low % 2 = 0 then low else low + 1

/-- The magnitude word nearest to `num / den`; a half goes to the even one, and what is too large
to infinity. -/
def nearestWord (num den : Nat) : Nat :=
  -- the magnitude in units, and how many of its bits do not fit the fraction
  let scaled := num * twoPow 1074
  let shift := Nat.log2 (scaled / den) - 52
  -- a fraction that rounds up to the next power of two carries into the exponent
  min (shift * hiddenBit + roundDiv scaled (den * twoPow shift)) infinityWord

/-- The number nearest to a fraction. -/
def ofRatio (neg : Bool) (num den : Nat) : Binary64 := ofWord neg (nearestWord num den)

/-- The number nearest to an integer. -/
def ofInt (i : Int) : Binary64 := ofRatio (i < 0) i.natAbs 1

/-- The number nearest to `digits · 10^exponent`. Powers that no digits in the text can bring back
into the range of the format are settled without being written out. -/
def ofDecimal (neg : Bool) (digits : Nat) (exponent : Int) : Binary64 :=
  if digits = 0 then ofWord neg 0
  else if 400 < exponent then ofWord neg infinityWord
  else if exponent + (Nat.log2 digits + 1) < -400 then ofWord neg 0
  else if 0 ≤ exponent then ofRatio neg (digits * tenPow exponent.toNat) 1
  else ofRatio neg digits (tenPow (-exponent).toNat)

/-- The rounded product of two magnitudes, given by their words. -/
def mulWords (a b : Nat) : Nat := nearestWord (units a * units b) (twoPow 2148)

/-- The rounded quotient of two magnitudes, given by their words. -/
def divWords (a b : Nat) : Nat := nearestWord (units a) (units b)

example : ofInt 1 = ⟨0x3ff0000000000000⟩ := by decide +kernel
example : ofDecimal false 5 (-324) = ⟨1⟩ := by decide +kernel
example : ofInt 9007199254740993 = ofInt 9007199254740992 := by decide +kernel

end Binary64

end RowFilter
