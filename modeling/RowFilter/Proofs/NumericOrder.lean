import Mathlib.Algebra.Order.Field.Basic
import Mathlib.Algebra.Order.Ring.Rat
import Mathlib.Order.Compare
import Mathlib.Tactic.Ring
import RowFilter.Proofs.InferredTypes

/-!
# RowFilter — the order of numbers

Two integers compare as they are, and so do two floating-point numbers. An integer that meets a
floating-point number is rounded to the nearest one first. Rounding goes past no number of the format, so
the order of the two comes out right, unless the integer is rounded onto the very number that it is compared
with: then both count as equal, and through them two integers may be equal to one number.

Main results:

* `Binary64.units_grid` — the numbers with one exponent are the multiples of a power of two.
* `Binary64.le_nearestWord`, `Binary64.nearestWord_le` — rounding goes past no number of the format.
* `Binary64.compare_signedUnits_ofInt` — a rounded integer stands where the integer does, or on the other
  number.
* `numeric_order_exact` — the order of two numbers, and when it is not the exact one.
-/

namespace RowFilter

namespace Binary64

/-! ## Rounding goes past no number -/

theorem twoPow_eq (k : Nat) : twoPow k = 2 ^ k := rfl

/-- From the hidden bit up to twice of it, the words of one exponent stand for the multiples of a power of
two. The last one is the first of the next exponent. -/
theorem units_grid {shift q : Nat} (hlow : shift = 0 ∨ hiddenBit ≤ q) (hhigh : q ≤ 2 * hiddenBit) :
    units (shift * hiddenBit + q) = q * twoPow shift := by
  unfold hiddenBit at hlow hhigh
  by_cases hsmall : q < 0x10000000000000
  · -- below the hidden bit there is no exponent
    obtain rfl : shift = 0 := by omega
    rw [units, if_pos (by unfold hiddenBit; omega)]
    simp [twoPow]
  · by_cases hlast : q = 0x20000000000000
    · have hmod : (shift * hiddenBit + q) % hiddenBit = 0 := by unfold hiddenBit; omega
      have hdiv : (shift * hiddenBit + q) / hiddenBit - 1 = shift + 1 := by unfold hiddenBit; omega
      rw [units, if_neg (by unfold hiddenBit; omega), hmod, hdiv, twoPow_succ, hlast]
      unfold hiddenBit
      omega
    · have hmod : hiddenBit + (shift * hiddenBit + q) % hiddenBit = q := by unfold hiddenBit; omega
      have hdiv : (shift * hiddenBit + q) / hiddenBit - 1 = shift := by unfold hiddenBit; omega
      rw [units, if_neg (by unfold hiddenBit; omega), hmod, hdiv]

theorem lt_of_units_lt {v w : Nat} (h : units v < units w) : v < w :=
  Nat.lt_of_not_le fun hle => absurd (units_le_units hle) (Nat.not_le_of_lt h)

/-- A quotient is rounded down or up, and up only if there is a rest. -/
theorem roundDiv_cases (num den : Nat) :
    roundDiv num den = num / den ∨ (roundDiv num den = num / den + 1 ∧ num % den ≠ 0) := by
  unfold roundDiv
  by_cases hrest : num % den = 0
  · left
    rcases Nat.eq_zero_or_pos den with rfl | hden
    · simp [hrest]
    · simp [hrest, hden]
  · grind

/-- The words of one exponent that a number of units, counted in a whole quotient `n`, lies between. -/
theorem grid_bounds (n : Nat) :
    let shift := Nat.log2 n - 52
    (shift = 0 ∨ hiddenBit ≤ n / twoPow shift) ∧ n / twoPow shift < 2 * hiddenBit := by
  intro shift
  have hbit : hiddenBit = 2 ^ 52 := rfl
  rw [twoPow_eq]
  constructor
  · rcases Nat.eq_zero_or_pos shift with hshift | hshift
    · exact .inl hshift
    · right
      have hlog : Nat.log2 n = 52 + shift := by omega
      have hn : n ≠ 0 := by
        rintro rfl
        rw [Nat.log2_zero] at hlog
        omega
      rw [hbit, Nat.le_div_iff_mul_le (Nat.two_pow_pos _), ← Nat.pow_add, ← hlog]
      exact Nat.log2_self_le hn
  · have hlog : Nat.log2 n + 1 ≤ 53 + shift := by omega
    rw [hbit, Nat.div_lt_iff_lt_mul (Nat.two_pow_pos _)]
    calc n < 2 ^ (Nat.log2 n + 1) := Nat.lt_log2_self
      _ ≤ 2 ^ (53 + shift) := Nat.pow_le_pow_right (by decide) hlog
      _ = 2 * 2 ^ 52 * 2 ^ shift := Nat.pow_add 2 53 shift

section Nearest

variable {num den w : Nat}

/-- A fraction lies between two neighbours of the format, and is rounded to one of them; never up from a
number of the format itself. -/
theorem exists_neighbours (hden : 0 < den) (num : Nat) : ∃ below rounded,
    units below * den ≤ num * twoPow 1074 ∧ num * twoPow 1074 < units (below + 1) * den ∧
      nearestWord num den = min rounded infinityWord ∧
      (rounded = below ∨ (rounded = below + 1 ∧ units below * den < num * twoPow 1074)) := by
  let scaled := num * twoPow 1074
  let shift := Nat.log2 (scaled / den) - 52
  let q := scaled / (den * twoPow shift)
  -- with this shift the quotient has at most 53 bits, so it and its successor are on the grid
  obtain ⟨hlow, hhigh⟩ := grid_bounds (scaled / den)
  have hq : scaled / den / twoPow shift = q := Nat.div_div_eq_div_mul _ _ _
  rw [hq] at hlow hhigh
  have hbelow : units (shift * hiddenBit + q) = q * twoPow shift := units_grid hlow hhigh.le
  have habove : units (shift * hiddenBit + (q + 1)) = (q + 1) * twoPow shift :=
    units_grid (hlow.imp_right fun h => by omega) hhigh
  have hstep : 0 < den * twoPow shift := Nat.mul_pos hden (twoPow_pos _)
  -- the rest of the division says where the fraction lies between the two
  have hsplit : den * twoPow shift * q + scaled % (den * twoPow shift) = scaled := Nat.div_add_mod _ _
  have hrest : scaled % (den * twoPow shift) < den * twoPow shift := Nat.mod_lt _ hstep
  have hunits : units (shift * hiddenBit + q) * den = den * twoPow shift * q := by
    rw [hbelow]
    ring
  refine ⟨shift * hiddenBit + q, shift * hiddenBit + roundDiv scaled (den * twoPow shift), ?_, ?_, rfl, ?_⟩
  · show _ ≤ scaled
    omega
  · show scaled < _
    have hnext : units (shift * hiddenBit + q + 1) * den = den * twoPow shift * q + den * twoPow shift := by
      rw [Nat.add_assoc, habove]
      ring
    omega
  · show _ ∨ (_ ∧ _ < scaled)
    rcases roundDiv_cases scaled (den * twoPow shift) with hdown | ⟨hup, hnonzero⟩
    · exact .inl (by rw [hdown])
    · right
      constructor
      · rw [hup]
        omega
      · omega

/-- A number of the format that is not above a fraction is not above its rounding. -/
theorem le_nearestWord (hden : 0 < den) (hw : w ≤ infinityWord)
    (h : units w * den ≤ num * twoPow 1074) : w ≤ nearestWord num den := by
  obtain ⟨below, rounded, _, habove, hnearest, hrounded⟩ := exists_neighbours hden num
  have hlt : w < below + 1 := lt_of_units_lt (Nat.lt_of_mul_lt_mul_right (Nat.lt_of_le_of_lt h habove))
  rw [hnearest]
  omega

/-- A number of the format that is not below a fraction is not below its rounding. -/
theorem nearestWord_le (hden : 0 < den) (h : num * twoPow 1074 ≤ units w * den) :
    nearestWord num den ≤ w := by
  obtain ⟨below, rounded, hbelow, _, hnearest, hrounded⟩ := exists_neighbours hden num
  have hle : below ≤ w := by
    -- or the lower neighbour, and so the fraction, would be above the number
    by_contra hlt
    have hmono : units w * den < units below * den :=
      Nat.mul_lt_mul_of_pos_right (Nat.lt_of_lt_of_le (units_lt_units_succ w)
        (units_le_units (Nat.lt_of_not_le hlt))) hden
    omega
  have hless : units below * den < num * twoPow 1074 → below < w := fun hrest =>
    lt_of_units_lt (Nat.lt_of_mul_lt_mul_right (Nat.lt_of_lt_of_le hrest h))
  rw [hnearest]
  omega

end Nearest

/-! ## Integers among the numbers of the format -/

section Integers

variable {x : Binary64} {i : Int}

theorem isNegative_ofWord (neg : Bool) {w : Nat} (h : w < signBit) :
    (ofWord neg w).isNegative = neg := by
  unfold isNegative ofWord
  unfold signBit at *
  cases neg with
  | false =>
    simp only [Bool.false_eq_true, if_false, UInt64.toNat_ofNat', decide_eq_false_iff_not]
    omega
  | true =>
    simp only [if_true, UInt64.toNat_ofNat', decide_eq_true_eq]
    omega

/-- The units of a rounded integer. -/
theorem signedUnits_ofInt (i : Int) : (ofInt i).signedUnits =
    if i < 0 then -(units (nearestWord i.natAbs 1) : Int) else (units (nearestWord i.natAbs 1) : Int) := by
  have hle : nearestWord i.natAbs 1 ≤ infinityWord := Nat.min_le_right _ _
  have hlt : nearestWord i.natAbs 1 < signBit := Nat.lt_of_le_of_lt hle (by decide)
  rw [signedUnits, ofInt, ofRatio, word_ofWord _ hlt, isNegative_ofWord _ hlt]
  simp only [decide_eq_true_eq]

/-- The units of an integer itself. -/
def unitsOfInt (i : Int) : Int := i * (twoPow 1074 : Int)

theorem unitsOfInt_eq (i : Int) : unitsOfInt i =
    if i < 0 then -((i.natAbs * twoPow 1074 : Nat) : Int) else ((i.natAbs * twoPow 1074 : Nat) : Int) := by
  rw [unitsOfInt, Nat.cast_mul]
  split
  · rw [show (i.natAbs : Int) = -i by omega]
    ring
  · rw [show (i.natAbs : Int) = i by omega]

/-- The magnitude of a finite number and the rounding of an integer magnitude are ordered like the two
magnitudes. -/
theorem units_word_bounds (hx : x.isFinite = true) (m : Nat) :
    (units x.word ≤ m * twoPow 1074 → units x.word ≤ units (nearestWord m 1)) ∧
      (m * twoPow 1074 ≤ units x.word → units (nearestWord m 1) ≤ units x.word) := by
  have hword : x.word ≤ infinityWord := by
    simp only [isFinite, decide_eq_true_eq] at hx
    exact hx.le
  constructor
  · intro h
    exact units_le_units (le_nearestWord Nat.one_pos hword (by rwa [Nat.mul_one]))
  · intro h
    exact units_le_units (nearestWord_le Nat.one_pos (by rwa [Nat.mul_one]))

/-- A finite number that is not above an integer is not above the rounded integer. -/
theorem signedUnits_le_ofInt (hx : x.isFinite = true) (h : x.signedUnits ≤ unitsOfInt i) :
    x.signedUnits ≤ (ofInt i).signedUnits := by
  obtain ⟨hdown, hup⟩ := units_word_bounds hx i.natAbs
  rw [unitsOfInt_eq] at h
  rw [signedUnits_ofInt]
  unfold signedUnits at *
  -- below zero the magnitudes are ordered the other way round
  by_cases hi : i < 0 <;> by_cases hneg : x.isNegative = true
  all_goals
    simp only [hi, hneg, Bool.false_eq_true, if_true, if_false] at h ⊢
    omega

/-- A finite number that is not below an integer is not below the rounded integer. -/
theorem ofInt_le_signedUnits (hx : x.isFinite = true) (h : unitsOfInt i ≤ x.signedUnits) :
    (ofInt i).signedUnits ≤ x.signedUnits := by
  obtain ⟨hdown, hup⟩ := units_word_bounds hx i.natAbs
  rw [unitsOfInt_eq] at h
  rw [signedUnits_ofInt]
  unfold signedUnits at *
  -- the same four cases, with the bounds of the magnitudes in each other's place
  by_cases hi : i < 0 <;> by_cases hneg : x.isNegative = true
  all_goals
    simp only [hi, hneg, Bool.false_eq_true, if_true, if_false] at h ⊢
    omega

/-- A rounded integer has the order of the integer with every finite number but the one that it is rounded
to. -/
theorem compare_signedUnits_ofInt (hx : x.isFinite = true) (h : (ofInt i).signedUnits ≠ x.signedUnits) :
    compare (ofInt i).signedUnits x.signedUnits = compare (unitsOfInt i) x.signedUnits := by
  rcases lt_trichotomy (unitsOfInt i) x.signedUnits with hlt | heq | hgt
  · rw [compare_lt_iff_lt.2 hlt, compare_lt_iff_lt]
    exact lt_of_le_of_ne (ofInt_le_signedUnits hx hlt.le) h
  · -- an integer that is a number of the format is its own rounding
    exact absurd (le_antisymm (ofInt_le_signedUnits hx heq.le) (signedUnits_le_ofInt hx heq.ge)) h
  · rw [compare_gt_iff_gt.2 hgt, compare_gt_iff_gt]
    exact lt_of_le_of_ne (signedUnits_le_ofInt hx hgt.le) (Ne.symm h)

/-- A magnitude of up to 53 bits is a number of the format. -/
theorem exists_word_of_le {m : Nat} (h : m ≤ 2 ^ 53) :
    ∃ w ≤ infinityWord, units w = m * twoPow 1074 := by
  rcases Nat.eq_zero_or_pos m with rfl | hpos
  · exact ⟨0, by decide, by simp [units, hiddenBit]⟩
  -- its leading bit becomes the hidden one
  let short := 52 - Nat.log2 m
  have hself : 2 ^ Nat.log2 m ≤ m := Nat.log2_self_le hpos.ne'
  have hlog : Nat.log2 m ≤ 53 := (Nat.pow_le_pow_iff_right (by decide)).1 (hself.trans h)
  have hlow : hiddenBit ≤ m * 2 ^ short :=
    calc 2 ^ 52 ≤ 2 ^ (Nat.log2 m + short) := Nat.pow_le_pow_right (by decide) (by omega)
      _ = 2 ^ Nat.log2 m * 2 ^ short := Nat.pow_add _ _ _
      _ ≤ m * 2 ^ short := Nat.mul_le_mul_right _ hself
  have hhigh : m * 2 ^ short ≤ 2 * hiddenBit := by
    rcases Nat.eq_zero_or_pos short with hzero | hshort
    · rw [hzero, Nat.pow_zero, Nat.mul_one]
      exact h
    · have hsum : Nat.log2 m + 1 + short = 53 := by omega
      calc m * 2 ^ short ≤ 2 ^ (Nat.log2 m + 1) * 2 ^ short :=
            Nat.mul_le_mul_right _ (Nat.lt_log2_self).le
        _ = 2 ^ 53 := by rw [← Nat.pow_add, hsum]
  refine ⟨(1074 - short) * hiddenBit + m * 2 ^ short, ?_, ?_⟩
  · have hinfinity : infinityWord = 2047 * hiddenBit := rfl
    have hshift : (1074 - short) * hiddenBit ≤ 1074 * hiddenBit := Nat.mul_le_mul_right _ (Nat.sub_le _ _)
    omega
  · rw [units_grid (.inr hlow) hhigh, twoPow_eq, twoPow_eq, Nat.mul_assoc, ← Nat.pow_add]
    congr 2
    omega

/-- An integer of up to 53 bits is its own rounding. -/
theorem signedUnits_ofInt_of_le (h : i.natAbs ≤ 2 ^ 53) : (ofInt i).signedUnits = unitsOfInt i := by
  obtain ⟨w, hw, hunits⟩ := exists_word_of_le h
  have hdown : w ≤ nearestWord i.natAbs 1 := le_nearestWord Nat.one_pos hw (by rw [Nat.mul_one, hunits])
  have hup : nearestWord i.natAbs 1 ≤ w := nearestWord_le Nat.one_pos (by rw [Nat.mul_one, hunits])
  rw [signedUnits_ofInt, unitsOfInt_eq, Nat.le_antisymm hup hdown, hunits]

end Integers

/-! ## Exact numbers -/

/-- The fraction that a finite number stands for. -/
def toRat (x : Binary64) : ℚ := x.signedUnits / (twoPow 1074 : ℚ)

theorem twoPow_pos_rat (k : Nat) : (0 : ℚ) < (twoPow k : ℚ) := Nat.cast_pos.2 (twoPow_pos k)

theorem compare_div_twoPow (a b : Int) (k : Nat) :
    compare ((a : ℚ) / (twoPow k : ℚ)) ((b : ℚ) / (twoPow k : ℚ)) = compare a b := by
  have hpos := twoPow_pos_rat k
  rcases lt_trichotomy a b with h | rfl | h
  · rw [compare_lt_iff_lt.2 h, compare_lt_iff_lt, div_lt_div_iff_of_pos_right hpos]
    exact Int.cast_lt.2 h
  · rw [compare_eq_iff_eq.2 (rfl : (a : ℚ) / _ = _), compare_eq_iff_eq.2 (rfl : a = a)]
  · rw [compare_gt_iff_gt.2 h, compare_gt_iff_gt]
    exact (div_lt_div_iff_of_pos_right hpos).2 (Int.cast_lt.2 h)

theorem compare_toRat (x y : Binary64) : compare x.toRat y.toRat = compare x.signedUnits y.signedUnits :=
  compare_div_twoPow _ _ _

theorem intCast_eq_div (i : Int) : (i : ℚ) = (unitsOfInt i : ℚ) / (twoPow 1074 : ℚ) := by
  rw [unitsOfInt, Int.cast_mul, Int.cast_natCast, mul_div_assoc, div_self (twoPow_pos_rat 1074).ne', mul_one]

theorem toRat_eq_iff {x y : Binary64} : x.toRat = y.toRat ↔ x.signedUnits = y.signedUnits := by
  rw [← compare_eq_iff_eq, compare_toRat, compare_eq_iff_eq]

theorem compare?_eq {x y : Binary64} (hx : x.isNaN = false) (hy : y.isNaN = false) :
    x.compare? y = some (compare x.toRat y.toRat) := by
  rw [compare?, hx, hy, compare_toRat]
  rfl

/-- A rounded integer has the order of the integer, or is the other number. -/
theorem compare_toRat_ofInt {x : Binary64} (hx : x.isFinite = true) {i : Int}
    (h : (ofInt i).toRat = x.toRat → (i : ℚ) = x.toRat) :
    compare (ofInt i).toRat x.toRat = compare (i : ℚ) x.toRat := by
  by_cases heq : (ofInt i).toRat = x.toRat
  · rw [heq, h heq]
  · rw [compare_toRat, compare_signedUnits_ofInt hx (mt toRat_eq_iff.2 heq), intCast_eq_div]
    exact (compare_div_twoPow _ _ _).symm

theorem toRat_eq_intCast {x : Binary64} {i : Int} (h : x.signedUnits = unitsOfInt i) : x.toRat = i := by
  rw [toRat, h]
  exact (intCast_eq_div i).symm

theorem toRat_ofInt_of_le {i : Int} (h : i.natAbs ≤ 2 ^ 53) : (ofInt i).toRat = i :=
  toRat_eq_intCast (signedUnits_ofInt_of_le h)

end Binary64

/-! ## Values -/

namespace Value

/-- The number that a numeric value stands for, without any rounding. -/
def toRat? : Value → Option ℚ
  | int i => some i.toInt
  | float x => if x.isFinite then some x.toRat else none
  | _ => none

/-- An integer is rounded to a floating-point number, though it is another number. -/
def RoundsTo (i : Int64) (x : Binary64) : Prop :=
  (Binary64.ofInt i.toInt).toRat = x.toRat ∧ (i.toInt : ℚ) ≠ x.toRat

/-- One of two values is an integer that is rounded to the other one. -/
def Blurs : Value → Value → Prop
  | int i, float x => RoundsTo i x
  | float x, int i => RoundsTo i x
  | _, _ => False

/-- Integers of up to 53 bits, and all values that are no integers. -/
def IsShort : Value → Prop
  | int i => i.toInt.natAbs ≤ 2 ^ 53
  | _ => True

variable {a b c : Value} {x y z : ℚ} {i j : Int64} {f g : Binary64}

theorem compare?_int (i j : Int64) :
    (int i).compare? (int j) = some (compare (i.toInt : ℚ) (j.toInt : ℚ)) := by
  show some (compareOfLessAndEq i j) = _
  congr 1
  rcases lt_trichotomy i.toInt j.toInt with h | h | h
  · rw [compareOfLessAndEq, if_pos (Int64.lt_iff_toInt_lt.2 h), compare_lt_iff_lt.2 (Int.cast_lt.2 h)]
  · obtain rfl := Int64.toInt_inj.1 h
    rw [compareOfLessAndEq, if_neg Int64.lt_irrefl, if_pos rfl, compare_eq_iff_eq.2 rfl]
  · have hlt : ¬ i < j := fun hlt => absurd (Int64.lt_iff_toInt_lt.1 hlt) (not_lt_of_gt h)
    have hne : i ≠ j := by
      rintro rfl
      exact lt_irrefl _ h
    rw [compareOfLessAndEq, if_neg hlt, if_neg hne, compare_gt_iff_gt.2 (Int.cast_lt.2 h)]

/-- An integer and a floating-point number, in this order. -/
theorem compare?_int_float (hf : f.isFinite = true) :
    (int i).compare? (float f) = some (compare (Binary64.ofInt i.toInt).toRat f.toRat) :=
  Binary64.compare?_eq (Binary64.isNaN_ofRatio _ _ _) (Binary64.isNaN_of_isFinite hf)

theorem compare?_float_int (hf : f.isFinite = true) :
    (float f).compare? (int i) = some (compare f.toRat (Binary64.ofInt i.toInt).toRat) :=
  Binary64.compare?_eq (Binary64.isNaN_of_isFinite hf) (Binary64.isNaN_ofRatio _ _ _)

theorem toRat?_float (hf : f.isFinite = true) : (float f).toRat? = some f.toRat := if_pos hf

theorem toRat?_float_eq_some (h : (float f).toRat? = some x) : f.isFinite = true ∧ x = f.toRat := by
  rw [toRat?] at h
  split at h
  · rename_i hf
    cases h
    exact ⟨hf, rfl⟩
  · cases h

theorem compare?_of_not_blurs (ha : a.toRat? = some x) (hb : b.toRat? = some y) (h : ¬ a.Blurs b) :
    a.compare? b = some (compare x y) := by
  cases a with
  | null | bool | text => cases ha
  | int i =>
    cases ha
    cases b with
    | null | bool | text => cases hb
    | int j =>
      cases hb
      exact compare?_int i j
    | float g =>
      obtain ⟨hg, rfl⟩ := toRat?_float_eq_some hb
      rw [compare?_int_float hg, Binary64.compare_toRat_ofInt hg]
      intro hrounds
      exact not_not.1 fun hne => h ⟨hrounds, hne⟩
  | float f =>
    obtain ⟨hf, rfl⟩ := toRat?_float_eq_some ha
    cases b with
    | null | bool | text => cases hb
    | int j =>
      cases hb
      -- the same as the other way round
      rw [compare?_float_int hf, Std.OrientedOrd.eq_swap, Binary64.compare_toRat_ofInt hf,
        ← Std.OrientedOrd.eq_swap]
      intro hrounds
      exact not_not.1 fun hne => h ⟨hrounds, hne⟩
    | float g =>
      obtain ⟨hg, rfl⟩ := toRat?_float_eq_some hb
      exact Binary64.compare?_eq (Binary64.isNaN_of_isFinite hf) (Binary64.isNaN_of_isFinite hg)

/-- An integer equals the number that it is rounded to. -/
theorem compare?_of_blurs (ha : a.toRat? = some x) (hb : b.toRat? = some y) (h : a.Blurs b) :
    x ≠ y ∧ a.compare? b = some .eq := by
  cases a with
  | null | bool | text => cases ha
  | int i =>
    cases ha
    cases b with
    | null | bool | text => cases hb
    | int j => exact h.elim
    | float g =>
      obtain ⟨hg, rfl⟩ := toRat?_float_eq_some hb
      exact ⟨h.2, by rw [compare?_int_float hg, compare_eq_iff_eq.2 h.1]⟩
  | float f =>
    obtain ⟨hf, rfl⟩ := toRat?_float_eq_some ha
    cases b with
    | null | bool | text => cases hb
    | int j =>
      cases hb
      exact ⟨h.2.symm, by rw [compare?_float_int hf, compare_eq_iff_eq.2 h.1.symm]⟩
    | float g => exact h.elim

theorem not_blurs_of_isShort (ha : a.IsShort) (hb : b.IsShort) : ¬ a.Blurs b := by
  cases a <;> cases b
  case int.float i g => exact fun h => h.2 (by rw [← h.1, Binary64.toRat_ofInt_of_le ha])
  case float.int f j => exact fun h => h.2 (by rw [← h.1, Binary64.toRat_ofInt_of_le hb])
  all_goals exact id

/-- Equality without rounding is equality of the numbers. -/
theorem compare?_eq_iff (ha : a.toRat? = some x) (hb : b.toRat? = some y) :
    a.compare? b = some .eq ↔ x = y ∨ a.Blurs b := by
  by_cases h : a.Blurs b
  · exact ⟨fun _ => .inr h, fun _ => (compare?_of_blurs ha hb h).2⟩
  · rw [compare?_of_not_blurs ha hb h, Option.some_inj, compare_eq_iff_eq]
    exact ⟨.inl, fun hxy => hxy.resolve_right h⟩

end Value

/-- **The order of numbers.** Two numeric values have the order of the numbers that they stand for, unless
one is an integer that is rounded to the other, which is another number; then both count as equal. That takes
an integer of more than 53 bits and a floating-point number. Through values that are not blurred like this
equality goes on: what equals the same value is equal. -/
theorem numeric_order_exact {a b : Value} {x y : ℚ} (ha : a.toRat? = some x) (hb : b.toRat? = some y) :
    (¬ a.Blurs b → a.compare? b = some (compare x y)) ∧
      (a.Blurs b → x ≠ y ∧ a.compare? b = some .eq) ∧
      (a.IsShort → b.IsShort → ¬ a.Blurs b) ∧
      ∀ {c : Value} {z : ℚ}, c.toRat? = some z → ¬ a.Blurs b → ¬ b.Blurs c →
        a.compare? b = some .eq → b.compare? c = some .eq → a.compare? c = some .eq := by
  refine ⟨Value.compare?_of_not_blurs ha hb, Value.compare?_of_blurs ha hb, Value.not_blurs_of_isShort, ?_⟩
  intro c z hc hab hbc hfirst hsecond
  have hxy : x = y := ((Value.compare?_eq_iff ha hb).1 hfirst).resolve_right hab
  have hyz : y = z := ((Value.compare?_eq_iff hb hc).1 hsecond).resolve_right hbc
  exact (Value.compare?_eq_iff ha hc).2 (.inl (hxy.trans hyz))

/-- An integer of 54 bits that is rounded down stays below the next number of the format. -/
theorem numeric_order_exact_long :
    let a : Value := .int 9007199254740993
    let b : Value := .float ⟨0x4340000000000001⟩
    a.toRat? = some 9007199254740993 ∧ b.toRat? = some 9007199254740994 ∧ ¬ a.Blurs b ∧
      a.compare? b = some .lt := by
  intro a b
  have hb : (⟨0x4340000000000001⟩ : Binary64).toRat = (9007199254740994 : Int) :=
    Binary64.toRat_eq_intCast (by decide +kernel)
  have hrounded : (Binary64.ofInt 9007199254740993).toRat = (9007199254740992 : Int) :=
    Binary64.toRat_eq_intCast (by decide +kernel)
  have hexact : a.toRat? = some 9007199254740993 := rfl
  have hexact' : b.toRat? = some 9007199254740994 := by
    rw [Value.toRat?_float (by decide +kernel), hb]
    rfl
  have hclear : ¬ a.Blurs b := by
    rintro ⟨heq, _⟩
    have hsame : (Binary64.ofInt 9007199254740993).toRat = (⟨0x4340000000000001⟩ : Binary64).toRat := heq
    rw [hrounded, hb] at hsame
    exact absurd (Int.cast_inj.1 hsame) (by decide)
  refine ⟨hexact, hexact', hclear, ?_⟩
  rw [(numeric_order_exact hexact hexact').1 hclear, compare_lt_iff_lt.2 (by decide)]

/-- Two integers that are one apart both equal the number that the larger one is rounded to. -/
theorem rounded_integer_equal :
    let a : Value := .int 9007199254740993
    let b : Value := .float ⟨0x4340000000000000⟩
    let c : Value := .int 9007199254740992
    a.toRat? = some 9007199254740993 ∧ b.toRat? = some 9007199254740992 ∧
      compare (9007199254740993 : ℚ) 9007199254740992 = .gt ∧ a.compare? b = some .eq ∧
      b.compare? c = some .eq ∧ a.compare? c = some .gt := by
  intro a b c
  have hb : (⟨0x4340000000000000⟩ : Binary64).toRat = (9007199254740992 : Int) :=
    Binary64.toRat_eq_intCast (by decide +kernel)
  have hexact : b.toRat? = some 9007199254740992 := by
    rw [Value.toRat?_float (by decide +kernel), hb]
    rfl
  exact ⟨rfl, hexact, compare_gt_iff_gt.2 (by decide), by decide +kernel, by decide +kernel,
    by decide +kernel⟩

end RowFilter
