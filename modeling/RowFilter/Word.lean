/-!
# RowFilter — 64-bit words

Offsets and limits are words without a sign, and integer cells are words with one. Numbers of any size
become words only if they fit.

Main results:

* `toInt64?_eq_some_iff` — an integer becomes the word of its value, or none.
-/

namespace RowFilter

/-- The first natural that does not fit a word. -/
def wordBound : Nat := 0x10000000000000000

/-- The first natural that does not fit a word with a sign. -/
def int64Bound : Nat := 0x8000000000000000

/-- The word of a natural. -/
def toWord? (n : Nat) : Option UInt64 := if n < wordBound then some (UInt64.ofNat n) else none

/-- The signed word of an integer. -/
def toInt64? (i : Int) : Option Int64 :=
  if -int64Bound ≤ i ∧ i < int64Bound then some (Int64.ofInt i) else none

theorem toInt64?_eq_some_iff {i : Int} {w : Int64} : toInt64? i = some w ↔ w.toInt = i := by
  unfold toInt64? int64Bound
  constructor
  · intro h
    split at h
    · cases h
      rw [Int64.toInt_ofInt_of_le]
      · omega
      · omega
    · cases h
  · rintro rfl
    have h1 := w.le_toInt
    have h2 := w.toInt_lt
    rw [if_pos (by omega), Int64.ofInt_toInt]

end RowFilter
