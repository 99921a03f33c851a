import RowFilter.Page
import RowFilter.Proofs.Results

/-!
# RowFilter — matching rows

The matches of a filter are the positions of its mask that hold: each of them once, in increasing order,
and no others. So the matches of two opposite masks share out the rows of a table between them.

Main results:

* `Compiled.mem_matchingFrom` — the matches are exactly the positions that hold.
* `Compiled.matchingFrom_not_perm` — opposite masks match every row between them once.
* `Compiled.outcome_matchingRows` — the matches of a filter are those of its mask.
* `Evaluator.answers_holds_iff` — the one answer that an evaluator has for a row.
-/

namespace RowFilter

/-- The filter has one answer for a row, whatever was noticed before. -/
theorem Evaluator.answers_holds_iff {e : Evaluator} {row : Row} {y : Except FilterError Bool} :
    (e.holds row).Answers y ↔ e.verdict row = y := by
  constructor
  · intro h
    rw [← answers_holds e row [], h []]
  · rintro rfl
    exact answers_holds e row

namespace Compiled

theorem mem_matchingFrom {index : Nat} {bs : List Bool} {i : Nat} :
    i ∈ matchingFrom index bs ↔ index ≤ i ∧ bs[i - index]? = some true := by
  induction bs generalizing index with
  | nil => simp [matchingFrom]
  | cons b bs ih =>
    -- a position is that of the first bit, or it counts on behind it
    have hrest : i ∈ matchingFrom (index + 1) bs ↔
        index < i ∧ (b :: bs)[i - index]? = some true := by
      rw [ih]
      constructor
      · rintro ⟨hle, hbit⟩
        have hplace : i - index = (i - (index + 1)) + 1 := by omega
        exact ⟨hle, by rw [hplace, List.getElem?_cons_succ, hbit]⟩
      · rintro ⟨hlt, hbit⟩
        have hplace : i - index = (i - (index + 1)) + 1 := by omega
        rw [hplace, List.getElem?_cons_succ] at hbit
        exact ⟨hlt, hbit⟩
    have hfirst : (b :: bs)[index - index]? = some b := by rw [Nat.sub_self, List.getElem?_cons_zero]
    cases b with
    | false =>
      rw [matchingFrom, if_neg (by decide), hrest]
      constructor
      · rintro ⟨hlt, hbit⟩
        exact ⟨by omega, hbit⟩
      · rintro ⟨hle, hbit⟩
        rcases Nat.eq_or_lt_of_le hle with rfl | hlt
        · rw [hfirst] at hbit
          cases hbit
        · exact ⟨hlt, hbit⟩
    | true =>
      rw [matchingFrom, if_pos rfl, List.mem_cons, hrest]
      constructor
      · rintro (rfl | ⟨hlt, hbit⟩)
        · exact ⟨Nat.le_refl _, hfirst⟩
        · exact ⟨by omega, hbit⟩
      · rintro ⟨hle, hbit⟩
        rcases Nat.eq_or_lt_of_le hle with rfl | hlt
        · exact .inl rfl
        · exact .inr ⟨hlt, hbit⟩

/-- There are no more matches than rows. -/
theorem length_matchingFrom_le (index : Nat) (bs : List Bool) :
    (matchingFrom index bs).length ≤ bs.length := by
  induction bs generalizing index with
  | nil => exact Nat.le_refl 0
  | cons b bs ih =>
    have hrest := ih (index + 1)
    unfold matchingFrom
    split
    · exact Nat.succ_le_succ hrest
    · exact Nat.le_succ_of_le hrest

/-- Every row matches one of two opposite masks, and none matches both. -/
theorem matchingFrom_not_perm (index : Nat) (bs : List Bool) :
    (matchingFrom index bs ++ matchingFrom index (bs.map not)).Perm
      (List.range' index bs.length) := by
  induction bs generalizing index with
  | nil => exact .refl _
  | cons b bs ih =>
    have hrest := ih (index + 1)
    rw [List.length_cons, List.range'_succ]
    cases b with
    | false =>
      -- the first row is one that does not match the first mask
      show (matchingFrom (index + 1) bs ++ index :: matchingFrom (index + 1) (bs.map not)).Perm _
      exact List.perm_middle.trans (hrest.cons index)
    | true => exact hrest.cons index

theorem outcome_matchingRows (c : Compiled) (t : Table) :
    (c.matchingRows t).outcome = (c.mask t).outcome.map (matchingFrom 0) := by
  rw [matchingRows, Traced.outcome_bind]
  cases (c.mask t).outcome <;> rfl

/-- A mask has one truth value for each row. -/
theorem length_mask {c : Compiled} {t : Table} {bs : List Bool} (h : (c.mask t).outcome = .ok bs) :
    bs.length = t.rows.length := by
  rw [outcome_mask] at h
  obtain ⟨e, _, h⟩ := bind_eq_ok h
  exact length_of_mapM_eq_ok h

end Compiled

end RowFilter
