import RowFilter.Proofs.SourceOrder

/-!
# RowFilter — keywords in any case

Keywords are compared without regard to case. The comparison goes through the Unicode lower case of a whole
text, which for the letters A to Z is the small letter. The other tests that are made of characters do not
tell those letters from the small ones either, and so the keyword of a text is the keyword of the text in
small letters. An operator does not depend on the blanks between its words.

Main results:

* `apply_toLower` — what holds for the capitals A to Z holds for all characters.
* `apply_blank` — what holds for the code points of the table holds for all blanks.
* `lowercase_map_toLower`, `words_map_toLower` — the lower case and the words of a text in small letters.
* `Conjunction.ofKeyword?_map_toLower`, `Operator.ofKeyword?_map_toLower` — so are the keywords.
* `Operator.ofKeyword?_notIn` — the operator of two words, whatever blanks stand between them.
-/

namespace RowFilter

namespace Text

/-! ## Small letters -/

/-- The code points of the letters A to Z. -/
def capitals : List Nat := List.range' 65 26

theorem toLower_eq_self {c : Char} (h : c.toNat ∉ capitals) : c.toLower = c := by
  delta Char.toLower
  split
  · -- a character in the range is one of the letters
    rename_i hc
    have hlow : 'A'.val.toNat ≤ c.val.toNat := UInt32.le_iff_toNat_le.1 hc.1
    have hhigh : c.val.toNat ≤ 'Z'.val.toNat := UInt32.le_iff_toNat_le.1 hc.2
    simp only [show 'A'.val.toNat = 65 by decide, show 'Z'.val.toNat = 90 by decide] at hlow hhigh
    exact absurd (List.mem_range'_1.2 ⟨hlow, Nat.lt_succ_of_le hhigh⟩) h
  · rfl

/-- What a function gives for a small letter it gives for every character, if it does for the capitals. -/
theorem apply_toLower {α : Type} {f : Char → α}
    (hf : ∀ n ∈ capitals, f (Char.ofNat n).toLower = f (Char.ofNat n)) (c : Char) :
    f c.toLower = f c := by
  by_cases hc : c.toNat ∈ capitals
  · have h := hf _ hc
    rwa [Char.ofNat_toNat] at h
  · rw [toLower_eq_self hc]

theorem toLower_toLower (c : Char) : c.toLower.toLower = c.toLower :=
  apply_toLower (f := Char.toLower) (by decide) c

theorem isBlank_toLower (c : Char) : isBlank c.toLower = isBlank c :=
  apply_toLower (by decide) c

/-- A text and its small letters meet the same cased characters. -/
theorem meetsCased_map_toLower (s : List Char) : meetsCased (s.map Char.toLower) = meetsCased s := by
  induction s with
  | nil => rfl
  | cons c s ih =>
    have hignorable : caseIgnorables.contains c.toLower = caseIgnorables.contains c :=
      apply_toLower (by decide +kernel) c
    have hcased : casedLetters.contains c.toLower = casedLetters.contains c :=
      apply_toLower (by decide +kernel) c
    rw [List.map_cons, meetsCased, meetsCased, List.dropWhile_cons, List.dropWhile_cons, hignorable]
    by_cases hc : caseIgnorables.contains c = true
    · rw [if_pos hc, if_pos hc]
      exact ih
    · rw [if_neg hc, if_neg hc]
      exact hcased

theorem lowercaseFrom_map_toLower (before s : List Char) :
    lowercaseFrom (before.map Char.toLower) (s.map Char.toLower) = lowercaseFrom before s := by
  induction s generalizing before with
  | nil => rfl
  | cons c s ih =>
    have hchar : lowerChar c.toLower = lowerChar c := apply_toLower (by decide +kernel) c
    have hsigma : decide (c.toLower = 'Σ') = decide (c = 'Σ') :=
      apply_toLower (f := fun c => decide (c = 'Σ')) (by decide) c
    -- a final sigma depends on what stands around it, and the same cased characters do
    rw [List.map_cons, lowercaseFrom, lowercaseFrom, ← List.map_cons, ih, hchar, endsWord, endsWord,
      meetsCased_map_toLower, meetsCased_map_toLower]
    by_cases hc : c = 'Σ'
    · rw [if_pos hc, if_pos (of_decide_eq_true (hsigma.trans (decide_eq_true hc)))]
    · rw [if_neg hc, if_neg (of_decide_eq_false (hsigma.trans (decide_eq_false hc)))]

/-- The small letters of a text have its lower case. -/
theorem lowercase_map_toLower (s : List Char) : lowercase (s.map Char.toLower) = lowercase s :=
  lowercaseFrom_map_toLower [] s

theorem sameIgnoringCase_map_toLower (s t : List Char) :
    sameIgnoringCase (s.map Char.toLower) t = sameIgnoringCase s t := by
  have hs : (s.map Char.toLower).map Char.toLower = s.map Char.toLower := by
    rw [List.map_map]
    exact List.map_congr_left fun c _ => toLower_toLower c
  rw [sameIgnoringCase, hs]
  rfl

/-! ## Blanks -/

/-- The code points between boundaries. -/
def CharSet.codes : List Nat → List Nat
  | low :: high :: rest => List.range' low (high - low) ++ codes rest
  | _ => []

theorem CharSet.mem_codes {n : Nat} {bounds : List Nat} (h : inside n bounds = true) : n ∈ codes bounds := by
  fun_induction inside n bounds with
  | case1 => cases h
  | case2 low high rest hlow hhigh =>
    refine List.mem_append_left _ (List.mem_range'_1.2 ?_)
    omega
  | case3 low high rest hlow hhigh ih => exact List.mem_append_right _ (ih h)
  | case4 => cases h

/-- What a function gives for the code points of the table it gives for every blank. -/
theorem apply_blank {α : Type} {f : Char → α} {a : α}
    (hf : ∀ n ∈ CharSet.codes blanks.bounds, f (Char.ofNat n) = a) {c : Char} (hc : isBlank c = true) :
    f c = a := by
  rw [← Char.ofNat_toNat c]
  exact hf _ (CharSet.mem_codes hc)

/-! ## Words -/

theorem runs_map_toLower (word s : List Char) :
    runs (word.map Char.toLower) (s.map Char.toLower) = (runs word s).map (List.map Char.toLower) := by
  induction s generalizing word with
  | nil =>
    cases word with
    | nil => rfl
    | cons c word => simp [runs]
  | cons c s ih =>
    rw [List.map_cons, runs, runs, isBlank_toLower, List.isEmpty_map]
    split
    · split
      · exact ih []
      · rw [List.map_cons, ← ih [], List.map_reverse]
        rfl
    · exact ih (c :: word)

/-- The words of a text in small letters. -/
theorem words_map_toLower (s : List Char) :
    words (s.map Char.toLower) = (words s).map (List.map Char.toLower) :=
  runs_map_toLower [] s

/-- Blanks in front of a text belong to no word. -/
theorem words_blanks_append {b : List Char} (hb : b.all isBlank = true) (s : List Char) :
    words (b ++ s) = words s := by
  induction b with
  | nil => rfl
  | cons c b ih =>
    obtain ⟨hc, hb⟩ := Bool.and_eq_true_iff.1 hb
    rw [words, List.cons_append, runs, if_pos hc]
    exact ih hb

theorem runs_append {word s : List Char} (hs : s.any isBlank = false) (t : List Char) :
    runs word (s ++ t) = runs (s.reverse ++ word) t := by
  induction s generalizing word with
  | nil => rfl
  | cons c s ih =>
    obtain ⟨hc, hs⟩ := Bool.or_eq_false_iff.1 hs
    rw [List.cons_append, runs, if_neg (by rw [hc]; decide), ih hs, List.reverse_cons, List.append_assoc]
    rfl

/-- Two words with blanks between them. -/
theorem words_two {s t b : List Char} (hs : s.any isBlank = false) (ht : t.any isBlank = false)
    (hsn : s ≠ []) (htn : t ≠ []) (hb : b.all isBlank = true) (hbn : b ≠ []) :
    words (s ++ (b ++ t)) = [s, t] := by
  have hlast : words t = [t] := by
    have hend : runs [] (t ++ []) = runs (t.reverse ++ []) [] := runs_append ht []
    rw [List.append_nil] at hend
    rw [words, hend, runs, if_neg (by simpa using htn)]
    simp
  cases b with
  | nil => exact absurd rfl hbn
  | cons c b =>
    obtain ⟨hc, hb⟩ := Bool.and_eq_true_iff.1 hb
    -- the first blank ends the first word, and the others are in front of the second
    have hrest : runs [] (b ++ t) = words t := words_blanks_append hb t
    rw [words, runs_append hs, List.cons_append, runs, if_pos hc, if_neg (by simpa using hsn), hrest, hlast]
    simp

end Text

/-! ## Keywords -/

open Text (isBlank sameIgnoringCase)

theorem Query.Conjunction.ofKeyword?_map_toLower (s : List Char) :
    ofKeyword? (s.map Char.toLower) = ofKeyword? s := by
  rw [ofKeyword?, Text.lowercase_map_toLower]
  rfl

namespace Operator

theorem map_toLower_intercalate (ws : List (List Char)) :
    List.intercalate [' '] (ws.map (List.map Char.toLower)) =
      (List.intercalate [' '] ws).map Char.toLower := by
  induction ws with
  | nil => rfl
  | cons w ws ih =>
    cases ws with
    | nil => simp
    | cons v ws =>
      rw [List.map_cons] at ih
      simp [ih]

theorem normalize_map_toLower (s : List Char) : normalize (s.map Char.toLower) = normalize s := by
  rw [normalize, Text.words_map_toLower, map_toLower_intercalate, Text.lowercase_map_toLower]
  rfl

theorem ofKeyword?_map_toLower (s : List Char) : ofKeyword? (s.map Char.toLower) = ofKeyword? s := by
  rw [ofKeyword?, normalize_map_toLower]
  rfl

/-- The operator of two words, whatever blanks stand between them. -/
theorem ofKeyword?_notIn {s b t : List Char} (hs : sameIgnoringCase s ['n', 'o', 't'] = true)
    (ht : sameIgnoringCase t ['i', 'n'] = true) (hb : b.all isBlank = true) :
    ofKeyword? (s ++ b ++ t) = some .notInSet := by
  have hnot : s.map Char.toLower = ['n', 'o', 't'] := by simpa [sameIgnoringCase] using hs
  have hin : t.map Char.toLower = ['i', 'n'] := by simpa [sameIgnoringCase] using ht
  have hgap : (b.map Char.toLower).all isBlank = true := by
    rw [List.all_map]
    refine List.all_eq_true.2 fun c hc => ?_
    exact (Text.isBlank_toLower c).trans (List.all_eq_true.1 hb c hc)
  rw [← ofKeyword?_map_toLower, List.map_append, List.map_append, hnot, hin, List.append_assoc]
  by_cases hbn : b.map Char.toLower = []
  · -- without blanks it is the spelling in one word
    rw [hbn]
    decide +kernel
  · rw [ofKeyword?, normalize, Text.words_two (by decide) (by decide) (by decide) (by decide) hgap hbn]
    decide +kernel

end Operator

end RowFilter
