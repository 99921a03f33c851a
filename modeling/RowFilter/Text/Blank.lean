import RowFilter.Text.CharSet

/-!
# RowFilter — blank characters and trimming

Blank characters are those with the Unicode property `White_Space`. A zero-width space or a byte
order mark is not blank.

Main results:

* `trimStart_eq_self` — a text that does not open with a blank is left as it is.
* `trimStart_trimEnd` — what is dropped at the end leaves the front as it is.
-/

namespace RowFilter.Text

/-- The property `White_Space`. -/
def blanks : CharSet :=
  ⟨[0x9, 0xe, 0x20, 0x21, 0x85, 0x86, 0xa0, 0xa1, 0x1680, 0x1681, 0x2000, 0x200b, 0x2028, 0x202a,
    0x202f, 0x2030, 0x205f, 0x2060, 0x3000, 0x3001]⟩

/-- A blank character. -/
def isBlank (c : Char) : Bool := blanks.contains c

/-- Drops the blanks in front. -/
def trimStart (s : List Char) : List Char := s.dropWhile isBlank

/-- Drops the blanks at the end. -/
def trimEnd (s : List Char) : List Char := (s.reverse.dropWhile isBlank).reverse

/-- Drops the blanks at both ends. -/
def trim (s : List Char) : List Char := trimEnd (trimStart s)

theorem trimEnd_append_blanks (s : List Char) :
    ∃ blanks, s = trimEnd s ++ blanks ∧ blanks.all isBlank = true := by
  refine ⟨(s.reverse.takeWhile isBlank).reverse, ?_, ?_⟩
  · rw [trimEnd, ← List.reverse_append, List.takeWhile_append_dropWhile, List.reverse_reverse]
  · rw [List.all_reverse, List.all_takeWhile]

theorem trimStart_eq_self {c : Char} {s : List Char} (h : isBlank c = false) :
    trimStart (c :: s) = c :: s := by
  simp [trimStart, List.dropWhile, h]

theorem trimStart_trimEnd {s : List Char} (h : trimStart s = s) :
    trimStart (trimEnd s) = trimEnd s := by
  obtain ⟨blanks, hs, _⟩ := trimEnd_append_blanks s
  cases he : trimEnd s with
  | nil => rfl
  | cons c t =>
    rw [he] at hs
    have hc : isBlank c = false := by
      cases hb : isBlank c with
      | false => rfl
      | true =>
        -- a blank in front would have been dropped, so the text would be longer than itself
        rw [hs, trimStart, List.cons_append, List.dropWhile_cons_of_pos hb] at h
        have := congrArg List.length h
        have := (List.dropWhile_sublist (l := t ++ blanks) isBlank).length_le
        simp only [List.length_cons] at *
        omega
    exact trimStart_eq_self hc

/-- The maximal runs of characters that are not blank: `word` is the run being read, reversed. -/
def runs (word : List Char) : List Char → List (List Char)
  | [] => if word.isEmpty then [] else [word.reverse]
  | c :: rest =>
    if isBlank c then
      if word.isEmpty then runs [] rest else word.reverse :: runs [] rest
    else runs (c :: word) rest

/-- Splits a text at its blanks. -/
def words (s : List Char) : List (List Char) := runs [] s

end RowFilter.Text
