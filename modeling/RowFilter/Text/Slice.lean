import RowFilter.Text.Search

/-!
# RowFilter — slices

A slice of a text is given by the bytes where it starts and stops. It can only be taken between two places
where a character starts or the text ends, in this order. Everything else has no slice: a place behind the end,
a place inside a character, a stop before the start.

Main results:

* `isSome_splitAt?_iff` — a text can be cut at the valid positions of the core library, and nowhere else.
* `slice?_eq_some_iff` — what a slice is.
* `isSome_slice?_iff` — what has a slice.
-/

namespace RowFilter.Text

/-! ## Cuts -/

/-- What stands in front of a byte and behind it, if a character starts there or the text ends. -/
def splitAt? : List Char → Nat → Option (List Char × List Char)
  | s, 0 => some ([], s)
  | [], _ + 1 => none
  | c :: s, pos + 1 =>
    if c.utf8Size ≤ pos + 1 then
      (splitAt? s (pos + 1 - c.utf8Size)).map fun p => (c :: p.1, p.2)
    else none

theorem splitAt?_eq_some_iff {s before after : List Char} {pos : Nat} :
    splitAt? s pos = some (before, after) ↔ s = before ++ after ∧ pos = width before := by
  fun_induction splitAt? s pos generalizing before with
  | case1 s =>
    constructor
    · intro h
      cases h
      exact ⟨rfl, rfl⟩
    · rintro ⟨rfl, hpos⟩
      cases before with
      | nil => rfl
      | cons c before =>
        have := c.utf8Size_pos
        rw [width_cons] at hpos
        omega
  | case2 pos =>
    constructor
    · nofun
    · rintro ⟨hs, hpos⟩
      obtain ⟨rfl, _⟩ := List.append_eq_nil_iff.1 hs.symm
      cases hpos
  | case3 c s pos hle ih =>
    rw [Option.map_eq_some_iff]
    constructor
    · rintro ⟨⟨b, a⟩, hsplit, heq⟩
      cases heq
      obtain ⟨rfl, hpos⟩ := ih.1 hsplit
      refine ⟨rfl, ?_⟩
      rw [width_cons, ← hpos]
      omega
    · rintro ⟨hs, hpos⟩
      cases before with
      | nil => cases hpos
      | cons d before =>
        rw [List.cons_append, List.cons.injEq] at hs
        obtain ⟨rfl, hs⟩ := hs
        rw [width_cons] at hpos
        exact ⟨(before, after), ih.2 ⟨hs, by omega⟩, rfl⟩
  | case4 c s pos hlt =>
    constructor
    · nofun
    · rintro ⟨hs, hpos⟩
      cases before with
      | nil => cases hpos
      | cons d before =>
        rw [List.cons_append, List.cons.injEq] at hs
        obtain ⟨rfl, hs⟩ := hs
        rw [width_cons] at hpos
        omega

/-- A text can be cut at the valid positions, and nowhere else. -/
theorem isSome_splitAt?_iff {s : String} {pos : Nat} :
    (splitAt? s.toList pos).isSome = true ↔ String.Pos.Raw.IsValid s ⟨pos⟩ := by
  rw [Option.isSome_iff_exists, String.Pos.Raw.isValid_iff_exists_append]
  constructor
  · rintro ⟨⟨before, after⟩, hsplit⟩
    obtain ⟨hs, hpos⟩ := splitAt?_eq_some_iff.1 hsplit
    refine ⟨.ofList before, .ofList after, ?_, ?_⟩
    · rw [← String.ofList_append, ← hs, String.ofList_toList]
    · rw [String.rawEndPos, ← width_toList, String.toList_ofList, ← hpos]
  · rintro ⟨front, back, rfl, hpos⟩
    refine ⟨(front.toList, back.toList), splitAt?_eq_some_iff.2 ⟨String.toList_append, ?_⟩⟩
    rw [width_toList]
    exact congrArg String.Pos.Raw.byteIdx hpos

/-! ## Places -/

/-- A place in a text that starts at byte `pos`: a byte where a character starts, or the end. -/
def IsPlace (pos : Nat) (s : List Char) (n : Nat) : Prop :=
  ∃ before after, s = before ++ after ∧ n = pos + width before

namespace IsPlace

variable {pos n : Nat} {s : List Char}

theorem start (pos : Nat) (s : List Char) : IsPlace pos s pos := ⟨[], s, rfl, rfl⟩

/-- A place in the second part is a place in the whole. -/
theorem append_left (front : List Char) (h : IsPlace (pos + width front) s n) :
    IsPlace pos (front ++ s) n := by
  obtain ⟨before, after, rfl, rfl⟩ := h
  exact ⟨front ++ before, after, (List.append_assoc ..).symm, by rw [width_append, Nat.add_assoc]⟩

/-- A place in the first part is a place in the whole. -/
theorem append_right (h : IsPlace pos s n) (back : List Char) : IsPlace pos (s ++ back) n := by
  obtain ⟨before, after, rfl, rfl⟩ := h
  exact ⟨before, after ++ back, List.append_assoc .., rfl⟩

/-- The places in a text are its valid positions. -/
theorem isValid {text : String} (h : IsPlace 0 text.toList n) : String.Pos.Raw.IsValid text ⟨n⟩ := by
  obtain ⟨before, after, hs, hn⟩ := h
  rw [Nat.zero_add] at hn
  exact isSome_splitAt?_iff.1 (Option.isSome_iff_exists.2 ⟨_, splitAt?_eq_some_iff.2 ⟨hs, hn⟩⟩)

end IsPlace

/-! ## Slices -/

/-- The characters between two bytes. -/
def slice? (s : List Char) (start stop : Nat) : Option (List Char) := do
  let (front, _) ← splitAt? s stop
  let (_, part) ← splitAt? front start
  return part

theorem slice?_eq_some_iff {s part : List Char} {start stop : Nat} :
    slice? s start stop = some part ↔ ∃ before after, s = before ++ (part ++ after) ∧
      start = width before ∧ stop = start + width part := by
  simp only [slice?, Option.bind_eq_bind, Option.bind_eq_some_iff, Option.pure_def, Option.some.injEq,
    Prod.exists, splitAt?_eq_some_iff]
  constructor
  · rintro ⟨_, after, ⟨rfl, rfl⟩, before, _, ⟨rfl, rfl⟩, rfl⟩
    exact ⟨before, after, List.append_assoc .., rfl, width_append ..⟩
  · rintro ⟨before, after, rfl, rfl, rfl⟩
    exact ⟨before ++ part, after, ⟨(List.append_assoc ..).symm, (width_append ..).symm⟩, before, part,
      ⟨rfl, rfl⟩, rfl⟩

/-- A slice is there just if both places are valid and in order. -/
theorem isSome_slice?_iff {s : String} {start stop : Nat} :
    (slice? s.toList start stop).isSome = true ↔ start ≤ stop ∧
      String.Pos.Raw.IsValid s ⟨start⟩ ∧ String.Pos.Raw.IsValid s ⟨stop⟩ := by
  rw [← isSome_splitAt?_iff, ← isSome_splitAt?_iff, Option.isSome_iff_exists, Option.isSome_iff_exists,
    Option.isSome_iff_exists]
  simp only [slice?_eq_some_iff, Prod.exists, splitAt?_eq_some_iff]
  constructor
  · rintro ⟨part, before, after, hs, rfl, rfl⟩
    refine ⟨Nat.le_add_right _ _, ⟨before, part ++ after, hs, rfl⟩, before ++ part, after, ?_, ?_⟩
    · rw [hs, List.append_assoc]
    · rw [width_append]
  · rintro ⟨hle, ⟨before, behind, hs, rfl⟩, front, after, hs', rfl⟩
    -- of two parts in front the shorter one begins the longer one
    rw [hs] at hs'
    rcases List.append_eq_append_iff.1 hs' with ⟨part, rfl, rfl⟩ | ⟨part, rfl, rfl⟩
    · exact ⟨part, before, after, by rw [hs], rfl, width_append ..⟩
    · rw [width_append] at hle
      cases part with
      | nil => exact ⟨[], front, behind, by simpa using hs, by simp, by simp⟩
      | cons c part =>
        have := c.utf8Size_pos
        rw [width_cons] at hle
        omega

theorem slice?_between (before part after : List Char) :
    slice? (before ++ (part ++ after)) (width before) (width before + width part) = some part :=
  slice?_eq_some_iff.2 ⟨before, after, rfl, rfl, rfl⟩

theorem slice?_behind (before s : List Char) :
    slice? (before ++ s) (width before) (width (before ++ s)) = some s :=
  slice?_eq_some_iff.2 ⟨before, [], by rw [List.append_nil], rfl, width_append ..⟩

theorem slice?_front (before s : List Char) : slice? (before ++ s) 0 (width before) = some before :=
  slice?_eq_some_iff.2 ⟨[], s, rfl, rfl, (Nat.zero_add _).symm⟩

/-! ## Searches -/

/-- The byte at which one text first stands in another. -/
def find? (needle : List Char) : List Char → Option Nat
  | [] => if needle.isEmpty then some 0 else none
  | c :: s => if needle.isPrefixOf (c :: s) then some 0 else (find? needle s).map (c.utf8Size + ·)

end RowFilter.Text
