import RowFilter.Literal.Elements
import RowFilter.Proofs.Layout

/-!
# RowFilter — two readings of the quotes in a literal

The scan that looks for the end of a literal and the splitting of the literal into elements both go over
quoted text, but they do not read quotes in the same way. For the scan a quote opens only where an element
starts, and elsewhere it is an ordinary character; for the splitting it always opens. So the two agree up to
the first quote that stands inside a bare word. From there on the splitting takes the commas up to the next
such quote for quoted text, and elements that the scan has told apart become one.

Main results:

* `Literal.separates_iff` — a comma separates just if the splitting is in no quote.
* `Query.quote_foldl_step` — without a stray quote both readings are in the same quote.
* `Literal.exists_split_dropBrackets` — a comma of a literal is one of its body.
* `comma_separates_iff_unquoted` — which commas separate.
-/

namespace RowFilter

/-! ## Splitting -/

namespace Literal

open Text (isBlank trim trimStart)

/-- The quote that the splitting is in behind a character. -/
def splitQuote (quote : Option Char) (c : Char) : Option Char :=
  match quote with
  | some q => if c = q then none else some q
  | none => if c = '\'' || c = '"' then some c else none

/-- What is split off a text does not depend on what follows, and how the rest is split depends on the quote
that the text leaves open. -/
theorem splitFrom_append (quote : Option Char) (piece s : List Char) :
    ∃ done last, ∀ t, splitFrom quote piece (s ++ t) =
      done ++ splitFrom (s.foldl splitQuote quote) last t := by
  induction s generalizing quote piece with
  | nil => exact ⟨[], piece, fun t => rfl⟩
  | cons c s ih =>
    cases quote with
    | some q => exact ih (if c = q then none else some q) (c :: piece)
    | none =>
      simp only [List.cons_append, List.foldl_cons, splitFrom, splitQuote]
      split
      · exact ih (some c) (c :: piece)
      split
      · obtain ⟨done, last, h⟩ := ih none []
        exact ⟨piece.reverse :: done, last, fun t => congrArg (piece.reverse :: ·) (h t)⟩
      · exact ih none (c :: piece)

/-- What has been read of an element stays in front of it. -/
theorem exists_splitFrom_eq (quote : Option Char) (piece s : List Char) :
    ∃ more rest, splitFrom quote piece s = (piece.reverse ++ more) :: rest := by
  induction s generalizing quote piece with
  | nil => exact ⟨[], [], by rw [splitFrom, List.append_nil]⟩
  | cons c s ih =>
    have hread (quote : Option Char) : ∃ more rest,
        splitFrom quote (c :: piece) s = (piece.reverse ++ more) :: rest := by
      obtain ⟨more, rest, h⟩ := ih quote (c :: piece)
      exact ⟨c :: more, rest, by rw [h, List.reverse_cons, List.append_assoc, List.singleton_append]⟩
    cases quote with
    | some q => exact hread (if c = q then none else some q)
    | none =>
      simp only [splitFrom]
      split
      · exact hread (some c)
      split
      · exact ⟨[], _, by rw [List.append_nil]⟩
      · exact hread none

/-- The comma between two texts separates: they are split one without the other. -/
def Separates (before after : List Char) : Prop :=
  splitFrom none [] (before ++ ',' :: after) = splitFrom none [] before ++ splitFrom none [] after

theorem separates_iff {before after : List Char} :
    Separates before after ↔ before.foldl splitQuote none = none := by
  obtain ⟨done, last, h⟩ := splitFrom_append none [] before
  have hbefore : splitFrom none [] before = done ++ [last.reverse] := by
    have h := h []
    rw [List.append_nil] at h
    rw [h]
    cases before.foldl splitQuote none <;> rfl
  rw [Separates, h, hbefore, List.append_assoc, List.append_cancel_left_eq]
  cases before.foldl splitQuote none with
  | none => exact ⟨fun _ => rfl, fun _ => rfl⟩
  | some q =>
    -- in a quote the comma is read as part of the element
    obtain ⟨more, rest, hquoted⟩ :=
      exists_splitFrom_eq (splitQuote (some q) ',') (',' :: last) after
    constructor
    · intro heq
      have heq : splitFrom (splitQuote (some q) ',') (',' :: last) after =
          last.reverse :: splitFrom none [] after := heq
      rw [hquoted] at heq
      have hlength := congrArg List.length (List.cons.inj heq).1
      simp only [List.length_append, List.length_reverse, List.length_cons] at hlength
      omega
    · intro hnone
      cases hnone

/-- A quote stays open as long as it does not come again. -/
theorem foldl_splitQuote_some {q : Char} {s : List Char} (h : q ∉ s) :
    s.foldl splitQuote (some q) = some q := by
  induction s with
  | nil => rfl
  | cons c s ih =>
    obtain ⟨hc, hs⟩ := not_or.1 (mt List.mem_cons.2 h)
    rw [List.foldl_cons, splitQuote, if_neg (Ne.symm hc), ih hs]

theorem foldl_splitQuote_none {s : List Char} (h : ∀ c ∈ s, c ≠ '\'' ∧ c ≠ '"') :
    s.foldl splitQuote none = none := by
  induction s with
  | nil => rfl
  | cons c s ih =>
    have hc := h c List.mem_cons_self
    rw [List.foldl_cons, splitQuote, if_neg (by simp [hc])]
    exact ih fun d hd => h d (List.mem_cons_of_mem c hd)

/-! ### Commas of a literal and of its body -/

/-- What is dropped around the elements of a literal: blanks and brackets. -/
def IsWrapping (c : Char) : Prop := isBlank c = true ∨ c ∈ ['[', ']', '(', ')']

theorem not_isWrapping_comma : ¬ IsWrapping ',' := by
  unfold IsWrapping
  decide

theorem IsWrapping.ne_quote {c : Char} (h : IsWrapping c) : c ≠ '\'' ∧ c ≠ '"' := by
  constructor
  · rintro rfl
    exact absurd h (by unfold IsWrapping; decide)
  · rintro rfl
    exact absurd h (by unfold IsWrapping; decide)

theorem exists_eq_trim (s : List Char) : ∃ lead tail, s = lead ++ trim s ++ tail ∧
    (∀ c ∈ lead, IsWrapping c) ∧ ∀ c ∈ tail, IsWrapping c := by
  obtain ⟨tail, htail, hblank⟩ := Text.trimEnd_append_blanks (trimStart s)
  refine ⟨s.takeWhile isBlank, tail, ?_, ?_, ?_⟩
  · rw [List.append_assoc, trim, ← htail, trimStart, List.takeWhile_append_dropWhile]
  · exact fun c hc => .inl (List.all_eq_true.1 List.all_takeWhile c hc)
  · exact fun c hc => .inl (List.all_eq_true.1 hblank c hc)

/-- The rest of a text without a pair of brackets. -/
theorem eq_of_dropPair {opening closing : Char} {s body : List Char}
    (h : dropPair opening closing s = some body) : s = opening :: (body ++ [closing]) := by
  unfold dropPair at h
  split at h
  · rename_i c d rest
    split at h
    · rename_i hpair
      obtain ⟨rfl, hlast⟩ := hpair
      cases h
      obtain ⟨body, hbody⟩ := List.getLast?_eq_some_iff.1 hlast
      rw [hbody, List.dropLast_concat]
    · cases h
  · cases h

/-- Brackets are dropped in pairs. -/
theorem trim_eq_dropBrackets (s : List Char) : trim s = dropBrackets s ∨
    ∃ opening closing, IsWrapping opening ∧ IsWrapping closing ∧
      trim s = opening :: (dropBrackets s ++ [closing]) := by
  rw [dropBrackets]
  cases hsquare : dropPair '[' ']' (trim s) with
  | some body => exact .inr ⟨'[', ']', .inr (by decide), .inr (by decide), eq_of_dropPair hsquare⟩
  | none =>
    cases hround : dropPair '(' ')' (trim s) with
    | some body => exact .inr ⟨'(', ')', .inr (by decide), .inr (by decide), eq_of_dropPair hround⟩
    | none => exact .inl rfl

theorem exists_eq_dropBrackets (s : List Char) : ∃ lead tail, s = lead ++ dropBrackets s ++ tail ∧
    (∀ c ∈ lead, IsWrapping c) ∧ ∀ c ∈ tail, IsWrapping c := by
  obtain ⟨lead, tail, hs, hlead, htail⟩ := exists_eq_trim s
  rcases trim_eq_dropBrackets s with hbody | ⟨opening, closing, hopening, hclosing, hbody⟩
  · exact ⟨lead, tail, by rw [← hbody, ← hs], hlead, htail⟩
  · refine ⟨lead ++ [opening], closing :: tail, ?_, ?_, ?_⟩
    · rw [hbody] at hs
      simpa using hs
    · intro c hc
      rcases List.mem_append.1 hc with hc | hc
      · exact hlead c hc
      · exact List.mem_singleton.1 hc ▸ hopening
    · intro c hc
      rcases List.mem_cons.1 hc with rfl | hc
      · exact hclosing
      · exact htail c hc

/-- A character that is not in the first part of a text is in the second. -/
theorem exists_eq_append_of_notMem {lead s before after : List Char} {c : Char} (hc : c ∉ lead)
    (h : lead ++ s = before ++ c :: after) :
    ∃ inner, before = lead ++ inner ∧ s = inner ++ c :: after := by
  rcases List.append_eq_append_iff.1 h with ⟨inner, hbefore, hs⟩ | ⟨inner, hlead, hafter⟩
  · exact ⟨inner, hbefore, hs⟩
  · -- the first part would have to end in front of the character
    cases inner with
    | nil => exact ⟨[], by rw [hlead, List.append_nil, List.append_nil], hafter.symm⟩
    | cons d inner =>
      obtain ⟨rfl, _⟩ := List.cons.inj hafter
      exact absurd (hlead ▸ List.mem_append_right before List.mem_cons_self) hc

/-- A comma of a literal stands in its body, and in front of the body there is no quote. -/
theorem exists_split_dropBrackets {v before after : List Char} (hv : v = before ++ ',' :: after) :
    ∃ lead inner inner' tail, before = lead ++ inner ∧ after = inner' ++ tail ∧
      ',' ∉ lead ∧ ',' ∉ tail ∧ dropBrackets v = inner ++ ',' :: inner' ∧
      before.foldl splitQuote none = inner.foldl splitQuote none := by
  obtain ⟨lead, tail, hbody, hlead, htail⟩ := exists_eq_dropBrackets v
  have hcomma (s : List Char) (h : ∀ c ∈ s, IsWrapping c) : ',' ∉ s :=
    fun hc => not_isWrapping_comma (h _ hc)
  rw [hbody, List.append_assoc] at hv
  obtain ⟨inner, rfl, hrest⟩ := exists_eq_append_of_notMem (hcomma lead hlead) hv
  have hquote : (lead ++ inner).foldl splitQuote none = inner.foldl splitQuote none := by
    rw [List.foldl_append, foldl_splitQuote_none fun c hc => (hlead c hc).ne_quote]
  rcases List.append_eq_append_iff.1 hrest with ⟨outer, hinner, htail'⟩ | ⟨outer, hbody', hafter⟩
  · -- the comma is not in what is dropped behind the body
    exact absurd (htail' ▸ List.mem_append_right outer List.mem_cons_self) (hcomma tail htail)
  · cases outer with
    | nil =>
      have hafter : ',' :: after = tail := hafter
      exact absurd (hafter ▸ List.mem_cons_self) (hcomma tail htail)
    | cons d inner' =>
      obtain ⟨rfl, rfl⟩ := List.cons.inj hafter
      exact ⟨lead, inner, inner', tail, rfl, rfl, hcomma lead hlead, hcomma tail htail, hbody', hquote⟩

end Literal

/-! ## Stray quotes -/

namespace Query

open Literal (splitQuote)

namespace ElementState

/-- A quote that opens no element, since none starts there. -/
def isStray (state : ElementState) (c : Char) : Bool :=
  (c = '\'' || c = '"') && state.quote.isNone && !state.fresh

/-- One of the quotes in a text opens no element. -/
def hasStray (state : ElementState) : List Char → Bool
  | [] => false
  | c :: s => state.isStray c || hasStray (state.step c) s

variable {state : ElementState}

/-- Any other character changes the quote in the same way for both readings. -/
theorem quote_step {c : Char} (h : state.isStray c = false) :
    (state.step c).quote = splitQuote state.quote c := by
  obtain ⟨quote, fresh⟩ := state
  cases quote with
  | some q =>
    simp only [step, splitQuote]
    split <;> rfl
  | none =>
    cases hc : (c = '\'' || c = '"' : Bool) with
    | true =>
      -- outside quotes a quote that is not stray opens an element
      have hfresh : fresh = true := by simpa [isStray, hc] using h
      rw [step, splitQuote, if_pos hc, if_pos (by rw [hc, hfresh]; rfl)]
    | false =>
      simp only [step, splitQuote, hc, Bool.false_and, Bool.false_eq_true, if_false]
      split
      · rfl
      split <;> rfl

/-- A text without stray quotes leaves the same quote open for both readings. -/
theorem quote_foldl_step {s : List Char} (h : hasStray state s = false) :
    (s.foldl step state).quote = s.foldl splitQuote state.quote := by
  induction s generalizing state with
  | nil => rfl
  | cons c s ih =>
    obtain ⟨hc, hs⟩ := Bool.or_eq_false_iff.1 h
    rw [List.foldl_cons, List.foldl_cons, ih hs, quote_step hc]

/-- A text with stray quotes has a first one. -/
theorem exists_first_stray {s : List Char} (h : hasStray state s = true) :
    ∃ front q mid, s = front ++ q :: mid ∧ hasStray state front = false ∧
      (front.foldl step state).isStray q = true := by
  induction s generalizing state with
  | nil => cases h
  | cons c s ih =>
    cases hc : state.isStray c with
    | true => exact ⟨[], c, s, rfl, rfl, hc⟩
    | false =>
      rw [hasStray, hc, Bool.false_or] at h
      obtain ⟨front, q, mid, rfl, hfront, hq⟩ := ih h
      refine ⟨c :: front, q, mid, rfl, ?_, hq⟩
      rw [hasStray, hc, hfront, Bool.or_self]

/-- A stray quote is open for the splitting until it comes again. -/
theorem foldl_splitQuote_stray {front mid : List Char} {q : Char} (hfront : hasStray .start front = false)
    (hstray : (front.foldl step .start).isStray q = true) (hmid : q ∉ mid) :
    (front ++ q :: mid).foldl splitQuote none = some q := by
  have hquote : front.foldl splitQuote none = (front.foldl step .start).quote :=
    (quote_foldl_step hfront).symm
  simp only [isStray, Bool.and_eq_true, Option.isNone_iff_eq_none] at hstray
  rw [List.foldl_append, hquote, hstray.1.2, List.foldl_cons, splitQuote, if_pos hstray.1.1]
  exact Literal.foldl_splitQuote_some hmid

end ElementState

/-- A scan that ends behind a text has gone over each part of it. -/
theorem cutBalanced_of_append {state : ElementState} {s t : List Char}
    (h : cutBalanced state (s ++ t ++ [closeBrace]) = some (s ++ t, [])) :
    cutBalanced (s.foldl ElementState.step state) (t ++ [closeBrace]) = some (t, []) := by
  rw [List.append_assoc, cutBalanced_append] at h
  cases hfirst : cutBalanced state s with
  | some p =>
    -- a scan that ends in the first part leaves the second one over
    rw [hfirst] at h
    have hrest := congrArg Prod.snd (Option.some.inj h)
    simp at hrest
  | none =>
    rw [hfirst] at h
    obtain ⟨⟨t', after⟩, hcut, heq⟩ := Option.map_eq_some_iff.1 h
    obtain ⟨htext, rfl⟩ := Prod.mk.inj heq
    obtain rfl := List.append_cancel_left htext
    exact hcut

end Query

open Query (cutBalanced closeBrace ElementState)
open Query.ElementState (hasStray)
open Literal (Separates dropBrackets elements)

/-- **Commas of a literal.** Take a literal that the scan for its end goes over, and a comma in it. The scan
comes to the comma, and what the brackets of the literal enclose has that comma too. As long as no quote in
front of it stands inside a bare word, the comma separates two elements just if the scan sees it outside
quotes. The first quote that does stand inside a bare word is none for the scan, but hides all commas from the
splitting until it comes again. -/
theorem comma_separates_iff_unquoted {v before after : List Char}
    (hcut : cutBalanced .start (v ++ [closeBrace]) = some (v, [])) (hv : v = before ++ ',' :: after) :
    ∃ lead inner inner' tail, before = lead ++ inner ∧ after = inner' ++ tail ∧
      ',' ∉ lead ∧ ',' ∉ tail ∧ dropBrackets v = inner ++ ',' :: inner' ∧
      cutBalanced (before.foldl ElementState.step .start) (',' :: after ++ [closeBrace]) =
        some (',' :: after, []) ∧
      (hasStray .start before = false →
        (Separates inner inner' ↔ (before.foldl ElementState.step .start).quote = none)) ∧
      (hasStray .start before = true → ∃ front q mid, before = front ++ q :: mid ∧
        hasStray .start front = false ∧ (front.foldl ElementState.step .start).isStray q = true ∧
        (q ∉ mid → ¬ Separates inner inner')) := by
  obtain ⟨lead, inner, inner', tail, hbefore, hafter, hlead, htail, hbody, hquote⟩ :=
    Literal.exists_split_dropBrackets hv
  refine ⟨lead, inner, inner', tail, hbefore, hafter, hlead, htail, hbody, ?_, ?_, ?_⟩
  · rw [hv] at hcut
    exact Query.cutBalanced_of_append hcut
  · intro hplain
    rw [Literal.separates_iff, ← hquote, ElementState.quote_foldl_step hplain]
    exact Iff.rfl
  · intro hstray
    obtain ⟨front, q, mid, hfirst, hfront, hq⟩ := ElementState.exists_first_stray hstray
    refine ⟨front, q, mid, hfirst, hfront, hq, ?_⟩
    intro hmid
    have hopen := ElementState.foldl_splitQuote_stray hfront hq hmid
    rw [Literal.separates_iff, ← hquote, hfirst, hopen]
    intro hnone
    cases hnone

/-- The first comma of one literal is in quotes and the second one is not; the brace in the quotes does not
end the literal. The comma of the other literal follows an apostrophe inside a word. -/
theorem comma_separates_iff_unquoted_brackets :
    let v := "['a, \x7d', b]".toList
    let w := "[it's, ok]".toList
    cutBalanced .start (v ++ [closeBrace]) = some (v, []) ∧
      v = "['a".toList ++ ',' :: " \x7d', b]".toList ∧ hasStray .start "['a".toList = false ∧
      (∃ inner inner', dropBrackets v = inner ++ ',' :: inner' ∧ ¬ Separates inner inner') ∧
      v = "['a, \x7d'".toList ++ ',' :: " b]".toList ∧ hasStray .start "['a, \x7d'".toList = false ∧
      (∃ inner inner', dropBrackets v = inner ++ ',' :: inner' ∧ Separates inner inner') ∧
      cutBalanced .start (w ++ [closeBrace]) = some (w, []) ∧
      w = "[it's".toList ++ ',' :: " ok]".toList ∧ hasStray .start "[it's".toList = true ∧
      ∃ inner inner' front q mid, dropBrackets w = inner ++ ',' :: inner' ∧
        "[it's".toList = front ++ q :: mid ∧ (q ∉ mid → ¬ Separates inner inner') := by
  intro v w
  have hv : cutBalanced .start (v ++ [closeBrace]) = some (v, []) := by decide +kernel
  have hw : cutBalanced .start (w ++ [closeBrace]) = some (w, []) := by decide +kernel
  have hquoted : v = "['a".toList ++ ',' :: " \x7d', b]".toList := by decide +kernel
  have hbare : v = "['a, \x7d'".toList ++ ',' :: " b]".toList := by decide +kernel
  have hword : w = "[it's".toList ++ ',' :: " ok]".toList := by decide +kernel
  have hplain : hasStray .start "['a".toList = false := by decide +kernel
  have hplain' : hasStray .start "['a, \x7d'".toList = false := by decide +kernel
  have hstray : hasStray .start "[it's".toList = true := by decide +kernel
  obtain ⟨_, inner, inner', _, _, _, _, _, hbody, _, hiff, _⟩ := comma_separates_iff_unquoted hv hquoted
  obtain ⟨_, one, two, _, _, _, _, _, hbody', _, hiff', _⟩ := comma_separates_iff_unquoted hv hbare
  obtain ⟨_, it, ok, _, _, _, _, _, hbody'', _, _, hfirst⟩ := comma_separates_iff_unquoted hw hword
  obtain ⟨front, q, mid, hfront, _, _, hhidden⟩ := hfirst hstray
  have hopen : ¬ Separates inner inner' := by
    rw [hiff hplain]
    decide +kernel
  have hclosed : Separates one two := by
    rw [hiff' hplain']
    decide +kernel
  exact ⟨hv, hquoted, hplain, ⟨inner, inner', hbody, hopen⟩, hbare, hplain', ⟨one, two, hbody', hclosed⟩,
    hw, hword, hstray, it, ok, front, q, mid, hbody'', hfront, hhidden⟩

/-- The apostrophe in this literal opens no element, and the scan sees the comma outside quotes. But the
splitting does not find the comma, and the literal has one element. -/
theorem apostrophe_hides_comma :
    let v := "[it's, ok]".toList
    let before := "[it's".toList
    cutBalanced .start (v ++ [closeBrace]) = some (v, []) ∧ v = before ++ ',' :: " ok]".toList ∧
      (before.foldl ElementState.step .start).quote = none ∧
      dropBrackets v = "it's".toList ++ ',' :: " ok".toList ∧
      ¬ Separates "it's".toList " ok".toList ∧ elements v = ["it's, ok".toList] := by
  intro v before
  have hcut : cutBalanced .start (v ++ [closeBrace]) = some (v, []) := by decide +kernel
  have hcomma : v = before ++ ',' :: " ok]".toList := by decide +kernel
  have hquote : (before.foldl ElementState.step .start).quote = none := by decide +kernel
  have hbody : dropBrackets v = "it's".toList ++ ',' :: " ok".toList := by decide +kernel
  have helements : elements v = ["it's, ok".toList] := by decide +kernel
  refine ⟨hcut, hcomma, hquote, hbody, ?_, helements⟩
  rw [Literal.separates_iff]
  decide +kernel

end RowFilter
