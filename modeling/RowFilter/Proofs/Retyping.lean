import Mathlib.Data.List.Forall2
import RowFilter.Proofs.Keywords
import RowFilter.Proofs.Rendering

/-!
# RowFilter — texts typed again

A text is typed again when its letters change their case and its blanks become other blanks, but not where
there are none. No test that the scans make of the characters of a text sees a difference. So the words of a
text that is typed again have the same small letters, and they are the same keywords.

Main results:

* `Retyped.any_eq`, `Retyped.span` — what a test finds, and how far it goes.
* `Retyped.words` — the words of a text that is typed again.
* `wordTokens_alike` — the tokens of those words.
-/

namespace RowFilter.Query

open Text (width isBlank capitals sameIgnoringCase)

/-! ## Texts -/

/-- A text and what is typed in its place: letters A to Z in either case, and blanks for blanks. -/
inductive Retyped : List Char → List Char → Prop
  | nil : Retyped [] []
  | char {c d : Char} {s s' : List Char} : c.toLower = d.toLower → Retyped s s' →
      Retyped (c :: s) (d :: s')
  | blanks {b b' s s' : List Char} : b ≠ [] → b' ≠ [] → b.all isBlank = true →
      b'.all isBlank = true → Retyped s s' → Retyped (b ++ s) (b' ++ s')

/-- A test of characters that makes no difference between a letter and its small letter, and that blanks do
not pass. -/
structure IsLayoutTest (p : Char → Bool) : Prop where
  lower : ∀ n ∈ capitals, p (Char.ofNat n).toLower = p (Char.ofNat n)
  blank : ∀ c, isBlank c = true → p c = false

namespace IsLayoutTest

variable {p : Char → Bool}

theorem of_codes (lower : ∀ n ∈ capitals, p (Char.ofNat n).toLower = p (Char.ofNat n))
    (blank : ∀ n ∈ Text.CharSet.codes Text.blanks.bounds, p (Char.ofNat n) = false) : IsLayoutTest p where
  lower := lower
  blank _ hc := Text.apply_blank blank hc

theorem eq_of_toLower (hp : IsLayoutTest p) {c d : Char} (h : c.toLower = d.toLower) : p c = p d := by
  rw [← Text.apply_toLower hp.lower c, h, Text.apply_toLower hp.lower d]

theorem openBrace : IsLayoutTest (· == Query.openBrace) :=
  .of_codes (by decide +kernel) (by decide +kernel)

theorem closeBrace : IsLayoutTest (· == Query.closeBrace) :=
  .of_codes (by decide +kernel) (by decide +kernel)

theorem hash : IsLayoutTest (· == '#') := .of_codes (by decide +kernel) (by decide +kernel)

theorem nameChar : IsLayoutTest isNameChar := .of_codes (by decide +kernel) (by decide +kernel)

theorem sign : IsLayoutTest isSign := .of_codes (by decide +kernel) (by decide +kernel)

theorem sameWord (c : Char) : IsLayoutTest (Query.sameWord c) := by
  unfold Query.sameWord
  split
  · exact nameChar
  · split
    · exact sign
    · exact ⟨fun _ _ => rfl, fun _ _ => rfl⟩

end IsLayoutTest

theorem sameWord_of_toLower {c d : Char} (h : c.toLower = d.toLower) : sameWord c = sameWord d := by
  funext e
  rw [sameWord, sameWord, IsLayoutTest.nameChar.eq_of_toLower h, IsLayoutTest.sign.eq_of_toLower h]

theorem isBlank_of_toLower {c d : Char} (h : c.toLower = d.toLower) : isBlank c = isBlank d := by
  rw [← Text.isBlank_toLower c, h, Text.isBlank_toLower]

namespace Retyped

variable {s s' t t' : List Char} {p : Char → Bool}

/-- Only the case of letters changes. -/
theorem of_letters (h : s.map Char.toLower = s'.map Char.toLower) : Retyped s s' := by
  induction s generalizing s' with
  | nil =>
    obtain rfl := List.map_eq_nil_iff.1 h.symm
    exact .nil
  | cons c s ih =>
    obtain ⟨d, s', rfl, hd, hs⟩ := List.map_eq_cons_iff.1 h.symm
    exact .char hd.symm (ih hs.symm)

/-- Only blanks are typed. -/
theorem of_blanks (hn : s ≠ []) (hn' : s' ≠ []) (hs : s.all isBlank = true)
    (hs' : s'.all isBlank = true) : Retyped s s' := by
  have h := Retyped.blanks hn hn' hs hs' .nil
  rwa [List.append_nil, List.append_nil] at h

theorem append (h : Retyped s s') (h' : Retyped t t') : Retyped (s ++ t) (s' ++ t') := by
  induction h with
  | nil => exact h'
  | char hc _ ih => exact .char hc ih
  | blanks hn hn' hb hb' _ ih =>
    rw [List.append_assoc, List.append_assoc]
    exact .blanks hn hn' hb hb' ih

theorem nil_iff (h : Retyped s s') : s = [] ↔ s' = [] := by
  cases h with
  | nil => rfl
  | char => simp
  | blanks hn hn' => simp [hn, hn']

/-- A test finds the same in both texts. -/
theorem any_eq (hp : IsLayoutTest p) (h : Retyped s s') : s.any p = s'.any p := by
  have hnone {b : List Char} (hb : b.all isBlank = true) : b.any p = false :=
    List.any_eq_false.2 fun c hc => by simp [hp.blank c (List.all_eq_true.1 hb c hc)]
  induction h with
  | nil => rfl
  | char hc _ ih => rw [List.any_cons, List.any_cons, hp.eq_of_toLower hc, ih]
  | blanks _ _ hb hb' _ ih => rw [List.any_append, List.any_append, hnone hb, hnone hb', ih]

theorem notMem {x : Char} (hx : IsLayoutTest (· == x)) (h : Retyped s s') (hs : x ∉ s) : x ∉ s' := by
  have hany := h.any_eq hx
  intro hs'
  rw [List.any_eq_true.2 ⟨x, hs', by simp⟩, List.any_eq_true] at hany
  obtain ⟨y, hy, he⟩ := hany
  rw [beq_iff_eq] at he
  exact hs (he ▸ hy)

theorem any_getLast? (hp : IsLayoutTest p) (h : Retyped s s') : s.getLast?.any p = s'.getLast?.any p := by
  have hlast {b : List Char} (hb : b.all isBlank = true) : b.getLast?.any p = false := by
    cases hl : b.getLast? with
    | none => rfl
    | some c => exact hp.blank c (List.all_eq_true.1 hb c (List.mem_of_getLast? hl))
  induction h with
  | nil => rfl
  | @char c d s s' hc h ih =>
    by_cases hs : s = []
    · rw [hs, h.nil_iff.1 hs]
      exact hp.eq_of_toLower hc
    · rw [List.getLast?_cons_of_ne_nil hs, List.getLast?_cons_of_ne_nil (mt h.nil_iff.2 hs), ih]
  | @blanks b b' s s' _ _ hb hb' h ih =>
    by_cases hs : s = []
    · rw [hs, h.nil_iff.1 hs, List.append_nil, List.append_nil, hlast hb, hlast hb']
    · rw [List.getLast?_append_of_ne_nil _ hs, List.getLast?_append_of_ne_nil _ (mt h.nil_iff.2 hs), ih]

theorem getLast?_eq_some {x : Char} (hx : IsLayoutTest (· == x)) (h : Retyped s s')
    (hs' : s'.getLast? = some x) : s.getLast? = some x := by
  have hany := h.any_getLast? hx
  rw [hs', Option.any_some, beq_self_eq_true, Option.any_eq_true] at hany
  obtain ⟨y, hy, he⟩ := hany
  rw [hy, beq_iff_eq.1 he]

/-! ### Words -/

/-- The characters in front that pass a test are the same up to the case, and so is the rest. -/
theorem span (hp : IsLayoutTest p) (h : Retyped s s') :
    (s.takeWhile p).map Char.toLower = (s'.takeWhile p).map Char.toLower ∧
      Retyped (s.dropWhile p) (s'.dropWhile p) := by
  have hstop {b : List Char} (hn : b ≠ []) (hb : b.all isBlank = true) (t : List Char) :
      (b ++ t).takeWhile p = [] ∧ (b ++ t).dropWhile p = b ++ t := by
    refine span_of_head fun d hd => ?_
    rw [List.head?_append_of_ne_nil _ hn] at hd
    exact hp.blank d (List.all_eq_true.1 hb d (List.mem_of_head? hd))
  induction h with
  | nil => exact ⟨rfl, .nil⟩
  | @char c d s s' hc h ih =>
    have hcd := hp.eq_of_toLower hc
    by_cases hd : p d = true
    · rw [List.takeWhile_cons_of_pos hd, List.dropWhile_cons_of_pos hd,
        List.takeWhile_cons_of_pos (hcd.trans hd), List.dropWhile_cons_of_pos (hcd.trans hd),
        List.map_cons, List.map_cons, hc, ih.1]
      exact ⟨rfl, ih.2⟩
    · rw [List.takeWhile_cons_of_neg hd, List.dropWhile_cons_of_neg hd,
        List.takeWhile_cons_of_neg (by rwa [hcd]), List.dropWhile_cons_of_neg (by rwa [hcd])]
      exact ⟨rfl, .char hc h⟩
  | @blanks b b' s s' hn hn' hb hb' h _ =>
    -- a test that no blank passes stops at once
    obtain ⟨htake, hdrop⟩ := hstop hn hb s
    obtain ⟨htake', hdrop'⟩ := hstop hn' hb' s'
    rw [htake, htake', hdrop, hdrop']
    exact ⟨rfl, .blanks hn hn' hb hb' h⟩

end Retyped

theorem wordsFrom_blanks {b : List Char} (hb : b.all isBlank = true) (pos : Nat) (gap s : List Char) :
    wordsFrom pos gap (b ++ s) = wordsFrom (pos + width b) (b.reverse ++ gap) s := by
  induction b generalizing pos gap with
  | nil => rfl
  | cons c b ih =>
    obtain ⟨hc, hb⟩ := Bool.and_eq_true_iff.1 hb
    rw [List.cons_append, wordsFrom, if_pos hc, ih hb, Text.width_cons, Nat.add_assoc, List.reverse_cons,
      List.append_assoc]
    rfl

/-- The small letters of a word. -/
def Word.lowered (w : Word) : List Char := w.text.map Char.toLower

/-- A text that is typed again has the same words, up to the case. -/
theorem Retyped.words {s s' : List Char} (h : Retyped s s') (pos pos' : Nat) (gap gap' : List Char) :
    (wordsFrom pos gap s).map Word.lowered = (wordsFrom pos' gap' s').map Word.lowered := by
  -- by the length of the text, since a step goes over a whole word
  induction hn : s.length using Nat.strongRecOn generalizing s s' pos pos' gap gap' with
  | ind n ih =>
    subst hn
    cases h with
    | nil => rw [wordsFrom, wordsFrom]
    | @char c d s s' hc h =>
      have hblank := isBlank_of_toLower hc
      by_cases hd : isBlank d = true
      · rw [wordsFrom, if_pos (hblank.trans hd), wordsFrom, if_pos hd]
        exact ih s.length (by simp) h _ _ _ _ rfl
      · -- a word starts here, and it takes the same characters in both texts
        obtain ⟨htake, hdrop⟩ := h.span (IsLayoutTest.sameWord d)
        have hlen := (List.dropWhile_sublist (l := s) (sameWord d)).length_le
        rw [wordsFrom, if_neg (by rwa [hblank]), wordsFrom, if_neg hd]
        simp only [sameWord_of_toLower hc, List.map_cons, Word.lowered, hc, htake, List.cons.injEq,
          true_and]
        exact ih _ (by simp; omega) hdrop _ _ _ _ rfl
    | @blanks b b' s s' hne _ hb hb' h =>
      rw [wordsFrom_blanks hb, wordsFrom_blanks hb']
      exact ih s.length (by simpa using List.length_pos_of_ne_nil hne) h _ _ _ _ rfl

/-! ## Tokens -/

/-- Tokens that a reader takes for the same thing, wherever they stand. -/
structure Token.Alike (t t' : Token) : Prop where
  kind : t.kind = t'.kind
  conjunction? : t.conjunction? = t'.conjunction?
  operator? : Operator.ofKeyword? t.text.toList = Operator.ofKeyword? t'.text.toList
  text : t.kind = .column ∨ t.kind = .value → t.text = t'.text

/-- Words with the same small letters are the same keywords. -/
theorem keywords_of_lowered {w w' : Word} (h : w.lowered = w'.lowered) :
    Conjunction.ofKeyword? w.text = Conjunction.ofKeyword? w'.text ∧
      Operator.ofKeyword? w.text = Operator.ofKeyword? w'.text ∧
      ∀ word, sameIgnoringCase w.text word = sameIgnoringCase w'.text word := by
  rw [Word.lowered, Word.lowered] at h
  refine ⟨?_, ?_, fun word => ?_⟩
  · rw [← Conjunction.ofKeyword?_map_toLower, h, Conjunction.ofKeyword?_map_toLower]
  · rw [← Operator.ofKeyword?_map_toLower, h, Operator.ofKeyword?_map_toLower]
  · rw [← Text.sameIgnoringCase_map_toLower, h, Text.sameIgnoringCase_map_toLower]

theorem token_alike {w w' : Word} (h : w.lowered = w'.lowered) {k : TokenKind}
    (hk : k = .operator ∨ k = .conjunction) : (w.token k).Alike (w'.token k) := by
  obtain ⟨hc, ho, _⟩ := keywords_of_lowered h
  refine ⟨rfl, ?_, ?_, ?_⟩
  · simp [Word.token, Token.conjunction?, hc]
  · simp [Word.token, ho]
  · rintro (rfl | rfl) <;> rcases hk with hk | hk <;> cases hk

theorem Cover.gap_blank {pos : Nat} {s : List Char} {ws : List Word} (h : Cover pos s ws) :
    ∀ w ∈ ws, w.gap.all isBlank = true := by
  induction h with
  | nil => exact List.forall_mem_nil _
  | cons hgap _ _ _ ih => exact List.forall_mem_cons.2 ⟨hgap, ih⟩

theorem gap_blank_of_mem {pos : Nat} {s : List Char} :
    ∀ w ∈ wordsFrom pos [] s, w.gap.all isBlank = true :=
  (wordsFrom_covers s [] pos rfl).gap_blank

/-- Words with the same small letters give tokens that are alike. -/
theorem wordTokens_alike {ws ws' : List Word} {ts : List Token} (h : wordTokens ws = .ok ts)
    (hlowered : ws.map Word.lowered = ws'.map Word.lowered) (hgap : ∀ w ∈ ws, w.gap.all isBlank = true)
    (hgap' : ∀ w ∈ ws', w.gap.all isBlank = true) :
    ∃ ts', wordTokens ws' = .ok ts' ∧ List.Forall₂ Token.Alike ts' ts := by
  replace h := wordTokens_eq_ok_iff.1 h
  suffices hkeywords : ∃ ts', AreKeywords ws' ts' ∧ List.Forall₂ Token.Alike ts' ts by
    obtain ⟨ts', hts', halike⟩ := hkeywords
    exact ⟨ts', wordTokens_eq_ok_iff.2 hts', halike⟩
  induction h generalizing ws' with
  | nil =>
    obtain rfl := List.map_eq_nil_iff.1 hlowered.symm
    exact ⟨[], .nil, .nil⟩
  | conjunction hc _ ih =>
    obtain ⟨w', rest', rfl, hw, hrest⟩ := List.map_eq_cons_iff.1 hlowered.symm
    obtain ⟨hconj, _, _⟩ := keywords_of_lowered hw
    obtain ⟨_, hgap⟩ := List.forall_mem_cons.1 hgap
    obtain ⟨_, hgap'⟩ := List.forall_mem_cons.1 hgap'
    obtain ⟨us, hus, halike⟩ := ih hrest.symm hgap hgap'
    rw [← hconj] at hc
    exact ⟨_, .conjunction hc hus, .cons (token_alike hw (.inr rfl)) halike⟩
  | notIn hc hn hi _ ih =>
    obtain ⟨w', rest', rfl, hw, hrest⟩ := List.map_eq_cons_iff.1 hlowered.symm
    obtain ⟨next', more', rfl, hnext, hmore⟩ := List.map_eq_cons_iff.1 hrest
    obtain ⟨hconj, _, hsame⟩ := keywords_of_lowered hw
    obtain ⟨_, _, hsame'⟩ := keywords_of_lowered hnext
    obtain ⟨_, hgap⟩ := List.forall_mem_cons.1 hgap
    obtain ⟨hblank, hgap⟩ := List.forall_mem_cons.1 hgap
    obtain ⟨_, hgap'⟩ := List.forall_mem_cons.1 hgap'
    obtain ⟨hblank', hgap'⟩ := List.forall_mem_cons.1 hgap'
    obtain ⟨us, hus, halike⟩ := ih hmore.symm hgap hgap'
    have hn' := (hsame _).trans hn
    have hi' := (hsame' _).trans hi
    rw [← hconj] at hc
    refine ⟨_, .notIn hc hn' hi' hus, .cons ⟨rfl, rfl, ?_, ?_⟩ halike⟩
    · -- the blanks between the two words may be others, but the operator is the same one
      rw [Word.tokenTo, Word.tokenTo, String.toList_ofList, String.toList_ofList,
        Operator.ofKeyword?_notIn hn hi hblank, Operator.ofKeyword?_notIn hn' hi' hblank']
    · rintro (hk | hk) <;> cases hk
  | operator hc hn ho _ ih =>
    obtain ⟨w', rest', rfl, hw, hrest⟩ := List.map_eq_cons_iff.1 hlowered.symm
    obtain ⟨hconj, hop, hsame⟩ := keywords_of_lowered hw
    obtain ⟨_, hgap⟩ := List.forall_mem_cons.1 hgap
    obtain ⟨_, hgap'⟩ := List.forall_mem_cons.1 hgap'
    obtain ⟨us, hus, halike⟩ := ih hrest.symm hgap hgap'
    rw [← hconj] at hc
    rw [← hop] at ho
    exact ⟨_, .operator hc ((hsame _).trans hn) ho hus, .cons (token_alike hw (.inl rfl)) halike⟩

end RowFilter.Query
