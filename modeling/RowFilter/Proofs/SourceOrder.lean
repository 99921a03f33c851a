import RowFilter.Proofs.Layout

/-!
# RowFilter — tokens in source order

The tokens of a query come from four lists that are put together again by their starts. Here they are
read off a layout from left to right in one pass, which gives them in source order at once: the starts
grow strictly, so every list is the part of one kind, and putting the parts together gives the tokens
back.

A text is *tiled* by tokens when nothing but blanks stands before, between and behind them and every
token covers its written form. The words of a plain run tile it.

Main results:

* `merged_ofTokens` — tokens in source order come back from the four lists.
* `wordTokens_eq_ok_iff` — words that have tokens are keywords throughout.
* `wordTokens_tile` — the tokens of a plain run tile it.
* `tokenize_written` — the tokens of a query are those of the one pass over its layout.
-/

namespace RowFilter.Query

open Text (isBlank width sameIgnoringCase)

/-! ## Putting tokens in order -/

/-- The tokens of one kind. -/
def ofKind (k : TokenKind) (ts : List Token) : List Token := ts.filter fun t => t.kind = k

theorem ofKind_append (k : TokenKind) (a b : List Token) :
    ofKind k (a ++ b) = ofKind k a ++ ofKind k b :=
  List.filter_append ..

theorem ofKind_cons_self {k : TokenKind} {t : Token} (h : t.kind = k) (ts : List Token) :
    ofKind k (t :: ts) = t :: ofKind k ts :=
  List.filter_cons_of_pos (by simpa using h)

theorem ofKind_cons_of_ne {k : TokenKind} {t : Token} (h : t.kind ≠ k) (ts : List Token) :
    ofKind k (t :: ts) = ofKind k ts :=
  List.filter_cons_of_neg (by simpa using h)

theorem ofKind_eq_self {k : TokenKind} {ts : List Token} (h : ∀ t ∈ ts, t.kind = k) :
    ofKind k ts = ts :=
  List.filter_eq_self.2 fun t ht => by simpa using h t ht

theorem ofKind_eq_nil {k : TokenKind} {ts : List Token} (h : ∀ t ∈ ts, t.kind ≠ k) :
    ofKind k ts = [] :=
  List.filter_eq_nil_iff.2 fun t ht => by simpa using h t ht

theorem ofKind_eq_nil_of_kind {k l : TokenKind} {ts : List Token} (h : ∀ t ∈ ts, t.kind = l)
    (hne : k ≠ l) : ofKind k ts = [] := by
  refine ofKind_eq_nil fun t ht => ?_
  rw [h t ht]
  exact Ne.symm hne

/-- The four lists of some tokens. -/
def TokenStream.ofTokens (ts : List Token) : TokenStream :=
  ⟨ofKind .column ts, ofKind .operator ts, ofKind .value ts, ofKind .conjunction ts⟩

theorem ofKind_perm (ts : List Token) :
    (ofKind .column ts ++ ofKind .operator ts ++ ofKind .value ts ++ ofKind .conjunction ts).Perm
      ts := by
  induction ts with
  | nil => exact .refl _
  | cons t ts ih =>
    have hne : ∀ {k}, t.kind ≠ k → ofKind k (t :: ts) = ofKind k ts := (ofKind_cons_of_ne · ts)
    cases hk : t.kind with
    | column =>
      rw [ofKind_cons_self hk, hne (by rw [hk]; decide), hne (by rw [hk]; decide),
        hne (by rw [hk]; decide)]
      exact ih.cons t
    | operator =>
      rw [ofKind_cons_self hk, hne (by rw [hk]; decide), hne (by rw [hk]; decide),
        hne (by rw [hk]; decide)]
      rw [List.append_assoc, List.append_assoc] at ih ⊢
      exact List.perm_middle.trans (ih.cons t)
    | value =>
      rw [ofKind_cons_self hk, hne (by rw [hk]; decide), hne (by rw [hk]; decide),
        hne (by rw [hk]; decide), List.append_assoc]
      rw [List.append_assoc] at ih
      exact List.perm_middle.trans (ih.cons t)
    | conjunction =>
      rw [ofKind_cons_self hk, hne (by rw [hk]; decide), hne (by rw [hk]; decide),
        hne (by rw [hk]; decide)]
      exact List.perm_middle.trans (ih.cons t)

theorem eq_of_start_eq {ts : List Token} (h : ts.Pairwise fun a b => a.start < b.start) {a b : Token}
    (ha : a ∈ ts) (hb : b ∈ ts) (he : a.start = b.start) : a = b := by
  induction ts with
  | nil => cases ha
  | cons t ts ih =>
    obtain ⟨ht, hts⟩ := List.pairwise_cons.1 h
    rcases List.mem_cons.1 ha with hat | ha'
    -- the first token starts before all others, so both are the first or both are behind it
    · rcases List.mem_cons.1 hb with hbt | hb'
      · rw [hat, hbt]
      · have := ht b hb'
        rw [hat] at he
        omega
    · rcases List.mem_cons.1 hb with hbt | hb'
      · have := ht a ha'
        rw [hbt] at he
        omega
      · exact ih hts ha' hb'

/-- Sorting by the starts is the only way to put tokens with different starts in order. -/
theorem merged_eq_of_perm {s : TokenStream} {ts : List Token}
    (hlists : (s.columns ++ s.operators ++ s.values ++ s.conjunctions).Perm ts)
    (h : ts.Pairwise fun a b => a.start < b.start) : s.merged = ts := by
  have hperm := s.merged_perm.trans hlists
  have hsorted : s.merged.Pairwise fun a b => a.start ≤ b.start := by
    refine (List.pairwise_mergeSort (fun a b c => ?_) (fun a b => ?_) _).imp fun hab => by
      simpa using hab
    · simpa using Nat.le_trans
    · simpa using Nat.le_total a.start b.start
  -- two orders of the same tokens, both by growing starts, are the same
  refine hperm.eq_of_pairwise ?_ hsorted (h.imp Nat.le_of_lt)
  intro a b ha hb hab hba
  exact eq_of_start_eq h (hperm.mem_iff.1 ha) hb (Nat.le_antisymm hab hba)

theorem merged_ofTokens {ts : List Token} (h : ts.Pairwise fun a b => a.start < b.start) :
    (TokenStream.ofTokens ts).merged = ts :=
  merged_eq_of_perm (ofKind_perm ts) h

/-! ## Tilings -/

/-- A token as it is written. -/
def Token.written (t : Token) : List Char :=
  match t.kind with
  | .column => (Piece.column t.text.toList).text
  | .value => (Piece.value t.text.toList).text
  | .operator | .conjunction => t.text.toList

/-- A text that starts at a byte consists of the written tokens, and of blanks around them. -/
inductive Tiles : Nat → List Char → List Token → Prop
  | nil {pos : Nat} {s : List Char} : s.all isBlank = true → Tiles pos s []
  | cons {pos : Nat} {gap rest : List Char} {t : Token} {ts : List Token} :
      gap.all isBlank = true → t.start = pos + width gap → t.written ≠ [] →
      t.stop = t.start + width t.written → Tiles t.stop rest ts →
      Tiles pos (gap ++ (t.written ++ rest)) (t :: ts)

theorem width_pos {s : List Char} (h : s ≠ []) : 0 < width s := by
  cases s with
  | nil => exact absurd rfl h
  | cons c s =>
    have := c.utf8Size_pos
    rw [Text.width_cons]
    omega

namespace Tiles

variable {pos : Nat} {s s' : List Char} {ts ts' : List Token}

theorem of_eq {gap rest : List Char} {t : Token} (hs : s = gap ++ (t.written ++ rest))
    (hgap : gap.all isBlank = true) (hstart : t.start = pos + width gap) (hne : t.written ≠ [])
    (hstop : t.stop = t.start + width t.written) (h : Tiles t.stop rest ts) :
    Tiles pos s (t :: ts) := by
  subst hs
  exact .cons hgap hstart hne hstop h

/-- Blanks in front of a tiled text are part of its first gap. -/
theorem blanks_append (hs : s.all isBlank = true) (h : Tiles (pos + width s) s' ts) :
    Tiles pos (s ++ s') ts := by
  cases h with
  | nil hb => exact .nil (by rw [List.all_append, hs, hb]; rfl)
  | cons hgap hstart hne hstop hrest =>
    rw [← List.append_assoc]
    refine .cons (by rw [List.all_append, hs, hgap]; rfl) ?_ hne hstop hrest
    rw [hstart, Text.width_append, Nat.add_assoc]

theorem append (h : Tiles pos s ts) (h' : Tiles (pos + width s) s' ts') :
    Tiles pos (s ++ s') (ts ++ ts') := by
  induction h with
  | nil hb => exact blanks_append hb h'
  | cons hgap hstart hne hstop _ ih =>
    rw [List.append_assoc, List.append_assoc]
    refine .cons hgap hstart hne hstop (ih ?_)
    rw [hstop, hstart]
    simpa [Nat.add_assoc] using h'

theorem within (h : Tiles pos s ts) :
    ∀ t ∈ ts, pos ≤ t.start ∧ t.start < t.stop ∧ t.stop ≤ pos + width s := by
  induction h with
  | nil => exact fun t ht => (nomatch ht)
  | cons hgap hstart hne hstop _ ih =>
    have hpos := width_pos hne
    intro t ht
    simp only [Text.width_append]
    rcases List.mem_cons.1 ht with rfl | ht
    · omega
    · have := ih t ht
      omega

/-- The tokens are in order and do not overlap. -/
theorem ordered (h : Tiles pos s ts) : ts.Pairwise fun a b => a.stop ≤ b.start := by
  induction h with
  | nil => exact .nil
  | cons _ _ _ _ hrest ih => exact List.pairwise_cons.2 ⟨fun t ht => (hrest.within t ht).1, ih⟩

end Tiles

/-! ## Words -/

/-- A text that starts at a byte consists of words and of the blanks before, between and behind them. -/
inductive Cover : Nat → List Char → List Word → Prop
  | nil {pos : Nat} {s : List Char} : s.all isBlank = true → Cover pos s []
  | cons {pos : Nat} {rest : List Char} {w : Word} {ws : List Word} :
      w.gap.all isBlank = true → w.start = pos + width w.gap → w.text ≠ [] →
      Cover w.stop rest ws → Cover pos (w.gap ++ (w.text ++ rest)) (w :: ws)

theorem wordsFrom_covers (s gap : List Char) (pos : Nat) (hgap : gap.reverse.all isBlank = true) :
    Cover pos (gap.reverse ++ s) (wordsFrom (pos + width gap.reverse) gap s) := by
  induction hn : s.length using Nat.strongRecOn generalizing s gap pos with
  | ind n ih =>
    subst hn
    match s with
    | [] =>
      -- the blanks that were collected are all that is left
      rw [wordsFrom, List.append_nil]
      exact .nil hgap
    | c :: s =>
      rw [wordsFrom]
      split
      · -- a blank: it joins the gap
        rename_i hc
        have h := ih s.length (by simp) s (c :: gap) pos (by simp at hgap ⊢; exact ⟨hgap, hc⟩) rfl
        rw [List.reverse_cons, List.append_assoc, Text.width_append, ← Nat.add_assoc] at h
        exact h
      · -- a word: it takes what belongs to it, and the next gap is empty
        have hsplit : s = s.takeWhile (sameWord c) ++ s.dropWhile (sameWord c) :=
          List.takeWhile_append_dropWhile.symm
        have hlen := (List.dropWhile_sublist (l := s) (sameWord c)).length_le
        have h := ih _ (Nat.lt_succ_of_le hlen) (s.dropWhile (sameWord c)) []
          (pos + width gap.reverse + width (c :: s.takeWhile (sameWord c))) rfl rfl
        conv =>
          lhs
          rw [hsplit]
        exact .cons (w := ⟨gap.reverse, pos + width gap.reverse, c :: s.takeWhile (sameWord c)⟩)
          hgap rfl (by simp) h

/-- The tokens of words, conjunctions and operators together. -/
def wordTokens : List Word → Except FilterError (List Token)
  | [] => .ok []
  | w :: rest =>
    if (Conjunction.ofKeyword? w.text).isSome then
      (wordTokens rest).map (w.token .conjunction :: ·)
    else if sameIgnoringCase w.text ['n', 'o', 't'] then
      match rest with
      | [] => .error (.querySyntax w.start .loneNot)
      | next :: more =>
        if sameIgnoringCase next.text ['i', 'n'] then
          (wordTokens more).map
            (⟨.operator, String.ofList (w.text ++ next.gap ++ next.text), w.start, next.stop⟩ :: ·)
        else .error (.querySyntax w.start .loneNot)
    else if (Operator.ofKeyword? w.text).isSome then
      (wordTokens rest).map (w.token .operator :: ·)
    else .error (.querySyntax w.start (.unrecognizedOperator (String.ofList w.text)))

/-- The token of an operator of two words, and of the blanks between them. -/
def Word.tokenTo (w next : Word) : Token :=
  ⟨.operator, String.ofList (w.text ++ next.gap ++ next.text), w.start, next.stop⟩

/-- Words that are conjunctions and operators throughout, and their tokens. -/
inductive AreKeywords : List Word → List Token → Prop
  | nil : AreKeywords [] []
  | conjunction {w : Word} {ws : List Word} {ts : List Token} :
      (Conjunction.ofKeyword? w.text).isSome = true → AreKeywords ws ts →
      AreKeywords (w :: ws) (w.token .conjunction :: ts)
  | notIn {w next : Word} {ws : List Word} {ts : List Token} :
      (Conjunction.ofKeyword? w.text).isSome = false →
      sameIgnoringCase w.text ['n', 'o', 't'] = true → sameIgnoringCase next.text ['i', 'n'] = true →
      AreKeywords ws ts → AreKeywords (w :: next :: ws) (w.tokenTo next :: ts)
  | operator {w : Word} {ws : List Word} {ts : List Token} :
      (Conjunction.ofKeyword? w.text).isSome = false →
      sameIgnoringCase w.text ['n', 'o', 't'] = false → (Operator.ofKeyword? w.text).isSome = true →
      AreKeywords ws ts → AreKeywords (w :: ws) (w.token .operator :: ts)

/-- Words have tokens just if they are keywords throughout. -/
theorem wordTokens_eq_ok_iff {ws : List Word} {ts : List Token} :
    wordTokens ws = .ok ts ↔ AreKeywords ws ts := by
  constructor
  · intro h
    fun_induction wordTokens ws generalizing ts with
    | case1 =>
      cases h
      exact .nil
    | case2 w rest hc ih =>
      obtain ⟨us, hus, rfl⟩ := map_eq_ok h
      exact .conjunction hc (ih hus)
    | case3 => cases h
    | case4 w hc hn next more hi ih =>
      obtain ⟨us, hus, rfl⟩ := map_eq_ok h
      exact .notIn (eq_false_of_ne_true hc) hn hi (ih hus)
    | case5 => cases h
    | case6 w rest hc hn ho ih =>
      obtain ⟨us, hus, rfl⟩ := map_eq_ok h
      exact .operator (eq_false_of_ne_true hc) (eq_false_of_ne_true hn) ho (ih hus)
    | case7 => cases h
  · intro h
    induction h with
    | nil => rfl
    | conjunction hc _ ih =>
      rw [wordTokens.eq_def]
      simp only [hc, if_true, ih]
      rfl
    | notIn hc hn hi _ ih =>
      rw [wordTokens.eq_def]
      simp only [hc, hn, hi, if_true, Bool.false_eq_true, if_false, ih]
      rfl
    | operator hc hn ho _ ih =>
      rw [wordTokens.eq_def]
      simp only [hc, hn, ho, if_true, Bool.false_eq_true, if_false, ih]
      rfl

/-- The operators among words are the operators among their tokens. -/
theorem operatorTokens_eq (ws : List Word) :
    operatorTokens ws = (wordTokens ws).map (ofKind .operator) := by
  fun_induction wordTokens ws with
  | case1 => rfl
  | case2 w rest hc ih =>
    rw [operatorTokens.eq_def]
    simp only [hc, if_true, ih, map_map]
    rfl
  | case3 w hc hn =>
    rw [operatorTokens.eq_def]
    simp only [hc, hn, if_true, Bool.false_eq_true, if_false]
    rfl
  | case4 w hc hn next more hi ih =>
    rw [operatorTokens.eq_def]
    simp only [hc, hn, hi, if_true, Bool.false_eq_true, if_false, ih, map_map]
    rfl
  | case5 w hc hn next more hi =>
    rw [operatorTokens.eq_def]
    simp only [hc, hn, hi, if_true, Bool.false_eq_true, if_false]
    rfl
  | case6 w rest hc hn ho ih =>
    rw [operatorTokens.eq_def]
    simp only [hc, hn, ho, if_true, Bool.false_eq_true, if_false, ih, map_map]
    rfl
  | case7 w rest hc hn ho =>
    rw [operatorTokens.eq_def]
    simp only [hc, hn, ho, Bool.false_eq_true, if_false]
    rfl

theorem of_toLower {c d : Char} (h : c.toLower = d) : c = d ∨ c = Char.ofNat (d.toNat - 32) := by
  subst h
  delta Char.toLower
  split
  · -- an upper-case letter, which is 32 code points below
    rename_i hc
    right
    have hlow : c.val.toNat ≤ 'Z'.val.toNat := UInt32.le_iff_toNat_le.1 hc.2
    have hsum : (c.val + ('a'.val - 'A'.val)).toNat = c.val.toNat + 32 := by
      rw [UInt32.toNat_add]
      simp only [show ('a'.val - 'A'.val).toNat = 32 by decide, show 'Z'.val.toNat = 90 by decide]
        at hlow ⊢
      omega
    show c = Char.ofNat ((c.val + ('a'.val - 'A'.val)).toNat - 32)
    rw [hsum, Nat.add_sub_cancel]
    exact (Char.ofNat_toNat c).symm
  · exact .inl rfl

/-- The second word of a two-word operator is no conjunction. -/
theorem ofKeyword?_of_in {s : List Char} (h : sameIgnoringCase s ['i', 'n'] = true) :
    Conjunction.ofKeyword? s = none := by
  simp only [sameIgnoringCase, beq_iff_eq] at h
  match s with
  | [] => simp at h
  | [_] => simp at h
  | _ :: _ :: _ :: _ => simp at h
  | [a, b] =>
    -- four ways to write the word
    simp only [List.map_cons, List.map_nil, List.cons.injEq, and_true] at h
    rcases of_toLower h.1 with rfl | rfl <;> rcases of_toLower h.2 with rfl | rfl <;>
      decide +kernel

theorem conjunctionTokens_cons_of_some {w : Word} (h : (Conjunction.ofKeyword? w.text).isSome = true)
    (ws : List Word) :
    conjunctionTokens (w :: ws) = w.token .conjunction :: conjunctionTokens ws := by
  simp [conjunctionTokens, h]

theorem conjunctionTokens_cons_of_none {w : Word} (h : (Conjunction.ofKeyword? w.text).isSome = false)
    (ws : List Word) : conjunctionTokens (w :: ws) = conjunctionTokens ws := by
  simp [conjunctionTokens, h]

/-- The conjunctions among words are the conjunctions among their tokens. -/
theorem conjunctionTokens_eq {ws : List Word} {ts : List Token} (h : wordTokens ws = .ok ts) :
    conjunctionTokens ws = ofKind .conjunction ts := by
  replace h := wordTokens_eq_ok_iff.1 h
  induction h with
  | nil => rfl
  | conjunction hc _ ih =>
    rw [conjunctionTokens_cons_of_some hc, ih]
    exact (ofKind_cons_self rfl _).symm
  | notIn hc _ hi _ ih =>
    -- the scan for conjunctions sees two words here, and neither is one
    rw [ofKind_cons_of_ne (by simp [Word.tokenTo]), ← ih, conjunctionTokens_cons_of_none hc,
      conjunctionTokens_cons_of_none (by rw [ofKeyword?_of_in hi]; rfl)]
  | operator hc _ _ _ ih =>
    rw [ofKind_cons_of_ne (by simp [Word.token]), ← ih, conjunctionTokens_cons_of_none hc]

/-- Words give operators and conjunctions only. -/
theorem wordTokens_kind {ws : List Word} {ts : List Token} (h : wordTokens ws = .ok ts) :
    ∀ t ∈ ts, t.kind = .operator ∨ t.kind = .conjunction := by
  replace h := wordTokens_eq_ok_iff.1 h
  induction h with
  | nil => exact List.forall_mem_nil _
  | conjunction _ _ ih => exact List.forall_mem_cons.2 ⟨.inr rfl, ih⟩
  | notIn _ _ _ _ ih => exact List.forall_mem_cons.2 ⟨.inl rfl, ih⟩
  | operator _ _ _ _ ih => exact List.forall_mem_cons.2 ⟨.inl rfl, ih⟩

theorem written_token (w : Word) {k : TokenKind} (hk : k = .operator ∨ k = .conjunction) :
    (w.token k).written = w.text := by
  rcases hk with rfl | rfl <;> exact String.toList_ofList

/-- The tokens of words tile what the words cover. -/
theorem Cover.tiles {pos : Nat} {s : List Char} {ws : List Word} {ts : List Token}
    (hcover : Cover pos s ws) (h : wordTokens ws = .ok ts) : Tiles pos s ts := by
  have single : ∀ {pos : Nat} {rest : List Char} {w : Word} {ts : List Token} {k : TokenKind},
      k = .operator ∨ k = .conjunction → w.gap.all isBlank = true → w.start = pos + width w.gap →
      w.text ≠ [] → Tiles w.stop rest ts →
      Tiles pos (w.gap ++ (w.text ++ rest)) (w.token k :: ts) := by
    intro pos rest w ts k hk hgap hstart hne hrest
    have hw := written_token w hk
    exact .of_eq (by rw [hw]) hgap hstart (by rw [hw]; exact hne) (by rw [hw]; rfl) hrest
  replace h := wordTokens_eq_ok_iff.1 h
  induction h generalizing pos s with
  | nil =>
    cases hcover with
    | nil hb => exact .nil hb
  | conjunction _ _ ih =>
    cases hcover with
    | cons hgap hstart hne hrest => exact single (.inr rfl) hgap hstart hne (ih hrest)
  | operator _ _ _ _ ih =>
    cases hcover with
    | cons hgap hstart hne hrest => exact single (.inl rfl) hgap hstart hne (ih hrest)
  | @notIn w next _ _ _ _ _ _ ih =>
    cases hcover with
    | cons hgap hstart hne hrest =>
      cases hrest with
      | cons hgap' hstart' hne' hrest' =>
        -- both words and the blanks between them are one token
        have hw : (w.tokenTo next).written = w.text ++ next.gap ++ next.text := String.toList_ofList
        refine Tiles.of_eq ?_ hgap hstart ?_ ?_ (ih hrest')
        · rw [hw]
          simp only [List.append_assoc]
        · rw [hw]
          simp [hne]
        · rw [hw, Text.width_append, Text.width_append]
          show next.start + width next.text = _
          rw [hstart']
          simp only [Word.tokenTo, Word.stop, Nat.add_assoc]

/-- The tokens of a plain run tile it. -/
theorem wordTokens_tile {pos : Nat} {s : List Char} {ts : List Token}
    (h : wordTokens (wordsFrom pos [] s) = .ok ts) : Tiles pos s ts :=
  (wordsFrom_covers s [] pos rfl).tiles h

/-! ## One pass over a layout -/

/-- The tokens of a layout that starts at a byte, from left to right; the columns inside a literal come
right behind it. -/
def tokensAt (pos : Nat) : List Piece → Except FilterError (List Token)
  | [] => .ok []
  | .run s :: ps => do
    let ts ← wordTokens (wordsFrom pos [] s)
    let more ← tokensAt (pos + width s) ps
    return ts ++ more
  | .column name :: ps =>
    let stop := pos + width name + 3
    (tokensAt stop ps).map (⟨.column, String.ofList name, pos, stop⟩ :: ·)
  | .value literal :: ps =>
    let stop := pos + width literal + 2
    (tokensAt stop ps).map fun ts =>
      ⟨.value, String.ofList literal, pos, stop⟩ :: (columnsIn (pos + 1) literal ++ ts)

theorem tokensAt_run_ok {pos : Nat} {s : List Char} {ps : List Piece} {ts : List Token}
    (h : tokensAt pos (.run s :: ps) = .ok ts) :
    ∃ us vs, wordTokens (wordsFrom pos [] s) = .ok us ∧ tokensAt (pos + width s) ps = .ok vs ∧
      ts = us ++ vs := by
  obtain ⟨us, hus, h⟩ := bind_eq_ok h
  obtain ⟨vs, hvs, h⟩ := bind_eq_ok h
  cases h
  exact ⟨us, vs, hus, hvs, rfl⟩

/-- The words of the plain runs of a layout. -/
def wordsAt (pos : Nat) (ps : List Piece) : List (List Word) :=
  (runsAt pos ps).map fun r => wordsFrom r.1 [] r.2

theorem plainWords_written {ps : List Piece} (h : IsLayout ps) :
    plainWords (columnsAt 0 ps ++ valuesAt 0 ps) (written ps) = wordsAt 0 ps := by
  rw [plainWords, plainRuns_written h]
  rfl

/-- The operators come out of the runs as they come out of the one pass, and so does the first error. -/
theorem operatorTokens_wordsAt (ps : List Piece) (pos : Nat) :
    ((wordsAt pos ps).mapM operatorTokens).map List.flatten =
      (tokensAt pos ps).map (ofKind .operator) := by
  induction ps generalizing pos with
  | nil => rfl
  | cons p ps ih =>
    cases p with
    | run s =>
      have hih := ih (pos + width s)
      rw [wordsAt, runsAt, List.map_cons, List.mapM_cons, operatorTokens_eq, tokensAt]
      cases hw : wordTokens (wordsFrom pos [] s) with
      | error e => rfl
      | ok us =>
        -- the first run has tokens, so both sides fail together in the rest or not at all
        show ((wordsAt (pos + width s) ps).mapM operatorTokens >>= fun vs =>
          pure (ofKind .operator us :: vs)).map List.flatten = _
        cases ht : tokensAt (pos + width s) ps with
        | error e =>
          rw [ht] at hih
          cases hm : (wordsAt (pos + width s) ps).mapM operatorTokens with
          | error e' =>
            rw [hm] at hih
            cases hih
            rfl
          | ok vs =>
            rw [hm] at hih
            cases hih
        | ok vs =>
          rw [ht] at hih
          obtain ⟨os, hos, hflat⟩ := map_eq_ok hih
          rw [hos]
          show Except.ok (ofKind .operator us ++ os.flatten) = .ok (ofKind .operator (us ++ vs))
          rw [hflat, ofKind_append]
    | column name =>
      rw [show wordsAt pos (.column name :: ps) = wordsAt (pos + width name + 3) ps from rfl, ih,
        tokensAt, map_map]
      rfl
    | value literal =>
      rw [show wordsAt pos (.value literal :: ps) = wordsAt (pos + width literal + 2) ps from rfl,
        ih, tokensAt, map_map]
      -- the columns inside the literal are no operators
      have hnone : ofKind .operator (columnsIn (pos + 1) literal) = [] :=
        ofKind_eq_nil_of_kind (foundBefore_columnsIn _ literal).column (by decide)
      congr 1
      funext ts
      show ofKind .operator ts = ofKind .operator (_ :: (columnsIn (pos + 1) literal ++ ts))
      rw [ofKind_cons_of_ne (by simp), ofKind_append, hnone, List.nil_append]

theorem conjunctionTokens_append (a b : List Word) :
    conjunctionTokens (a ++ b) = conjunctionTokens a ++ conjunctionTokens b := by
  simp [conjunctionTokens]

/-- The part of each other kind is what its own scan finds. -/
theorem ofKind_tokensAt {ps : List Piece} {pos : Nat} {ts : List Token}
    (h : tokensAt pos ps = .ok ts) :
    ofKind .column ts = columnsAt pos ps ∧ ofKind .value ts = valuesAt pos ps ∧
      ofKind .conjunction ts = conjunctionTokens (wordsAt pos ps).flatten := by
  induction ps generalizing pos ts with
  | nil =>
    cases h
    exact ⟨rfl, rfl, rfl⟩
  | cons p ps ih =>
    cases p with
    | run s =>
      obtain ⟨us, vs, hus, hvs, rfl⟩ := tokensAt_run_ok h
      obtain ⟨hc, hv, hj⟩ := ih hvs
      have hkind := wordTokens_kind hus
      have hnone : ∀ k, k ≠ .operator → k ≠ .conjunction → ofKind k us = [] := by
        intro k h1 h2
        refine ofKind_eq_nil fun t ht => ?_
        rcases hkind t ht with hk | hk <;> rw [hk]
        · exact Ne.symm h1
        · exact Ne.symm h2
      refine ⟨?_, ?_, ?_⟩
      · rw [ofKind_append, hnone _ (by decide) (by decide), hc]
        rfl
      · rw [ofKind_append, hnone _ (by decide) (by decide), hv]
        rfl
      · rw [ofKind_append, hj, ← conjunctionTokens_eq hus, ← conjunctionTokens_append]
        rfl
    | column name =>
      obtain ⟨us, hus, rfl⟩ := map_eq_ok h
      obtain ⟨hc, hv, hj⟩ := ih hus
      refine ⟨?_, ?_, ?_⟩
      · exact congrArg (_ :: ·) hc
      · exact hv
      · exact hj
    | value literal =>
      obtain ⟨us, hus, rfl⟩ := map_eq_ok h
      obtain ⟨hc, hv, hj⟩ := ih hus
      have hcolumn := (foundBefore_columnsIn (pos + 1) literal).column
      have hnone {k : TokenKind} (hk : k ≠ .column) :
          ofKind k (columnsIn (pos + 1) literal) = [] :=
        ofKind_eq_nil_of_kind hcolumn hk
      refine ⟨?_, ?_, ?_⟩
      · rw [ofKind_cons_of_ne (by simp), ofKind_append, ofKind_eq_self hcolumn, hc]
        rfl
      · rw [ofKind_cons_self (by rfl), ofKind_append, hnone (by decide), hv]
        rfl
      · rw [ofKind_cons_of_ne (by simp), ofKind_append, hnone (by decide), hj]
        rfl

/-- The one pass goes forward. -/
theorem tokensAt_ordered {ps : List Piece} {pos : Nat} {ts : List Token}
    (h : tokensAt pos ps = .ok ts) :
    (∀ t ∈ ts, pos ≤ t.start) ∧ ts.Pairwise fun a b => a.start < b.start := by
  induction ps generalizing pos ts with
  | nil =>
    cases h
    exact ⟨fun t ht => (nomatch ht), .nil⟩
  | cons p ps ih =>
    cases p with
    | run s =>
      obtain ⟨us, vs, hus, hvs, rfl⟩ := tokensAt_run_ok h
      obtain ⟨hle, hord⟩ := ih hvs
      have htile := wordTokens_tile hus
      refine ⟨?_, List.pairwise_append.2 ⟨?_, hord, ?_⟩⟩
      · intro t ht
        rcases List.mem_append.1 ht with ht | ht
        · exact (htile.within t ht).1
        · have := hle t ht
          omega
      · refine htile.ordered.imp_of_mem fun {a b} ha _ hab => ?_
        have := htile.within a ha
        omega
      · intro a ha b hb
        have := htile.within a ha
        have := hle b hb
        omega
    | column name =>
      obtain ⟨us, hus, rfl⟩ := map_eq_ok h
      obtain ⟨hle, hord⟩ := ih hus
      have hall : ∀ t ∈ us, pos < t.start := by
        intro t ht
        have := hle t ht
        omega
      exact ⟨List.forall_mem_cons.2 ⟨Nat.le_refl _, fun t ht => Nat.le_of_lt (hall t ht)⟩,
        List.pairwise_cons.2 ⟨hall, hord⟩⟩
    | value literal =>
      obtain ⟨us, hus, rfl⟩ := map_eq_ok h
      obtain ⟨hle, hord⟩ := ih hus
      -- the columns inside the literal lie before its end, and the rest behind it
      have hin := foundBefore_columnsIn (pos + 1) literal
      have hall : ∀ t ∈ columnsIn (pos + 1) literal ++ us, pos < t.start := by
        intro t ht
        rcases List.mem_append.1 ht with ht | ht
        · have := hin.within t ht
          omega
        · have := hle t ht
          omega
      refine ⟨List.forall_mem_cons.2 ⟨Nat.le_refl _, fun t ht => Nat.le_of_lt (hall t ht)⟩,
        List.pairwise_cons.2 ⟨hall, List.pairwise_append.2 ⟨hin.ordered, hord, fun a ha b hb => ?_⟩⟩⟩
      have := hin.within a ha
      have := hle b hb
      omega

/-- The tokens of a query before they are counted. -/
def scanTokens (query : String) : Except FilterError TokenStream := do
  let s := query.toList
  let columns ← scanColumns 0 s
  let values ← scanValues 0 false s
  let runs := plainWords (columns ++ values) s
  let operators ← runs.mapM operatorTokens
  return ⟨columns, operators.flatten, values, conjunctionTokens runs.flatten⟩

theorem tokenize_eq_scanTokens (query : String) :
    tokenize query = scanTokens query >>= fun stream =>
      stream.checkCounts >>= fun _ => pure stream := by
  simp only [tokenize, scanTokens, bind_assoc, pure_bind]

/-- The scans find what one pass over a layout of the query finds, and fail where it fails. -/
theorem scanTokens_written {ps : List Piece} (h : IsLayout ps) {query : String}
    (hq : query.toList = written ps) :
    scanTokens query = (tokensAt 0 ps).map TokenStream.ofTokens := by
  rw [scanTokens, hq, scanColumns_written h, ok_bind, scanValues_written h, ok_bind, plainWords_written h]
  dsimp only
  have hops := operatorTokens_wordsAt ps 0
  cases ht : tokensAt 0 ps with
  | error e =>
    -- only the scan for operators can fail, and it fails with the error of the one pass
    rw [ht] at hops
    cases hm : (wordsAt 0 ps).mapM operatorTokens with
    | error e' =>
      rw [hm] at hops
      cases hops
      rfl
    | ok os =>
      rw [hm] at hops
      cases hops
  | ok ts =>
    rw [ht] at hops
    obtain ⟨os, hos, hflat⟩ := map_eq_ok hops
    obtain ⟨hc, hv, hj⟩ := ofKind_tokensAt ht
    have hstream : (⟨columnsAt 0 ps, os.flatten, valuesAt 0 ps,
        conjunctionTokens (wordsAt 0 ps).flatten⟩ : TokenStream) = .ofTokens ts := by
      rw [hflat, ← hc, ← hv, ← hj]
      rfl
    rw [hos]
    exact congrArg Except.ok hstream

/-- The tokens of a query are those of one pass over its layout. -/
theorem tokenize_written {ps : List Piece} (h : IsLayout ps) {query : String}
    (hq : query.toList = written ps) :
    tokenize query = do
      let ts ← tokensAt 0 ps
      (TokenStream.ofTokens ts).checkCounts
      return .ofTokens ts := by
  rw [tokenize_eq_scanTokens, scanTokens_written h hq]
  cases tokensAt 0 ps <;> rfl

/-- The tokens of a query are found in source order in every layout of it. -/
theorem tokensAt_of_tokenize {ps : List Piece} (h : IsLayout ps) {query : String}
    (hq : query.toList = written ps) {stream : TokenStream} (htok : tokenize query = .ok stream) :
    tokensAt 0 ps = .ok stream.merged := by
  rw [tokenize_written h hq] at htok
  obtain ⟨ts, hts, htok⟩ := bind_eq_ok htok
  obtain ⟨_, _, htok⟩ := bind_eq_ok htok
  cases htok
  rw [merged_ofTokens (tokensAt_ordered hts).2, hts]

/-- A query that has tokens has a layout. -/
theorem tokenize_eq_ok {query : String} {stream : TokenStream} (h : tokenize query = .ok stream) :
    ∃ ps, IsLayout ps ∧ query.toList = written ps ∧ tokensAt 0 ps = .ok stream.merged := by
  obtain ⟨columns, _, hvalues⟩ := bind_eq_ok h
  obtain ⟨values, hscan, _⟩ := bind_eq_ok hvalues
  obtain ⟨ps, hps, hw⟩ := exists_layout hscan
  exact ⟨ps, hps, hw.symm, tokensAt_of_tokenize hps hw.symm h⟩

end RowFilter.Query
