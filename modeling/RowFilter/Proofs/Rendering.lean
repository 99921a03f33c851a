import RowFilter.Proofs.SourceOrder
import RowFilter.Query.Clause

/-!
# RowFilter — rendered queries

A formula is rendered as a row of lexemes with single spaces between them: columns and literals in
their braces, operators by their canonical names, conjunctions and parentheses. A space and the words
beside it are one plain run of the rendered text, so its layout has fewer pieces than it has lexemes;
but every lexeme still comes out as one token, where it stands.

A literal can only be rendered if it ends where it should: its quotes are balanced, it has no closing
brace outside of them, and no column reference opens in it.

Main results:

* `keyword_name` — the canonical name of an operator is read as one operator.
* `isLayout_spaced`, `written_spaced` — the layout of a rendered text.
* `tokensAt_spaced` — the tokens of a rendered text are its lexemes.
-/

namespace RowFilter.Query

open Text (isBlank width sameIgnoringCase)

/-! ## Lexemes -/

mutual
/-- The lexemes of a formula; every word is a run of its own. -/
def lexemes : Formula Clause → List Piece
  | .leaf c => .column c.column.toList :: .run c.operator.name.toList ::
      (c.value.map fun v => Piece.value v.toList).toList
  | .all fs => lexemesOf ['a', 'n', 'd'] fs
  | .any fs => lexemesOf ['o', 'r'] fs
  | .group f => .run ['('] :: (lexemes f ++ [.run [')']])

/-- The lexemes of operands with a word between any two. -/
def lexemesOf (word : List Char) : List (Formula Clause) → List Piece
  | [] => []
  | [f] => lexemes f
  | f :: fs => lexemes f ++ .run word :: lexemesOf word fs
end

/-- Lexemes with single spaces between them. -/
def separated (ps : List Piece) : List Char := List.intercalate [' '] (ps.map Piece.text)

/-- The text of a formula. -/
def render (f : Formula Clause) : String := String.ofList (separated (lexemes f))

/-- The token of a lexeme that starts at a byte. -/
def Piece.tokenAt (pos : Nat) : Piece → Token
  | run s =>
    let kind := if (Conjunction.ofKeyword? s).isSome then .conjunction else .operator
    ⟨kind, String.ofList s, pos, pos + width s⟩
  | column name => ⟨.column, String.ofList name, pos, pos + width name + 3⟩
  | value literal => ⟨.value, String.ofList literal, pos, pos + width literal + 2⟩

/-- The tokens of lexemes of which the first one starts at a byte. -/
def lexemeTokens (pos : Nat) : List Piece → List Token
  | [] => []
  | p :: ps => p.tokenAt pos :: lexemeTokens (pos + width p.text + 1) ps

/-! ## Words that are read as one token -/

/-- A run that is one token, whatever follows the space behind it. -/
structure Keyword (s : List Char) : Prop where
  ne : s ≠ []
  plain : ∀ c ∈ s, c ≠ openBrace ∧ c ≠ '#'
  token : ∀ pos rest, (∀ d, rest.head? = some d → d = ' ') →
    wordTokens (wordsFrom pos [] (s ++ rest)) =
      (wordTokens (wordsFrom (pos + width s) [] rest)).map ((Piece.run s).tokenAt pos :: ·)

/-- A character that is in no word of several characters ends every word. -/
theorem sameWord_eq_false {d : Char} (hname : isNameChar d = false) (hsign : isSign d = false)
    (c : Char) : sameWord c d = false := by
  unfold sameWord
  split
  · exact hname
  · split
    · exact hsign
    · rfl

/-- It is also a word of its own. -/
theorem sameWord_eq_false_left {c : Char} (hname : isNameChar c = false) (hsign : isSign c = false)
    (d : Char) : sameWord c d = false := by
  simp [sameWord, hname, hsign]

theorem sameWord_space (c : Char) : sameWord c ' ' = false :=
  sameWord_eq_false (by decide +kernel) (by decide) c

theorem span_of_head {p : Char → Bool} {s : List Char} (h : ∀ d, s.head? = some d → p d = false) :
    s.takeWhile p = [] ∧ s.dropWhile p = s := by
  cases s with
  | nil => exact ⟨rfl, rfl⟩
  | cons d s =>
    have hno : ¬ p d = true := by
      rw [h d rfl]
      decide
    exact ⟨List.takeWhile_cons_of_neg hno, List.dropWhile_cons_of_neg hno⟩

/-- A space ends a word. -/
theorem wordsFrom_word (c : Char) (cs : List Char) {rest : List Char} (hc : isBlank c = false)
    (hcs : cs.all (sameWord c) = true) (hrest : ∀ d, rest.head? = some d → d = ' ') (pos : Nat)
    (gap : List Char) : wordsFrom pos gap (c :: cs ++ rest) =
      ⟨gap.reverse, pos, c :: cs⟩ :: wordsFrom (pos + width (c :: cs)) [] rest := by
  have hall : ∀ d ∈ cs, sameWord c d = true := List.all_eq_true.1 hcs
  have hstop := span_of_head (p := sameWord c) fun d hd => by
    rw [hrest d hd, sameWord_space]
  rw [List.cons_append, wordsFrom, if_neg (by rw [hc]; decide)]
  simp only [List.takeWhile_append_of_pos hall, List.dropWhile_append_of_pos hall, hstop.1, hstop.2,
    List.append_nil]

/-- A single word that is a conjunction or an operator. -/
def isKeyword : List Char → Bool
  | [] => false
  | c :: cs => !isBlank c && cs.all (sameWord c) &&
      (c :: cs).all (fun d => d != openBrace && d != '#') &&
      !sameIgnoringCase (c :: cs) ['n', 'o', 't'] &&
      ((Conjunction.ofKeyword? (c :: cs)).isSome || (Operator.ofKeyword? (c :: cs)).isSome)

theorem Keyword.of_isKeyword {s : List Char} (h : isKeyword s = true) : Keyword s := by
  cases s with
  | nil => cases h
  | cons c cs =>
    simp only [isKeyword, Bool.and_eq_true, Bool.or_eq_true, Bool.not_eq_true', List.all_eq_true,
      bne_iff_ne] at h
    obtain ⟨⟨⟨⟨hc, hcs⟩, hplain⟩, hnot⟩, hword⟩ := h
    refine ⟨by simp, hplain, ?_⟩
    intro pos rest hrest
    rw [wordsFrom_word c cs hc (List.all_eq_true.2 hcs) hrest, wordTokens.eq_def]
    by_cases hconj : (Conjunction.ofKeyword? (c :: cs)).isSome = true
    · simp only [hconj, if_true, Piece.tokenAt]
      rfl
    · have hop : (Operator.ofKeyword? (c :: cs)).isSome = true := hword.resolve_left hconj
      simp only [hconj, hnot, hop, if_true, Bool.false_eq_true, if_false, Piece.tokenAt]
      rfl

theorem keyword_and : Keyword ['a', 'n', 'd'] := .of_isKeyword (by decide +kernel)

theorem keyword_or : Keyword ['o', 'r'] := .of_isKeyword (by decide +kernel)

theorem keyword_opening : Keyword ['('] := .of_isKeyword (by decide +kernel)

theorem keyword_closing : Keyword [')'] := .of_isKeyword (by decide +kernel)

/-- The operator of two words. -/
theorem keyword_notIn : Keyword ['n', 'o', 't', ' ', 'i', 'n'] where
  ne := by simp
  plain := by simp [openBrace]
  token pos rest hrest := by
    have hspace : ∀ d, (' ' :: 'i' :: 'n' :: rest).head? = some d → d = ' ' := by
      intro d hd
      exact (Option.some.inj hd).symm
    -- two words with a gap of one space, which are put together again
    have hnot := wordsFrom_word 'n' ['o', 't'] (by decide) (by decide +kernel) hspace pos []
    have hin := wordsFrom_word 'i' ['n'] (by decide) (by decide +kernel) hrest (pos + 4) [' ']
    have hgap : wordsFrom (pos + 3) [] (' ' :: 'i' :: 'n' :: rest) =
        wordsFrom (pos + 4) [' '] ('i' :: 'n' :: rest) := by
      rw [wordsFrom, if_pos (by decide)]
      rfl
    have hwords : wordsFrom pos [] (['n', 'o', 't', ' ', 'i', 'n'] ++ rest) =
        ⟨[], pos, ['n', 'o', 't']⟩ :: ⟨[' '], pos + 4, ['i', 'n']⟩ ::
          wordsFrom (pos + 6) [] rest :=
      hnot.trans (congrArg (_ :: ·) (hgap.trans hin))
    rw [hwords, wordTokens.eq_def]
    simp only [show (Conjunction.ofKeyword? ['n', 'o', 't']).isSome = false by decide +kernel,
      show sameIgnoringCase ['n', 'o', 't'] ['n', 'o', 't'] = true by decide,
      show sameIgnoringCase ['i', 'n'] ['i', 'n'] = true by decide, Bool.false_eq_true, if_false,
      if_true]
    rfl

theorem keyword_name (op : Operator) : Keyword op.name.toList := by
  have h : op = .notInSet ∨ isKeyword op.name.toList = true := by
    cases op <;> decide +kernel
  rcases h with rfl | h
  · exact keyword_notIn
  · exact .of_isKeyword h

/-! ## The layout of a rendered text -/

/-- Puts a lexeme in front of a layout; a word joins the run there. -/
def attach : Piece → List Piece → List Piece
  | .run s, ps => s.foldr consRun ps
  | p, ps => p :: ps

/-- The layout of lexemes with a space in front of each of them. -/
def spacedBehind : List Piece → List Piece
  | [] => []
  | p :: ps => consRun ' ' (attach p (spacedBehind ps))

/-- The layout of lexemes with single spaces between them. -/
def spaced : List Piece → List Piece
  | [] => []
  | p :: ps => attach p (spacedBehind ps)

theorem written_attach (p : Piece) (ps : List Piece) :
    written (attach p ps) = p.text ++ written ps := by
  cases p with
  | column name => rfl
  | value literal => rfl
  | run s =>
    show written (s.foldr consRun ps) = s ++ written ps
    induction s with
    | nil => rfl
    | cons c s ih => rw [List.foldr_cons, written_consRun, ih, List.cons_append]

theorem written_spacedBehind (ps : List Piece) :
    written (spacedBehind ps) = ps.flatMap fun p => ' ' :: p.text := by
  induction ps with
  | nil => rfl
  | cons p ps ih =>
    rw [spacedBehind, written_consRun, written_attach, ih, List.flatMap_cons, List.cons_append]

theorem separated_cons (p : Piece) (ps : List Piece) :
    separated (p :: ps) = p.text ++ ps.flatMap fun q => ' ' :: q.text := by
  induction ps generalizing p with
  | nil => simp [separated]
  | cons q ps ih =>
    have hstep : separated (p :: q :: ps) = p.text ++ ([' '] ++ separated (q :: ps)) := by
      simp [separated]
    rw [hstep, ih, List.flatMap_cons]
    rfl

theorem written_spaced (ps : List Piece) : written (spaced ps) = separated ps := by
  cases ps with
  | nil => rfl
  | cons p ps => rw [spaced, written_attach, written_spacedBehind, separated_cons]

/-- Behind a lexeme there is nothing or a space. -/
theorem head_spacedBehind {ps : List Piece} {d : Char}
    (h : (written (spacedBehind ps)).head? = some d) : d = ' ' := by
  rw [written_spacedBehind] at h
  cases ps with
  | nil => cases h
  | cons p ps => exact (Option.some.inj h).symm

/-- A lexeme that is read as it was meant, if a space or nothing follows. -/
def Piece.IsLexeme : Piece → Prop
  | run s => Keyword s
  | column name => closeBrace ∉ name
  | value literal => cutBalanced .start (literal ++ [closeBrace]) = some (literal, []) ∧
      Text.occursIn ['#', openBrace] literal = false

theorem isLayout_attach {p : Piece} {ps : List Piece} (hp : p.IsLexeme) (h : IsLayout ps) :
    IsLayout (attach p ps) := by
  cases p with
  | column name => exact ⟨hp, h⟩
  | value literal =>
    have hcut := cutBalanced_append_of_some hp.1 (written ps)
    rw [List.append_assoc, List.singleton_append] at hcut
    refine ⟨?_, h⟩
    rw [cutLiteral, hcut]
    rfl
  | run s =>
    refine isLayout_foldr_consRun h (fun hs => (hp.plain _ hs).1 rfl) fun hlast => ?_
    exact absurd rfl (hp.plain _ (List.mem_of_getLast? hlast)).2

theorem isLayout_spacedBehind {ps : List Piece} (h : ∀ p ∈ ps, p.IsLexeme) :
    IsLayout (spacedBehind ps) := by
  induction ps with
  | nil => trivial
  | cons p ps ih =>
    obtain ⟨hp, hps⟩ := List.forall_mem_cons.1 h
    exact (isLayout_attach hp (ih hps)).consRun (by decide) fun he => absurd he (by decide)

theorem isLayout_spaced {ps : List Piece} (h : ∀ p ∈ ps, p.IsLexeme) : IsLayout (spaced ps) := by
  cases ps with
  | nil => trivial
  | cons p ps =>
    obtain ⟨hp, hps⟩ := List.forall_mem_cons.1 h
    exact isLayout_attach hp (isLayout_spacedBehind hps)

/-! ## The tokens of a rendered text -/

theorem wordTokens_gap (gap gap' : List Char) (pos : Nat) (text : List Char) (ws : List Word) :
    wordTokens (⟨gap, pos, text⟩ :: ws) = wordTokens (⟨gap', pos, text⟩ :: ws) := by
  cases ws <;> rfl

/-- The blanks in front of a run are not part of any token. -/
theorem wordTokens_wordsFrom_gap (s gap gap' : List Char) (pos : Nat) :
    wordTokens (wordsFrom pos gap s) = wordTokens (wordsFrom pos gap' s) := by
  induction s generalizing gap gap' pos with
  | nil => rw [wordsFrom, wordsFrom]
  | cons c s ih =>
    rw [wordsFrom, wordsFrom]
    split
    · exact ih _ _ _
    · exact wordTokens_gap ..

theorem tokensAt_run {pos : Nat} {s : List Char} {ps : List Piece} {us vs : List Token}
    (hs : wordTokens (wordsFrom pos [] s) = .ok us) (hps : tokensAt (pos + width s) ps = .ok vs) :
    tokensAt pos (.run s :: ps) = .ok (us ++ vs) := by
  rw [tokensAt, hs, hps]
  rfl

theorem tokensAt_space {pos : Nat} {ps : List Piece} {ts : List Token}
    (h : tokensAt (pos + 1) ps = .ok ts) : tokensAt pos (consRun ' ' ps) = .ok ts := by
  have hsp : ∀ s, wordsFrom pos [] (' ' :: s) = wordsFrom (pos + 1) [' '] s := by
    intro s
    rw [wordsFrom, if_pos (by decide)]
    rfl
  have single : tokensAt pos (.run [' '] :: ps) = .ok ts := by
    have hnil : wordTokens (wordsFrom pos [] [' ']) = .ok [] := by
      rw [hsp, wordsFrom]
      rfl
    exact tokensAt_run hnil h
  cases ps with
  | nil => exact single
  | cons p ps =>
    cases p with
    | column name => exact single
    | value literal => exact single
    | run s =>
      -- the space becomes the gap of the first word of the run
      obtain ⟨us, vs, hus, hvs, rfl⟩ := tokensAt_run_ok h
      refine tokensAt_run ?_ ?_
      · rw [hsp, wordTokens_wordsFrom_gap s [' '] [] (pos + 1), hus]
      · rw [Text.width_cons, ← Nat.add_assoc]
        exact hvs

theorem foldr_consRun {s : List Char} (hs : s ≠ []) (ps : List Piece) :
    (∃ t qs, ps = .run t :: qs ∧ s.foldr consRun ps = .run (s ++ t) :: qs) ∨
      s.foldr consRun ps = .run s :: ps := by
  induction s with
  | nil => exact absurd rfl hs
  | cons c s ih =>
    rw [List.foldr_cons]
    by_cases hnil : s = []
    · subst hnil
      match ps with
      | [] => exact .inr rfl
      | .column _ :: _ => exact .inr rfl
      | .value _ :: _ => exact .inr rfl
      | .run t :: qs => exact .inl ⟨t, qs, rfl, rfl⟩
    · rcases ih hnil with ⟨t, qs, hps, hfold⟩ | hfold
      · exact .inl ⟨t, qs, hps, by rw [hfold]; rfl⟩
      · exact .inr (by rw [hfold]; rfl)

/-- Words go on behind a text if no word goes over its end. -/
theorem exists_wordsFrom_append {s t : List Char}
    (h : ∀ c ∈ s, ∀ d, t.head? = some d → sameWord c d = false) (pos : Nat) (gap : List Char) :
    ∃ gap', wordsFrom pos gap (s ++ t) =
      wordsFrom pos gap s ++ wordsFrom (pos + width s) gap' t := by
  fun_induction wordsFrom pos gap s with
  | case1 pos gap => exact ⟨gap, rfl⟩
  | case2 pos gap c rest hc ih =>
    obtain ⟨gap', ih⟩ := ih fun d hd => h d (List.mem_cons_of_mem _ hd)
    refine ⟨gap', ?_⟩
    rw [List.cons_append, wordsFrom, if_pos hc, ih, Text.width_cons, Nat.add_assoc]
  | case3 pos gap c rest hc hlen text ih =>
    have hrest : ∀ d ∈ rest.dropWhile (sameWord c), d ∈ c :: rest := fun d hd =>
      List.mem_cons_of_mem _ ((List.dropWhile_sublist _).mem hd)
    obtain ⟨gap', ih⟩ := ih fun d hd => h d (hrest d hd)
    obtain ⟨htake, hdrop⟩ := span_of_head (h c List.mem_cons_self)
    -- the word ends where it did, within the first text or at its end
    have hword : (rest ++ t).takeWhile (sameWord c) = rest.takeWhile (sameWord c) ∧
        (rest ++ t).dropWhile (sameWord c) = rest.dropWhile (sameWord c) ++ t := by
      constructor
      · rw [List.takeWhile_append, htake, List.append_nil]
        split
        · rename_i hlength
          exact ((List.takeWhile_prefix _).eq_of_length hlength).symm
        · rfl
      · rw [List.dropWhile_append, hdrop]
        split
        · rename_i hempty
          rw [List.isEmpty_iff.1 hempty, List.nil_append]
        · rfl
    have hwidth : width text + width (rest.dropWhile (sameWord c)) = width (c :: rest) := by
      rw [← Text.width_append, List.cons_append, List.takeWhile_append_dropWhile]
    refine ⟨gap', ?_⟩
    rw [List.cons_append, wordsFrom, if_neg hc]
    simp only [hword.1, hword.2]
    rw [ih, ← hwidth, Nat.add_assoc]
    rfl

theorem wordTokens_append {ws : List Word} {us : List Token} (h : wordTokens ws = .ok us)
    (ws' : List Word) : wordTokens (ws ++ ws') = (wordTokens ws').map (us ++ ·) := by
  replace h := wordTokens_eq_ok_iff.1 h
  induction h with
  | nil => exact (FoundBefore.map_nil _).symm
  | conjunction hc _ ih =>
    rw [List.cons_append, wordTokens.eq_def]
    simp only [hc, if_true, ih, map_map]
    rfl
  | notIn hc hn hi _ ih =>
    rw [List.cons_append, List.cons_append, wordTokens.eq_def]
    simp only [hc, hn, hi, if_true, Bool.false_eq_true, if_false, ih, map_map]
    rfl
  | operator hc hn ho _ ih =>
    rw [List.cons_append, wordTokens.eq_def]
    simp only [hc, hn, ho, if_true, Bool.false_eq_true, if_false, ih, map_map]
    rfl

/-- A run in front of a layout gives its tokens if no word of it goes on there. -/
theorem tokensAt_foldr_consRun {s : List Char} {ps : List Piece} {pos : Nat} {us vs : List Token}
    (hs : wordTokens (wordsFrom pos [] s) = .ok us) (hps : tokensAt (pos + width s) ps = .ok vs)
    (hend : ∀ c ∈ s, ∀ d, (written ps).head? = some d → sameWord c d = false) :
    tokensAt pos (s.foldr consRun ps) = .ok (us ++ vs) := by
  by_cases hne : s = []
  · subst hne
    rw [wordsFrom] at hs
    cases hs
    exact hps
  · rcases foldr_consRun hne ps with ⟨t, qs, rfl, hfold⟩ | hfold
    · -- the run is joined with the one behind it
      obtain ⟨us', vs, hus', hvs, rfl⟩ := tokensAt_run_ok hps
      obtain ⟨gap, hwords⟩ := exists_wordsFrom_append (t := t) (fun c hc d hd => hend c hc d (by
        rw [written_cons, Piece.text, List.head?_append, hd]
        rfl)) pos []
      rw [hfold, ← List.append_assoc]
      refine tokensAt_run ?_ ?_
      · rw [hwords, wordTokens_append hs, wordTokens_wordsFrom_gap _ _ [], hus']
        rfl
      · rw [Text.width_append, ← Nat.add_assoc]
        exact hvs
    · rw [hfold]
      exact tokensAt_run hs hps

/-- A keyword on its own is one token. -/
theorem Keyword.wordTokens_eq {s : List Char} (h : Keyword s) (pos : Nat) :
    wordTokens (wordsFrom pos [] s) = .ok [(Piece.run s).tokenAt pos] := by
  have htoken := h.token pos [] (by simp)
  rw [List.append_nil, wordsFrom] at htoken
  exact htoken

/-- A lexeme is one token. -/
theorem tokensAt_attach {p : Piece} {ps : List Piece} {pos : Nat} {ts : List Token}
    (hp : p.IsLexeme) (hhead : ∀ d, (written ps).head? = some d → d = ' ')
    (h : tokensAt (pos + width p.text) ps = .ok ts) :
    tokensAt pos (attach p ps) = .ok (p.tokenAt pos :: ts) := by
  cases p with
  | column name =>
    rw [width_column, ← Nat.add_assoc] at h
    show tokensAt pos (.column name :: ps) = _
    rw [tokensAt, h]
    rfl
  | value literal =>
    rw [width_value, ← Nat.add_assoc] at h
    show tokensAt pos (.value literal :: ps) = _
    rw [tokensAt, h, columnsIn_eq_nil hp.2]
    rfl
  | run s =>
    refine tokensAt_foldr_consRun (Keyword.wordTokens_eq hp pos) h fun c _ d hd => ?_
    rw [hhead d hd, sameWord_space]

theorem tokensAt_spacedBehind {ps : List Piece} (h : ∀ p ∈ ps, p.IsLexeme) (pos : Nat) :
    tokensAt pos (spacedBehind ps) = .ok (lexemeTokens (pos + 1) ps) := by
  induction ps generalizing pos with
  | nil => rfl
  | cons p ps ih =>
    obtain ⟨hp, hps⟩ := List.forall_mem_cons.1 h
    refine tokensAt_space (tokensAt_attach hp (fun d hd => head_spacedBehind hd) ?_)
    exact ih hps _

theorem tokensAt_spaced {ps : List Piece} (h : ∀ p ∈ ps, p.IsLexeme) (pos : Nat) :
    tokensAt pos (spaced ps) = .ok (lexemeTokens pos ps) := by
  cases ps with
  | nil => rfl
  | cons p ps =>
    obtain ⟨hp, hps⟩ := List.forall_mem_cons.1 h
    exact tokensAt_attach hp (fun d hd => head_spacedBehind hd) (tokensAt_spacedBehind hps _)

end RowFilter.Query
