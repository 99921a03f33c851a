import RowFilter.Proofs.ErrorKinds
import RowFilter.Proofs.Parenthesized

/-!
# RowFilter — queries compose

Two queries that are read on their own can be put in parentheses and joined with `and` or `or`. What is
read then is the chain of both, as groups, with every clause as many bytes further on as its query is. That
needs one more level of nesting than the queries have, and it needs that no quotes of the first query, left
open there, are closed by the text behind it. If they are, the literal goes on into the second query and
over the column reference that opens there, so the joined query is refused.

Main results:

* `FitsIn.of_nesting` — a formula fits in as many levels as it is nested.
* `spells_moved` — moved tokens spell the moved formula.
* `ReadAs.hashless` — the literals of a query that is read have no column reference in them.
* `occursIn_of_closeBrace` — a column reference opens before the first brace that closes.
* `queries_compose` — what is read of two joined queries.
-/

namespace RowFilter

/-! ## Nesting -/

namespace Formula

variable {α : Type}

mutual
/-- How many groups are nested in one another. -/
def nesting : Formula α → Nat
  | .leaf _ => 0
  | .all fs => nestingOf fs
  | .any fs => nestingOf fs
  | .group f => f.nesting + 1

/-- How many groups are nested in one another in one of several formulas. -/
def nestingOf : List (Formula α) → Nat
  | [] => 0
  | f :: fs => max f.nesting (nestingOf fs)
end

theorem nesting_le_nestingOf {f : Formula α} {fs : List (Formula α)} (h : f ∈ fs) :
    f.nesting ≤ nestingOf fs := by
  induction fs with
  | nil => cases h
  | cons g fs ih =>
    rw [nestingOf]
    rcases List.mem_cons.1 h with rfl | h
    · omega
    · have := ih h
      omega

end Formula

namespace Query

open Text (width occursIn)

/-- A formula fits in as many levels as it is nested. -/
theorem FitsIn.of_nesting {n : Nat} {f : Formula Clause} (h : FitsIn n f) {m : Nat}
    (hm : f.nesting ≤ m) : FitsIn m f := by
  induction h generalizing m with
  | leaf hc => exact .leaf hc
  | all hlen hp _ ih =>
    exact .all hlen hp fun f hf => ih f hf (Nat.le_trans (Formula.nesting_le_nestingOf hf) hm)
  | any hlen hd _ ih =>
    exact .any hlen hd fun f hf => ih f hf (Nat.le_trans (Formula.nesting_le_nestingOf hf) hm)
  | group _ ih =>
    rw [Formula.nesting] at hm
    cases m with
    | zero => omega
    | succ m => exact .group (ih (by omega))

/-! ## Moved formulas -/

/-- The clause, so many bytes further on. -/
def Clause.moveBy (n : Nat) (c : Clause) : Clause := { c with offset := c.offset + n }

/-- The formula with every clause so many bytes further on. -/
def moved (n : Nat) (f : Formula Clause) : Formula Clause := f.map (Clause.moveBy n)

theorem unplaced_moved (n : Nat) (f : Formula Clause) : unplaced (moved n f) = unplaced f := by
  rw [unplaced, moved, Formula.map_map]
  rfl

theorem FitsIn.moved {m : Nat} {f : Formula Clause} (h : FitsIn m f) (n : Nat) :
    FitsIn m (moved n f) :=
  h.of_unplaced (unplaced_moved n f)

theorem SpellsValue.moved {v : Option String} {ts : List Token} (h : SpellsValue v ts) (n : Nat) :
    SpellsValue v (ts.map (Token.moveBy n)) := by
  cases v with
  | none =>
    cases h
    rfl
  | some v =>
    obtain ⟨t, rfl, hkind, htext⟩ := h
    exact ⟨t.moveBy n, rfl, hkind, htext⟩

mutual
/-- Moved tokens spell the moved formula. -/
theorem spells_moved (n : Nat) : ∀ (f : Formula Clause) {ts : List Token}, Spells f ts →
    Spells (moved n f) (ts.map (Token.moveBy n))
  | .leaf c, ts, h => by
    obtain ⟨column, operator, value, rfl, hck, hct, hcs, hok, hop, hv⟩ := h
    exact ⟨column.moveBy n, operator.moveBy n, _, rfl, hck, hct, congrArg (· + n) hcs, hok, hop,
      hv.moved n⟩
  | .all fs, ts, h => spellsChain_moved n .and fs h
  | .any fs, ts, h => spellsChain_moved n .or fs h
  | .group f, ts, h => by
    obtain ⟨left, inner, right, rfl, hleft, hinner, hright⟩ := h
    refine ⟨left.moveBy n, _, right.moveBy n, ?_, hleft, spells_moved n f hinner, hright⟩
    rw [List.map_cons, List.map_append]
    rfl

theorem spellsChain_moved (n : Nat) (k : Conjunction) : ∀ (fs : List (Formula Clause))
    {ts : List Token}, SpellsChain k fs ts →
    SpellsChain k (Formula.mapOf (Clause.moveBy n) fs) (ts.map (Token.moveBy n))
  | [], ts, h => nomatch h
  | [f], ts, h => spells_moved n f h
  | f :: g :: fs, ts, h => by
    obtain ⟨first, between, rest, rfl, hfirst, hbetween, hrest⟩ := h
    refine ⟨_, between.moveBy n, _, ?_, spells_moved n f hfirst, hbetween,
      spellsChain_moved n k (g :: fs) hrest⟩
    rw [List.map_append, List.map_cons]
end

/-! ## Literals of a query that is read -/

/-- No column reference opens inside a literal of a query that is read. -/
theorem hashless_of_run {ps : List Piece} {pos : Nat} {ts : List Token} {r r' : Reading}
    (h : tokensAt pos ps = .ok ts) (hrun : r.run ts = .ok r') : Hashless ps := by
  induction ps generalizing pos ts r with
  | nil => exact fun literal hl => (nomatch hl)
  | cons p ps ih =>
    cases p with
    | run s =>
      obtain ⟨us, vs, _, hvs, rfl⟩ := tokensAt_run_ok h
      obtain ⟨_, _, hrest⟩ := Reading.run_append_eq_ok hrun
      intro literal hl
      exact ih hvs hrest literal (by simpa using hl)
    | column name =>
      obtain ⟨us, hus, rfl⟩ := map_eq_ok h
      obtain ⟨_, _, hrest⟩ := Reading.run_cons_eq_ok hrun
      intro literal hl
      exact ih hus hrest literal (by simpa using hl)
    | value found =>
      obtain ⟨us, hus, rfl⟩ := map_eq_ok h
      have hnone := columnsIn_eq_nil_of_run rfl hrun
      obtain ⟨_, _, hrest⟩ := Reading.run_cons_eq_ok hrun
      rw [hnone, List.nil_append] at hrest
      intro literal hl
      rcases List.mem_cons.1 hl with he | hl
      · obtain rfl := Piece.value.inj he
        cases hopen : occursIn ['#', openBrace] literal with
        | false => rfl
        | true =>
          -- a reference that opens is found
          obtain ⟨before, rest, rfl, hbefore⟩ := exists_first_open hopen
          obtain ⟨t, us', hfound, _⟩ := exists_first_columnsIn hbefore (pos + 1) rest
          rw [hfound] at hnone
          cases hnone
      · exact ih hus hrest literal hl

theorem ReadAs.hashless {query : String} {f : Formula Clause} {ps : List Piece} {ts : List Token}
    (h : ReadAs query f ps ts) : Hashless ps := by
  obtain ⟨_, hrun⟩ := h.run
  exact hashless_of_run h.tokens hrun

/-! ## The first closing brace -/

theorem Cover.mem {pos : Nat} {s : List Char} {ws : List Word} (h : Cover pos s ws) {c : Char}
    (hc : c ∈ s) : Text.isBlank c = true ∨ ∃ w ∈ ws, c ∈ w.text := by
  induction h with
  | nil hb => exact .inl (List.all_eq_true.1 hb c hc)
  | @cons _ rest w ws hgap _ _ _ ih =>
    rcases List.mem_append.1 hc with hc | hc
    · exact .inl (List.all_eq_true.1 hgap c hc)
    · rcases List.mem_append.1 hc with hc | hc
      · exact .inr ⟨w, List.mem_cons_self, hc⟩
      · rcases ih hc with hb | ⟨w', hw', hc⟩
        · exact .inl hb
        · exact .inr ⟨w', List.mem_cons_of_mem _ hw', hc⟩

/-- A closing brace is a word of its own. -/
theorem text_of_closeBrace {pos : Nat} {gap s : List Char} {w : Word}
    (hw : w ∈ wordsFrom pos gap s) (hc : closeBrace ∈ w.text) : w.text = [closeBrace] := by
  have hname : isNameChar closeBrace = false := by decide +kernel
  have hsign : isSign closeBrace = false := by decide
  fun_induction wordsFrom pos gap s with
  | case1 => cases hw
  | case2 pos gap c rest hb ih => exact ih hw
  | case3 pos gap c rest hb hlen text ih =>
    rcases List.mem_cons.1 hw with rfl | hw
    · rcases List.mem_cons.1 hc with rfl | hc
      · -- nothing goes on the brace
        have hstop : rest.takeWhile (sameWord closeBrace) = [] := by
          cases rest with
          | nil => rfl
          | cons d rest =>
            refine List.takeWhile_cons_of_neg ?_
            rw [sameWord_eq_false_left hname hsign]
            decide
        exact congrArg (closeBrace :: ·) hstop
      · -- and it goes on no word
        have hin := List.all_eq_true.1 List.all_takeWhile _ hc
        rw [sameWord_eq_false hname hsign] at hin
        cases hin
    · exact ih hw

theorem text_ne_closeBrace {ws : List Word} {ts : List Token} (h : wordTokens ws = .ok ts) :
    ∀ w ∈ ws, w.text ≠ [closeBrace] := by
  have hconjunction : ¬ (Conjunction.ofKeyword? [closeBrace]).isSome = true := by decide +kernel
  have hoperator : ¬ (Operator.ofKeyword? [closeBrace]).isSome = true := by decide +kernel
  have hnot : ¬ Text.sameIgnoringCase [closeBrace] ['n', 'o', 't'] = true := by decide
  have hin : ¬ Text.sameIgnoringCase [closeBrace] ['i', 'n'] = true := by decide
  replace h := wordTokens_eq_ok_iff.1 h
  induction h with
  | nil => exact List.forall_mem_nil _
  | conjunction hc _ ih =>
    refine List.forall_mem_cons.2 ⟨fun he => hconjunction ?_, ih⟩
    rw [← he]
    exact hc
  | notIn _ hn hi _ ih =>
    refine List.forall_mem_cons.2 ⟨fun he => hnot ?_, List.forall_mem_cons.2 ⟨fun he => hin ?_, ih⟩⟩
    · rw [← he]
      exact hn
    · rw [← he]
      exact hi
  | operator _ _ ho _ ih =>
    refine List.forall_mem_cons.2 ⟨fun he => hoperator ?_, ih⟩
    rw [← he]
    exact ho

/-- No closing brace stands outside the markers. -/
theorem closeBrace_notMem_of_wordTokens {pos : Nat} {s : List Char} {ts : List Token}
    (h : wordTokens (wordsFrom pos [] s) = .ok ts) : closeBrace ∉ s := by
  intro hc
  rcases (wordsFrom_covers s [] pos rfl).mem hc with hb | ⟨w, hw, hc⟩
  · exact absurd hb (by decide)
  · exact text_ne_closeBrace h w hw (text_of_closeBrace hw hc)

/-- Words leave the reader waiting for an operand. -/
theorem Reading.await_of_words {r r' : Reading} {ts : List Token} (hr : r.await = .operand)
    (hkind : ∀ t ∈ ts, t.kind = .operator ∨ t.kind = .conjunction) (h : r.run ts = .ok r') :
    r'.await = .operand := by
  induction ts generalizing r with
  | nil =>
    cases h
    exact hr
  | cons t ts ih =>
    obtain ⟨ht, hts⟩ := List.forall_mem_cons.1 hkind
    obtain ⟨r₁, hstep, hrest⟩ := run_cons_eq_ok h
    refine ih ?_ hts hrest
    rw [step, hr] at hstep
    -- where an operand is awaited, the only word that is read is an opening parenthesis
    rcases readOperand_eq_ok hstep with ⟨_, _, rfl⟩ | ⟨_, hcolumn, _⟩
    · rfl
    · rw [hcolumn.1] at ht
      rcases ht with ht | ht <;> cases ht

theorem occursIn_append_right {needle t : List Char} (s : List Char) (h : occursIn needle t = true) :
    occursIn needle (s ++ t) = true := by
  obtain ⟨before, after, rfl⟩ := Text.occursIn_iff.1 h
  exact Text.occursIn_iff.2 ⟨s ++ before, after, by simp⟩

/-- A query that is read starts with parentheses and a column, so a column reference opens before every
brace that closes. -/
theorem occursIn_of_closeBrace {ps : List Piece} {pos : Nat} {ts : List Token} {r r' : Reading}
    (h : tokensAt pos ps = .ok ts) (hr : r.await = .operand) (hrun : r.run ts = .ok r')
    {before after : List Char} (hsplit : written ps = before ++ closeBrace :: after) :
    occursIn ['#', openBrace] before = true := by
  induction ps generalizing pos ts r before with
  | nil => simp at hsplit
  | cons p ps ih =>
    cases p with
    | run s =>
      obtain ⟨us, vs, hus, hvs, rfl⟩ := tokensAt_run_ok h
      obtain ⟨r₁, hwords, hrest⟩ := Reading.run_append_eq_ok hrun
      have hr₁ := Reading.await_of_words hr (wordTokens_kind hus) hwords
      -- the brace stands in the run or behind it
      rcases append_eq_append_cons hsplit with ⟨s', hs⟩ | ⟨before', rfl, hbehind⟩
      · refine absurd ?_ (closeBrace_notMem_of_wordTokens hus)
        rw [show s = before ++ closeBrace :: s' from hs]
        simp
      · exact occursIn_append_right s (ih hvs hr₁ hrest hbehind)
    | column name =>
      -- neither of the two characters that open the reference is the brace, so both stand before it
      match before, hsplit with
      | [], hsplit => simp [Piece.text, closeBrace] at hsplit
      | [_], hsplit => simp [Piece.text, openBrace, closeBrace] at hsplit
      | c :: d :: before, hsplit =>
        simp only [written_cons, Piece.text, List.cons_append, List.cons.injEq] at hsplit
        obtain ⟨rfl, rfl, _⟩ := hsplit
        simp [occursIn, List.isPrefixOf]
    | value literal =>
      -- a literal is no operand
      obtain ⟨us, hus, rfl⟩ := map_eq_ok h
      obtain ⟨r₁, hstep, _⟩ := Reading.run_cons_eq_ok hrun
      rw [Reading.step, hr] at hstep
      rcases Reading.readOperand_eq_ok hstep with ⟨hopen, _⟩ | ⟨_, hcolumn, _⟩
      · cases hopen
      · cases hcolumn.1

/-! ## Joined queries -/

/-- The words that join queries. -/
inductive Joint
  | and
  | or
deriving DecidableEq, Repr

namespace Joint

/-- The word as it is written. -/
def word : Joint → String
  | .and => "and"
  | .or => "or"

/-- The word as a conjunction. -/
def conjunction : Joint → Conjunction
  | .and => .and
  | .or => .or

/-- The chain of joined formulas. -/
def chain : Joint → List (Formula Clause) → Formula Clause
  | .and => .all
  | .or => .any

/-- Two queries in parentheses with the word between them. -/
def join (j : Joint) (q₁ q₂ : String) : String := "(" ++ q₁ ++ ") " ++ j.word ++ " (" ++ q₂ ++ ")"

/-- What stands behind the first query. -/
def behind (j : Joint) (q₂ : String) : String := ") " ++ j.word ++ " (" ++ q₂ ++ ")"

theorem toList_behind (j : Joint) (q₂ : String) : (j.behind q₂).toList =
    ')' :: ' ' :: (j.word.toList ++ ' ' :: '(' :: (q₂.toList ++ [')'])) := by
  simp [behind]

theorem toList_join (j : Joint) (q₁ q₂ : String) :
    (j.join q₁ q₂).toList = '(' :: (q₁.toList ++ (j.behind q₂).toList) := by
  simp [join, behind]

theorem keyword_word (j : Joint) : Keyword j.word.toList := by
  refine .of_isKeyword ?_
  cases j <;> decide +kernel

theorem conjunction?_word (j : Joint) (pos : Nat) :
    ((Piece.run j.word.toList).tokenAt pos).conjunction? = some j.conjunction := by
  refine conjunction?_tokenAt ?_ pos
  cases j <;> decide +kernel

theorem fitsIn_chain {n : Nat} (j : Joint) {f g : Formula Clause} (hf : FitsIn n f)
    (hg : FitsIn n g) : FitsIn (n + 1) (j.chain [.group f, .group g]) := by
  have hall : ∀ h ∈ [Formula.group f, .group g], FitsIn (n + 1) h := by
    simpa using ⟨FitsIn.group hf, FitsIn.group hg⟩
  cases j with
  | and => exact .all (by simp) (by simp [Formula.isPrimary]) hall
  | or => exact .any (by simp) (by simp [Formula.isDisjunct]) hall

theorem spells_chain (j : Joint) {fs : List (Formula Clause)} {ts : List Token}
    (h : SpellsChain j.conjunction fs ts) : Spells (j.chain fs) ts := by
  cases j <;> exact h

/-! ### Their layout -/

/-- The layout of what stands behind the parenthesis that closes the first query. -/
def tail (j : Joint) (ps : List Piece) : List Piece :=
  consRun ' ' (attach (.run j.word.toList) (consRun ' ' (parenthesized ps [])))

theorem written_tail (j : Joint) {q₂ : String} {ps : List Piece} (h : q₂.toList = written ps) :
    ')' :: written (j.tail ps) = (j.behind q₂).toList := by
  rw [tail, written_consRun, written_attach, written_consRun, written_parenthesized, toList_behind, h]
  rfl

/-- The second query always keeps its literals, since no brace stands behind it. -/
theorem isLayout_tail (j : Joint) {ps : List Piece} (h : IsLayout ps) : IsLayout (j.tail ps) := by
  have hbefore : IsLayoutBefore (')' :: written []) ps :=
    h.before_of_closeBrace (by decide) (by decide)
  have hspace {qs : List Piece} (hqs : IsLayout qs) : IsLayout (consRun ' ' qs) :=
    hqs.consRun (by decide) fun he => absurd he (by decide)
  exact hspace (isLayout_attach (p := .run j.word.toList) j.keyword_word
    (hspace (isLayout_parenthesized hbefore trivial)))

theorem tokensAt_tail (j : Joint) {ps : List Piece} (hps : IsLayout ps) (hhash : Hashless ps)
    {ts : List Token} (h : tokensAt 0 ps = .ok ts) (pos : Nat) :
    tokensAt pos (j.tail ps) = .ok ((Piece.run j.word.toList).tokenAt (pos + 1) ::
      (Piece.run ['(']).tokenAt (pos + width j.word.toList + 2) ::
        (ts.map (Token.moveBy (pos + width j.word.toList + 3)) ++
          [(Piece.run [')']).tokenAt (pos + width j.word.toList + 3 + width (written ps))])) := by
  have hinner : tokensAt (pos + width j.word.toList + 2) (parenthesized ps []) = _ :=
    tokensAt_parenthesized hps hhash (by simp) h rfl
  refine tokensAt_space (tokensAt_attach j.keyword_word ?_ (tokensAt_space ?_))
  · intro d hd
    rw [written_consRun] at hd
    exact (Option.some.inj hd).symm
  · have hwidth : pos + 1 + width (Piece.run j.word.toList).text + 1 =
      pos + width j.word.toList + 2 := by
      rw [Piece.text]
      omega
    rw [hwidth]
    exact hinner

end Joint

/-- A moved query in parentheses is a group. -/
theorem spells_group {f : Formula Clause} {ts : List Token} (h : Spells f ts) (n pos pos' : Nat) :
    Spells (.group (moved n f)) ((Piece.run ['(']).tokenAt pos ::
      (ts.map (Token.moveBy n) ++ [(Piece.run [')']).tokenAt pos'])) :=
  ⟨_, _, _, rfl, conjunction?_tokenAt (by decide +kernel) _, spells_moved n f h,
    conjunction?_tokenAt (by decide +kernel) _⟩

/-- The joined queries are read as the chain of both if the first one keeps its literals. -/
theorem ReadAs.join {q₁ q₂ : String} {f₁ f₂ : Formula Clause} {ps₁ ps₂ : List Piece}
    {ts₁ ts₂ : List Token} (h₁ : ReadAs q₁ f₁ ps₁ ts₁) (h₂ : ReadAs q₂ f₂ ps₂ ts₂)
    (hn₁ : f₁.nesting < maxNesting) (hn₂ : f₂.nesting < maxNesting) (j : Joint)
    (hkeep : IsLayoutBefore (j.behind q₂).toList ps₁) :
    parse (j.join q₁ q₂) = .ok (j.chain [.group (moved 1 f₁),
      .group (moved (q₁.utf8ByteSize + width j.word.toList + 5) f₂)]) := by
  have hbehind := j.written_tail h₂.toList_eq
  -- the tokens are those of the parts, one part behind the other
  have htail := j.tokensAt_tail h₂.layout h₂.hashless h₂.tokens
    (0 + width (written ps₁) + 2)
  have htokens := tokensAt_parenthesized h₁.layout h₁.hashless
    (fun d hd => by
      rw [Joint.tail, written_consRun] at hd
      exact (Option.some.inj hd).symm) h₁.tokens htail
  have hplace : 0 + width (written ps₁) + 2 + width j.word.toList + 3 =
      q₁.utf8ByteSize + width j.word.toList + 5 := by
    rw [← h₁.toList_eq, Text.width_toList]
    omega
  refine ReadAs.parse_eq_ok ⟨isLayout_parenthesized ?_ (j.isLayout_tail h₂.layout), ?_, htokens,
    ?_, ?_⟩
  · rw [hbehind]
    exact hkeep
  · rw [j.toList_join, written_parenthesized, hbehind, h₁.toList_eq]
  · -- each of the two groups is one level deeper than its query
    have hlevels {f : Formula Clause} (hf : WellFormed f) (hn : f.nesting < maxNesting) :
        FitsIn (maxNesting - 1) f := hf.of_nesting (Nat.le_sub_one_of_lt hn)
    exact j.fitsIn_chain ((hlevels h₁.wellFormed hn₁).moved _) ((hlevels h₂.wellFormed hn₂).moved _)
  · have hgroup₁ := spells_group h₁.spells 1 0 (1 + width (written ps₁))
    have hgroup₂ := spells_group h₂.spells
      (0 + width (written ps₁) + 2 + width j.word.toList + 3)
      (0 + width (written ps₁) + 2 + width j.word.toList + 2)
      (0 + width (written ps₁) + 2 + width j.word.toList + 3 + width (written ps₂))
    have hword := j.conjunction?_word (0 + width (written ps₁) + 2 + 1)
    rw [← hplace]
    exact j.spells_chain ⟨_, _, _, by simp, hgroup₁, hword, hgroup₂⟩

/-- A literal that the scan finds in a query that is read has no column reference in it. -/
theorem occursIn_eq_false_of_parse {query : String} {f : Formula Clause} (h : parse query = .ok f)
    {front : List Piece} {literal rest : List Char}
    (hfront : IsLayoutBefore (openBrace :: (literal ++ closeBrace :: rest)) front)
    (hcut : cutLiteral (literal ++ closeBrace :: rest) = some (literal, rest))
    (hquery : query.toList = written front ++ openBrace :: (literal ++ closeBrace :: rest)) :
    occursIn ['#', openBrace] literal = false := by
  obtain ⟨stream, htok, hread⟩ := bind_eq_ok h
  obtain ⟨r, hrun, _⟩ := readTokens_run hread
  obtain ⟨ps, hps, hwritten, _⟩ := tokenize_eq_ok htok
  -- the scan goes on behind the literal, so what follows has a layout, too
  have hscan := scanValues_written hps 0
  rw [← hwritten, hquery, scanValues_before hfront, scanValues_value hcut] at hscan
  obtain ⟨found, hfound, _⟩ := map_eq_ok hscan
  obtain ⟨_, hrest, _⟩ := map_eq_ok hfound
  obtain ⟨back, hback, rfl⟩ := exists_layout hrest
  have hlayout : IsLayout (front.foldr attach (.value literal :: back)) := by
    refine isLayout_foldr_attach ?_ ⟨hcut, hback⟩
    simpa [Piece.text] using hfront
  have htokens := tokensAt_of_tokenize hlayout
    (by rw [hquery, written_foldr_attach]; simp [Piece.text]) htok
  exact hashless_of_run htokens hrun literal (value_mem_foldr_attach List.mem_cons_self front)

/-- A column reference opens before every brace behind the first query. -/
theorem ReadAs.occursIn_behind {query : String} {f : Formula Clause} {ps : List Piece}
    {ts : List Token} (h : ReadAs query f ps ts) (j : Joint) {before after : List Char}
    (hsplit : (j.behind query).toList = before ++ closeBrace :: after) :
    occursIn ['#', openBrace] before = true := by
  have hbehind : (j.behind query).toList =
      (')' :: ' ' :: (j.word.toList ++ [' ', '('])) ++ (query.toList ++ [')']) := by
    rw [j.toList_behind]
    simp
  have hno : closeBrace ∉ ')' :: ' ' :: (j.word.toList ++ [' ', '(']) := by
    cases j <;> decide +kernel
  rw [hbehind] at hsplit
  -- the brace can only stand in the query itself
  rcases append_eq_append_cons hsplit with ⟨_, hfront⟩ | ⟨before', rfl, hrest⟩
  · rw [hfront] at hno
    exact absurd (by simp) hno
  · rcases append_eq_append_cons hrest with ⟨after', hquery⟩ | ⟨_, _, hlast⟩
    · obtain ⟨_, hrun⟩ := h.run
      rw [h.toList_eq] at hquery
      exact occursIn_append_right _ (occursIn_of_closeBrace h.tokens rfl hrun hquery)
    · have hin : closeBrace ∈ [')'] := by
        rw [hlast]
        simp
      exact absurd hin (by decide)

/-- The joined queries are refused if the first one does not keep its literals: the first literal that
goes on goes over a column reference of the second query. -/
theorem ReadAs.join_refused {q₁ q₂ : String} {f₁ f₂ : Formula Clause} {ps₁ ps₂ : List Piece}
    {ts₁ ts₂ : List Token} (h₁ : ReadAs q₁ f₁ ps₁ ts₁) (h₂ : ReadAs q₂ f₂ ps₂ ts₂) (j : Joint)
    (hno : ¬ IsLayoutBefore (j.behind q₂).toList ps₁) (f : Formula Clause) :
    parse (j.join q₁ q₂) ≠ .ok f := by
  intro h
  obtain ⟨front, literal, back, hps, hfront, hnone, hsome⟩ :=
    h₁.layout.exists_first_unkept (by simp [j.toList_behind, openBrace]) hno
  obtain ⟨⟨long, rest⟩, hcut⟩ := Option.ne_none_iff_exists'.1 hsome
  have htext := cutBalanced_eq_append hcut
  -- the literal ends in the second query, where a column reference has opened before
  have hopen : occursIn ['#', openBrace] long = true := by
    rw [← List.cons_append, ← List.append_assoc] at hcut
    obtain ⟨more, rfl, hmore⟩ := cutBalanced_append_of_none hnone hcut
    exact occursIn_append_right _ (h₂.occursIn_behind j hmore)
  have hvalue : cutLiteral (long ++ closeBrace :: rest) = some (long, rest) := by
    rw [cutLiteral, ← htext, hcut]
    rfl
  have hwritten : written (.value literal :: back) ++ (j.behind q₂).toList =
      openBrace :: (long ++ closeBrace :: rest) := by
    rw [← htext]
    simp [Piece.text]
  rw [hwritten] at hfront
  -- so in the joined query the scan finds a literal with a column reference in it
  have hbefore : IsLayoutBefore (openBrace :: (long ++ closeBrace :: rest)) (.run ['('] :: front) :=
    ⟨by decide, fun hh => absurd hh (by decide), hfront⟩
  have hfalse := occursIn_eq_false_of_parse h hbefore hvalue (by
    rw [j.toList_join, h₁.toList_eq, hps, written_append, List.append_assoc, hwritten]
    simp [Piece.text])
  rw [hopen] at hfalse
  cases hfalse

/-- **Queries compose.** Two queries that are read, and that are not nested as deep as may be, are read as
the chain of two groups when they are put in parentheses and joined, with every clause as many bytes
further on as its query is; unless quotes that are open in a literal of the first query are closed by what
follows it, and then the joined query has a syntax error. -/
theorem queries_compose (j : Joint) {q₁ q₂ : String} {f₁ f₂ : Formula Clause}
    (h₁ : parse q₁ = .ok f₁) (h₂ : parse q₂ = .ok f₂) (hn₁ : f₁.nesting < maxNesting)
    (hn₂ : f₂.nesting < maxNesting) :
    (KeepsLiterals q₁.toList (j.behind q₂).toList →
      parse (j.join q₁ q₂) = .ok (j.chain [.group (moved 1 f₁),
        .group (moved (q₁.utf8ByteSize + width j.word.toList + 5) f₂)])) ∧
    (¬ KeepsLiterals q₁.toList (j.behind q₂).toList →
      ∃ offset fault, parse (j.join q₁ q₂) = .error (.querySyntax offset fault)) := by
  obtain ⟨ps₁, ts₁, hread₁⟩ := exists_readAs_of_parse h₁
  obtain ⟨ps₂, ts₂, hread₂⟩ := exists_readAs_of_parse h₂
  have hkeeps : IsLayoutBefore (j.behind q₂).toList ps₁ ↔
      KeepsLiterals q₁.toList (j.behind q₂).toList := by
    rw [hread₁.toList_eq]
    exact isLayoutBefore_iff_keepsLiterals hread₁.layout (by simp [j.toList_behind, openBrace])
  refine ⟨fun hkeep => hread₁.join hread₂ hn₁ hn₂ j (hkeeps.2 hkeep), fun hno => ?_⟩
  cases h : parse (j.join q₁ q₂) with
  | ok f => exact absurd h (hread₁.join_refused hread₂ j (fun hbefore => hno (hkeeps.1 hbefore)) f)
  | error e =>
    -- every error of the parser is a syntax error
    have hkind := kind_parse h
    cases e with
    | querySyntax offset fault => exact ⟨offset, fault, rfl⟩
    | _ => cases hkind

/-- An apostrophe that opens a literal is an ordinary character as long as no other one closes it. -/
theorem queries_compose_apostrophe :
    let q₁ := comparison "a" "'x"
    let q₂ := comparison "b" "y"
    let f₁ : Formula Clause := .leaf ⟨"a", 0, .eq, some "'x"⟩
    let f₂ : Formula Clause := .leaf ⟨"b", 0, .eq, some "y"⟩
    parse q₁ = .ok f₁ ∧ parse q₂ = .ok f₂ ∧ f₁.nesting < maxNesting ∧ f₂.nesting < maxNesting ∧
      KeepsLiterals q₁.toList (Joint.or.behind q₂).toList ∧
      Joint.or.join q₁ q₂ = "(#\x7ba\x7d = \x7b'x\x7d) or (#\x7bb\x7d = \x7by\x7d)" ∧
      parse (Joint.or.join q₁ q₂) = .ok (.any [.group (.leaf ⟨"a", 1, .eq, some "'x"⟩),
        .group (.leaf ⟨"b", 18, .eq, some "y"⟩)]) := by
  intro q₁ q₂ f₁ f₂
  have h₁ : ReadAs q₁ f₁ _ _ := readAs_comparison (by decide) (by decide +kernel) (by decide)
    (by decide +kernel) (by decide)
  have h₂ : ReadAs q₂ f₂ _ _ := readAs_comparison (by decide) (by decide +kernel) (by decide)
    (by decide +kernel) (by decide)
  have hkeeps : KeepsLiterals q₁.toList (Joint.or.behind q₂).toList := by
    rw [h₁.toList_eq]
    refine (isLayoutBefore_iff_keepsLiterals h₁.layout (by decide +kernel)).1 ?_
    exact ⟨by decide, by decide +kernel, by decide +kernel, by decide +kernel, trivial⟩
  have hjoin := queries_compose .or h₁.parse_eq_ok h₂.parse_eq_ok (by decide) (by decide)
  exact ⟨h₁.parse_eq_ok, h₂.parse_eq_ok, by decide, by decide, hkeeps, by decide +kernel,
    hjoin.1 hkeeps⟩

/-- A second apostrophe closes the first one, over the end of the first query. -/
theorem joined_queries_refused :
    let q₁ := comparison "a" "'x"
    let q₂ := comparison "b" "'y"
    let f₁ : Formula Clause := .leaf ⟨"a", 0, .eq, some "'x"⟩
    let f₂ : Formula Clause := .leaf ⟨"b", 0, .eq, some "'y"⟩
    parse q₁ = .ok f₁ ∧ parse q₂ = .ok f₂ ∧ f₁.nesting = 0 ∧ f₂.nesting = 0 ∧
      Joint.or.join q₁ q₂ = "(#\x7ba\x7d = \x7b'x\x7d) or (#\x7bb\x7d = \x7b'y\x7d)" ∧
      ∀ f, parse (Joint.or.join q₁ q₂) ≠ .ok f := by
  intro q₁ q₂ f₁ f₂
  have h₁ : ReadAs q₁ f₁ _ _ := readAs_comparison (by decide) (by decide +kernel) (by decide)
    (by decide +kernel) (by decide)
  have h₂ : ReadAs q₂ f₂ _ _ := readAs_comparison (by decide) (by decide +kernel) (by decide)
    (by decide +kernel) (by decide)
  have hno : ¬ IsLayoutBefore (Joint.or.behind q₂).toList (comparisonLayout ['a'] ['\'', 'x']) := by
    rintro ⟨_, _, _, hcut, _⟩
    exact absurd hcut (by decide +kernel)
  exact ⟨h₁.parse_eq_ok, h₂.parse_eq_ok, rfl, rfl, by decide +kernel, h₁.join_refused h₂ .or hno⟩

end Query

end RowFilter
