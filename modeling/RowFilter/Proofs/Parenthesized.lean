import RowFilter.Proofs.QuotedLiterals
import RowFilter.Proofs.Tiling

/-!
# RowFilter — a query inside another one

A query that was read on its own is put in parentheses, with more text behind it. The scans go on over that
text, so its pieces come out the same only if each of its literals ends where it did. That can fail for one
kind of literal only: for a literal whose quotes never balance in the query, and do so behind it.

If all literals end where they did, the tokens are the same ones, moved by the number of bytes in front.

Main results:

* `isLayoutBefore_iff_keepsLiterals` — when the pieces of a query come out the same in front of a text.
* `scanValues_before` — the scan for literals goes over them.
* `tokensAt_moved` — the tokens of a layout that starts elsewhere.
* `isLayout_parenthesized`, `tokensAt_parenthesized` — a layout in parentheses.
-/

namespace RowFilter.Query

open Text (width occursIn)

/-! ## Layouts in front of a text -/

/-- In front of a text the pieces come out as they are. -/
def IsLayoutBefore (after : List Char) : List Piece → Prop
  | [] => True
  | .run s :: ps => openBrace ∉ s ∧
      (s.getLast? = some '#' → (written ps ++ after).head? ≠ some openBrace) ∧
      IsLayoutBefore after ps
  | .column name :: ps => closeBrace ∉ name ∧ IsLayoutBefore after ps
  | .value literal :: ps =>
      cutLiteral (literal ++ closeBrace :: (written ps ++ after)) =
        some (literal, written ps ++ after) ∧ IsLayoutBefore after ps

theorem written_append (ps qs : List Piece) : written (ps ++ qs) = written ps ++ written qs :=
  List.flatMap_append

/-- Whether a piece comes out as it is depends on what follows it only. -/
theorem isLayoutBefore_cons {after : List Char} {p : Piece} {ps : List Piece} :
    IsLayoutBefore after (p :: ps) ↔
      IsLayoutBefore (written ps ++ after) [p] ∧ IsLayoutBefore after ps := by
  cases p <;> simp [IsLayoutBefore, and_assoc]

theorem isLayoutBefore_append {after : List Char} {ps qs : List Piece} :
    IsLayoutBefore after (ps ++ qs) ↔
      IsLayoutBefore (written qs ++ after) ps ∧ IsLayoutBefore after qs := by
  induction ps with
  | nil => simp [IsLayoutBefore]
  | cons p ps ih =>
    rw [List.cons_append, isLayoutBefore_cons, ih, written_append, List.append_assoc, ← and_assoc]
    exact and_congr_left fun _ => isLayoutBefore_cons.symm

theorem written_foldr_attach (ps qs : List Piece) :
    written (ps.foldr attach qs) = written ps ++ written qs := by
  induction ps with
  | nil => rfl
  | cons p ps ih => rw [List.foldr_cons, written_attach, ih, written_cons, List.append_assoc]

theorem value_mem_foldr_attach {literal : List Char} {qs : List Piece}
    (h : .value literal ∈ qs) (ps : List Piece) : .value literal ∈ ps.foldr attach qs := by
  have hcons (c : Char) {rs : List Piece} (hr : .value literal ∈ rs) :
      .value literal ∈ consRun c rs := by
    match rs, hr with
    | .run s :: rs, hr => exact List.mem_cons_of_mem _ (by simpa using hr)
    | .column name :: rs, hr => exact List.mem_cons_of_mem _ hr
    | .value literal :: rs, hr => exact List.mem_cons_of_mem _ hr
  induction ps with
  | nil => exact h
  | cons p ps ih =>
    cases p with
    | column name => exact List.mem_cons_of_mem _ ih
    | value literal => exact List.mem_cons_of_mem _ ih
    | run s =>
      show .value literal ∈ s.foldr consRun (ps.foldr attach qs)
      induction s with
      | nil => exact ih
      | cons c s ihs => exact hcons c ihs

/-- Pieces in front of a text and a layout of the text are a layout of both. -/
theorem isLayout_foldr_attach {ps qs : List Piece} (h : IsLayoutBefore (written qs) ps)
    (hqs : IsLayout qs) : IsLayout (ps.foldr attach qs) := by
  induction ps with
  | nil => exact hqs
  | cons p ps ih =>
    have hwritten := written_foldr_attach ps qs
    cases p with
    | run s =>
      obtain ⟨hs, hlast, hps⟩ := h
      refine isLayout_foldr_consRun (ih hps) hs ?_
      rw [hwritten]
      exact hlast
    | column name => exact ⟨h.1, ih h.2⟩
    | value literal =>
      refine ⟨?_, ih h.2⟩
      rw [hwritten]
      exact h.1

/-- The scan for literals goes over the pieces in front of a text. -/
theorem scanValues_before {after : List Char} {ps : List Piece} (h : IsLayoutBefore after ps)
    (pos : Nat) : scanValues pos false (written ps ++ after) =
      (scanValues (pos + width (written ps)) false after).map (valuesAt pos ps ++ ·) := by
  induction ps generalizing pos with
  | nil => exact (FoundBefore.map_nil _).symm
  | cons p ps ih =>
    rw [written_cons, Text.width_append, ← Nat.add_assoc, List.append_assoc]
    cases p with
    | run s =>
      obtain ⟨hs, hlast, hps⟩ := h
      rw [Piece.text, scan_run scanValues_plain hs hlast, ih hps]
      rfl
    | column name =>
      rw [width_column, ← Nat.add_assoc, Piece.text, List.cons_append, List.cons_append,
        List.append_assoc, List.singleton_append, scanValues_column h.1, ih h.2]
      rfl
    | value literal =>
      rw [width_value, ← Nat.add_assoc, Piece.text, List.cons_append, List.append_assoc,
        List.singleton_append, scanValues_value h.1, ih h.2, map_map]
      rfl

/-! ## Literals that end where they did -/

/-- Every literal of a query ends where it did with a text behind the query: if its quotes do not balance
in the query, then the text does not balance them. -/
def KeepsLiterals (query after : List Char) : Prop :=
  ∀ found, scanValues 0 false query = .ok found → ∀ t ∈ found, ∀ before rest,
    query = before ++ openBrace :: rest → width before = t.start →
    cutBalanced .start rest = none → cutBalanced .start (rest ++ after) = none

/-- A cut that is made at the end of a literal is made there whatever follows. -/
theorem cutBalanced_replace {state : ElementState} {literal rest : List Char}
    (h : cutBalanced state (literal ++ closeBrace :: rest) = some (literal, rest)) (after : List Char) :
    cutBalanced state (literal ++ closeBrace :: after) = some (literal, after) := by
  induction literal generalizing state with
  | nil =>
    rw [List.nil_append, cutBalanced] at h ⊢
    by_cases hend : (decide (closeBrace = closeBrace) && state.quote.isNone) = true
    · rw [if_pos hend]
    · -- the brace would belong to the literal
      rw [if_neg hend] at h
      obtain ⟨_, _, he⟩ := Option.map_eq_some_iff.1 h
      cases he
  | cons c literal ih =>
    rw [List.cons_append, cutBalanced] at h ⊢
    by_cases hend : (decide (c = closeBrace) && state.quote.isNone) = true
    · rw [if_pos hend] at h
      cases h
    · rw [if_neg hend] at h ⊢
      obtain ⟨_, hcut, he⟩ := Option.map_eq_some_iff.1 h
      cases he
      rw [ih hcut]
      rfl

/-- A literal ends where it did in front of another text, unless its quotes balance only there. -/
theorem cutLiteral_replace {literal rest after : List Char}
    (h : cutLiteral (literal ++ closeBrace :: rest) = some (literal, rest))
    (hkeep : cutBalanced .start (literal ++ closeBrace :: rest) = none →
      cutBalanced .start (literal ++ closeBrace :: after) = none) :
    cutLiteral (literal ++ closeBrace :: after) = some (literal, after) := by
  unfold cutLiteral at h
  cases hcut : cutBalanced .start (literal ++ closeBrace :: rest) with
  | none =>
    -- the first brace ends the literal, and it still does
    rw [hcut] at h
    obtain ⟨_, hname⟩ := cutAt_eq_some_iff.1 h
    rw [cutLiteral, hkeep hcut, cutAt_append hname]
    rfl
  | some p =>
    rw [hcut] at h
    obtain rfl : p = (literal, rest) := Option.some.inj h
    rw [cutLiteral, cutBalanced_replace hcut]
    rfl

/-- A literal that only the text behind ends goes on into that text, up to a brace there. -/
theorem cutBalanced_append_of_none {state : ElementState} {s t literal rest : List Char}
    (hnone : cutBalanced state s = none) (h : cutBalanced state (s ++ t) = some (literal, rest)) :
    ∃ more, literal = s ++ more ∧ t = more ++ closeBrace :: rest := by
  rw [cutBalanced_append, hnone] at h
  obtain ⟨⟨more, rest⟩, hmore, he⟩ := Option.map_eq_some_iff.1 h
  cases he
  exact ⟨more, rfl, cutBalanced_eq_append hmore⟩

/-- If a text balances the quotes of a literal, the literal does not end where it did. -/
theorem cutLiteral_ne_of_balanced {literal rest after : List Char}
    (hnone : cutBalanced .start (literal ++ closeBrace :: rest) = none)
    (hcut : cutLiteral (literal ++ closeBrace :: (rest ++ after)) = some (literal, rest ++ after)) :
    cutBalanced .start (literal ++ closeBrace :: (rest ++ after)) = none := by
  cases hbalanced : cutBalanced .start (literal ++ closeBrace :: (rest ++ after)) with
  | none => rfl
  | some p =>
    rw [cutLiteral, hbalanced] at hcut
    obtain rfl : p = (literal, rest ++ after) := Option.some.inj hcut
    -- the cut is behind the whole first part, which is longer than the literal
    rw [← List.cons_append, ← List.append_assoc] at hbalanced
    obtain ⟨more, hmore, _⟩ := cutBalanced_append_of_none hnone hbalanced
    have hlength := congrArg List.length hmore
    simp only [List.length_append, List.length_cons] at hlength
    omega

/-- A text without a closing brace ends no literal. -/
theorem cutBalanced_eq_none {state : ElementState} {s : List Char} (h : closeBrace ∉ s) :
    cutBalanced state s = none := by
  cases hcut : cutBalanced state s with
  | none => rfl
  | some p =>
    refine absurd ?_ h
    rw [cutBalanced_eq_append hcut]
    simp

section Before

variable {ps : List Piece} {after : List Char}

theorem head?_written_append (hhead : after.head? ≠ some openBrace)
    (h : (written ps).head? ≠ some openBrace) :
    (written ps ++ after).head? ≠ some openBrace := by
  rw [List.head?_append]
  cases hwritten : (written ps).head? with
  | none => exact hhead
  | some c =>
    rw [hwritten] at h
    exact h

/-- The pieces of a layout come out as they are if every literal still ends where it did. -/
theorem IsLayout.before (h : IsLayout ps) (hhead : after.head? ≠ some openBrace)
    (hkeep : ∀ front literal back, ps = front ++ .value literal :: back →
      cutBalanced .start (literal ++ closeBrace :: written back) = none →
      cutBalanced .start (literal ++ closeBrace :: (written back ++ after)) = none) :
    IsLayoutBefore after ps := by
  induction ps with
  | nil => trivial
  | cons p ps ih =>
    have hrest : IsLayout ps → IsLayoutBefore after ps := fun hps =>
      ih hps fun front literal back he => hkeep (p :: front) literal back (by rw [he]; rfl)
    cases p with
    | run s =>
      obtain ⟨_, hs, _, hlast, hps⟩ := h
      exact ⟨hs, fun hh => head?_written_append hhead (hlast hh), hrest hps⟩
    | column name => exact ⟨h.1, hrest h.2⟩
    | value literal => exact ⟨cutLiteral_replace h.1 (hkeep [] literal ps rfl), hrest h.2⟩

/-- In front of a text without a closing brace every layout comes out as it is. -/
theorem IsLayout.before_of_closeBrace (h : IsLayout ps) (hhead : after.head? ≠ some openBrace)
    (hafter : closeBrace ∉ after) : IsLayoutBefore after ps := by
  refine h.before hhead fun front literal back _ hnone => ?_
  rw [← List.cons_append, ← List.append_assoc, cutBalanced_append, hnone,
    cutBalanced_eq_none hafter]
  rfl

/-- Otherwise there is a first literal that ends elsewhere. -/
theorem IsLayout.exists_first_unkept (h : IsLayout ps) (hhead : after.head? ≠ some openBrace)
    (hno : ¬ IsLayoutBefore after ps) : ∃ front literal back, ps = front ++ .value literal :: back ∧
      IsLayoutBefore (written (.value literal :: back) ++ after) front ∧
      cutBalanced .start (literal ++ closeBrace :: written back) = none ∧
      cutBalanced .start (literal ++ closeBrace :: (written back ++ after)) ≠ none := by
  induction ps with
  | nil => exact absurd trivial hno
  | cons p ps ih =>
    by_cases hp : IsLayoutBefore (written ps ++ after) [p]
    · -- the first piece comes out as it is, so the literal stands behind it
      have hrest : IsLayout ps := by
        cases p with
        | run s => exact h.2.2.2.2
        | column name => exact h.2
        | value literal => exact h.2
      obtain ⟨front, literal, back, rfl, hfront, hcut⟩ := ih hrest fun hps =>
        hno (isLayoutBefore_cons.2 ⟨hp, hps⟩)
      rw [written_append, List.append_assoc] at hp
      exact ⟨p :: front, literal, back, rfl, isLayoutBefore_cons.2 ⟨hp, hfront⟩, hcut⟩
    · cases p with
      | run s =>
        obtain ⟨_, hs, _, hlast, _⟩ := h
        have hbehind : s.getLast? = some '#' → (written ps ++ after).head? ≠ some openBrace :=
          fun hh => head?_written_append hhead (hlast hh)
        exact absurd ⟨hs, hbehind, trivial⟩ hp
      | column name => exact absurd ⟨h.1, trivial⟩ hp
      | value literal =>
        refine ⟨[], literal, ps, rfl, trivial, ?_⟩
        -- nothing else keeps the literal from ending where it did
        refine Decidable.by_contra fun hkept => hp ?_
        have hcut : cutLiteral (literal ++ closeBrace :: (written ps ++ after)) =
            some (literal, written ps ++ after) := cutLiteral_replace h.1 fun hnone =>
          Decidable.by_contra fun hsome => hkept ⟨hnone, hsome⟩
        exact ⟨hcut, trivial⟩

/-! ### Literals in the scan -/

theorem valuesAt_append (pos : Nat) (ps qs : List Piece) :
    valuesAt pos (ps ++ qs) = valuesAt pos ps ++ valuesAt (pos + width (written ps)) qs := by
  induction ps generalizing pos with
  | nil => rfl
  | cons p ps ih =>
    rw [written_cons, Text.width_append, ← Nat.add_assoc, List.cons_append]
    cases p with
    | run s => exact ih _
    | column name =>
      rw [width_column, ← Nat.add_assoc]
      exact ih _
    | value literal =>
      rw [width_value, ← Nat.add_assoc]
      exact congrArg (_ :: ·) (ih _)

/-- The tokens of the scan for literals are those of the literals of the layout. -/
theorem mem_valuesAt_iff {pos : Nat} {t : Token} : t ∈ valuesAt pos ps ↔
    ∃ front literal back, ps = front ++ .value literal :: back ∧
      t = (Piece.value literal).tokenAt (pos + width (written front)) := by
  constructor
  · intro ht
    induction ps generalizing pos with
    | nil => cases ht
    | cons p ps ih =>
      have hrest : t ∈ valuesAt (pos + width p.text) ps → ∃ front literal back,
          p :: ps = front ++ .value literal :: back ∧
            t = (Piece.value literal).tokenAt (pos + width (written front)) := by
        intro ht
        obtain ⟨front, literal, back, rfl, rfl⟩ := ih ht
        refine ⟨p :: front, literal, back, rfl, ?_⟩
        rw [written_cons, Text.width_append, Nat.add_assoc]
      cases p with
      | run s => exact hrest ht
      | column name =>
        rw [width_column, ← Nat.add_assoc] at hrest
        exact hrest ht
      | value literal =>
        rw [width_value, ← Nat.add_assoc] at hrest
        rcases List.mem_cons.1 ht with rfl | ht
        · exact ⟨[], literal, ps, rfl, rfl⟩
        · exact hrest ht
  · rintro ⟨front, literal, back, rfl, rfl⟩
    rw [valuesAt_append]
    exact List.mem_append_right _ List.mem_cons_self

theorem append_inj_of_width {a b c d : List Char} (h : a ++ b = c ++ d) (hw : width a = width c) :
    a = c ∧ b = d := by
  induction a generalizing c with
  | nil =>
    cases c with
    | nil => exact ⟨rfl, h⟩
    | cons x c =>
      have := width_pos (s := x :: c) (by simp)
      rw [← hw, Text.width_nil] at this
      omega
  | cons x a ih =>
    cases c with
    | nil =>
      have := width_pos (s := x :: a) (by simp)
      rw [hw, Text.width_nil] at this
      omega
    | cons y c =>
      rw [List.cons_append, List.cons_append, List.cons.injEq] at h
      obtain ⟨rfl, h⟩ := h
      rw [Text.width_cons, Text.width_cons] at hw
      obtain ⟨rfl, rfl⟩ := ih h (by omega)
      exact ⟨rfl, rfl⟩

/-- The pieces of a query come out as they are in front of a text just if it keeps the literals. -/
theorem isLayoutBefore_iff_keepsLiterals (h : IsLayout ps) (hhead : after.head? ≠ some openBrace) :
    IsLayoutBefore after ps ↔ KeepsLiterals (written ps) after := by
  constructor
  · intro hbefore found hfound t ht before rest hsplit hstart hnone
    -- what the scan has found are the literals of the layout
    rw [scanValues_written h] at hfound
    cases hfound
    obtain ⟨front, literal, back, rfl, rfl⟩ := mem_valuesAt_iff.1 ht
    -- the literal starts at the byte of its token, and nowhere else
    rw [written_append] at hsplit
    obtain ⟨rfl, hrest⟩ := append_inj_of_width hsplit.symm (by simpa [Piece.tokenAt] using hstart)
    obtain rfl : rest = literal ++ closeBrace :: written back := by
      simpa [Piece.text] using hrest
    obtain ⟨_, hvalue, _⟩ := isLayoutBefore_append.1 hbefore
    rw [List.append_assoc, List.cons_append]
    exact cutLiteral_ne_of_balanced hnone hvalue
  · intro hkeeps
    refine h.before hhead fun front literal back he hnone => ?_
    have hmem : (Piece.value literal).tokenAt (0 + width (written front)) ∈ valuesAt 0 ps :=
      mem_valuesAt_iff.2 ⟨front, literal, back, he, rfl⟩
    have hkept := hkeeps _ (scanValues_written h 0) _ hmem (written front)
      (literal ++ closeBrace :: written back) (by rw [he, written_append]; simp [Piece.text])
      (by simp [Piece.tokenAt]) hnone
    rw [List.append_assoc, List.cons_append] at hkept
    exact hkept

end Before

/-! ## Moved tokens -/

/-- The token, so many bytes further on. -/
def Token.moveBy (n : Nat) (t : Token) : Token := { t with start := t.start + n, stop := t.stop + n }

/-- The word, so many bytes further on. -/
def Word.moveBy (n : Nat) (w : Word) : Word := { w with start := w.start + n }

theorem token_moveBy (n : Nat) (w : Word) (k : TokenKind) :
    (w.moveBy n).token k = (w.token k).moveBy n := by
  simp [Word.token, Word.moveBy, Token.moveBy, Word.stop, Nat.add_right_comm]

theorem wordsFrom_moved (n pos : Nat) (gap s : List Char) :
    wordsFrom (pos + n) gap s = (wordsFrom pos gap s).map (Word.moveBy n) := by
  fun_induction wordsFrom pos gap s with
  | case1 pos gap => rw [wordsFrom, List.map_nil]
  | case2 pos gap c rest hc ih => rw [wordsFrom, if_pos hc, Nat.add_right_comm, ih]
  | case3 pos gap c rest hc hlen text ih =>
    rw [wordsFrom, if_neg hc, List.map_cons, ← ih, Nat.add_right_comm pos (width text) n]
    rfl

theorem wordTokens_moved {ws : List Word} {ts : List Token} (h : wordTokens ws = .ok ts) (n : Nat) :
    wordTokens (ws.map (Word.moveBy n)) = .ok (ts.map (Token.moveBy n)) := by
  replace h := wordTokens_eq_ok_iff.1 h
  refine wordTokens_eq_ok_iff.2 ?_
  induction h with
  | nil => exact .nil
  | conjunction hc _ ih =>
    rw [List.map_cons, List.map_cons, ← token_moveBy]
    exact .conjunction hc ih
  | @notIn w next _ _ hc hn hi _ ih =>
    have hstop : (next.moveBy n).stop = next.stop + n :=
      congrArg Token.stop (token_moveBy n next .operator)
    have htoken : (w.moveBy n).tokenTo (next.moveBy n) = (w.tokenTo next).moveBy n := by
      rw [Word.tokenTo, hstop]
      rfl
    rw [List.map_cons, List.map_cons, List.map_cons, ← htoken]
    exact .notIn hc hn hi ih
  | operator hc hn ho _ ih =>
    rw [List.map_cons, List.map_cons, ← token_moveBy]
    exact .operator hc hn ho ih

/-- Literals in which no column reference opens. -/
def Hashless (ps : List Piece) : Prop :=
  ∀ literal, Piece.value literal ∈ ps → occursIn ['#', openBrace] literal = false

/-- A layout that starts further on has the same tokens further on. -/
theorem tokensAt_moved {ps : List Piece} (hps : Hashless ps) {pos : Nat} {ts : List Token}
    (h : tokensAt pos ps = .ok ts) (n : Nat) :
    tokensAt (pos + n) ps = .ok (ts.map (Token.moveBy n)) := by
  induction ps generalizing pos ts with
  | nil =>
    cases h
    rfl
  | cons p ps ih =>
    have hrest : Hashless ps := fun literal hl => hps literal (List.mem_cons_of_mem _ hl)
    cases p with
    | run s =>
      -- the words of a run move, and so does what stands behind them
      obtain ⟨us, vs, hus, hvs, rfl⟩ := tokensAt_run_ok h
      have hvs := ih hrest hvs
      rw [Nat.add_right_comm] at hvs
      rw [List.map_append]
      refine tokensAt_run ?_ hvs
      rw [wordsFrom_moved, wordTokens_moved hus]
    | column name =>
      obtain ⟨us, hus, rfl⟩ := map_eq_ok h
      have hstop : pos + width name + 3 + n = pos + n + width name + 3 := by omega
      have hus := ih hrest hus
      rw [hstop] at hus
      rw [tokensAt, hus, List.map_cons, Token.moveBy, hstop]
      rfl
    | value literal =>
      -- column references in a literal would be cut out at other places
      obtain ⟨us, hus, rfl⟩ := map_eq_ok h
      have hnone := columnsIn_eq_nil (hps literal List.mem_cons_self)
      have hstop : pos + width literal + 2 + n = pos + n + width literal + 2 := by omega
      have hus := ih hrest hus
      rw [hstop] at hus
      rw [tokensAt, hus, hnone, hnone, List.map_cons, Token.moveBy, hstop]
      rfl

/-! ## Layouts one behind the other -/

/-- The tokens of a layout and those of what follows, if no word goes over the end. -/
theorem tokensAt_foldr_attach {ps qs : List Piece} (hps : IsLayout ps)
    (hend : ∀ d, (written qs).head? = some d → isNameChar d = false ∧ isSign d = false)
    {pos : Nat} {us vs : List Token} (hus : tokensAt pos ps = .ok us)
    (hvs : tokensAt (pos + width (written ps)) qs = .ok vs) :
    tokensAt pos (ps.foldr attach qs) = .ok (us ++ vs) := by
  induction ps generalizing pos us with
  | nil =>
    cases hus
    exact hvs
  | cons p ps ih =>
    rw [written_cons, Text.width_append, ← Nat.add_assoc] at hvs
    cases p with
    | run s =>
      obtain ⟨us, us', hs, hus', rfl⟩ := tokensAt_run_ok hus
      obtain ⟨_, _, hrun, _, hrest⟩ := hps
      rw [List.append_assoc]
      refine tokensAt_foldr_consRun hs (ih hrest hus' hvs) fun c _ d hd => ?_
      -- behind the run stands a marker, or what follows the layout
      rw [written_foldr_attach] at hd
      have hends : isNameChar d = false ∧ isSign d = false := by
        cases ps with
        | nil => exact hend d hd
        | cons q ps =>
          cases q with
          | run t => exact absurd rfl (hrun t ps)
          | column name =>
            obtain rfl : '#' = d := Option.some.inj hd
            decide +kernel
          | value literal =>
            obtain rfl : openBrace = d := Option.some.inj hd
            decide +kernel
      exact sameWord_eq_false hends.1 hends.2 c
    | column name =>
      obtain ⟨us', hus', rfl⟩ := map_eq_ok hus
      rw [width_column, ← Nat.add_assoc] at hvs
      have hrest := ih hps.2 hus' hvs
      show tokensAt pos (.column name :: ps.foldr attach qs) = _
      rw [tokensAt, hrest]
      rfl
    | value literal =>
      obtain ⟨us', hus', rfl⟩ := map_eq_ok hus
      rw [width_value, ← Nat.add_assoc] at hvs
      have hrest := ih hps.2 hus' hvs
      show tokensAt pos (.value literal :: ps.foldr attach qs) = _
      rw [tokensAt, hrest, List.cons_append, List.append_assoc]
      rfl

/-! ## Parentheses -/

/-- A layout in parentheses, with another one behind it. -/
def parenthesized (ps tail : List Piece) : List Piece :=
  attach (.run ['(']) (ps.foldr attach (attach (.run [')']) tail))

theorem written_parenthesized (ps tail : List Piece) :
    written (parenthesized ps tail) = '(' :: (written ps ++ ')' :: written tail) := by
  rw [parenthesized, written_attach, written_foldr_attach, written_attach]
  rfl

theorem isLayout_parenthesized {ps tail : List Piece}
    (hps : IsLayoutBefore (')' :: written tail) ps) (htail : IsLayout tail) :
    IsLayout (parenthesized ps tail) := by
  have hclosing := isLayout_attach (p := .run [')']) keyword_closing htail
  refine isLayout_attach keyword_opening (isLayout_foldr_attach ?_ hclosing)
  rw [written_attach]
  exact hps

theorem tokensAt_parenthesized {ps tail : List Piece} (hps : IsLayout ps) (hhash : Hashless ps)
    (htail : ∀ d, (written tail).head? = some d → d = ' ') {pos : Nat} {us vs : List Token}
    (hus : tokensAt 0 ps = .ok us)
    (hvs : tokensAt (pos + width (written ps) + 2) tail = .ok vs) :
    tokensAt pos (parenthesized ps tail) = .ok ((Piece.run ['(']).tokenAt pos ::
      (us.map (Token.moveBy (pos + 1)) ++
        (Piece.run [')']).tokenAt (pos + 1 + width (written ps)) :: vs)) := by
  have hclosing : tokensAt (pos + 1 + width (written ps)) (attach (.run [')']) tail) =
      .ok ((Piece.run [')']).tokenAt (pos + 1 + width (written ps)) :: vs) := by
    refine tokensAt_attach keyword_closing htail ?_
    have hwidth : width (Piece.run [')']).text = 1 := by decide
    rw [hwidth, show pos + 1 + width (written ps) + 1 = pos + width (written ps) + 2 by omega]
    exact hvs
  have hend : ∀ d, (written (attach (.run [')']) tail)).head? = some d →
      isNameChar d = false ∧ isSign d = false := by
    intro d hd
    rw [written_attach] at hd
    obtain rfl : ')' = d := Option.some.inj hd
    decide +kernel
  -- the query was read at the first byte, and now stands behind the parenthesis
  have hinner := tokensAt_moved hhash hus (pos + 1)
  rw [Nat.zero_add] at hinner
  -- the opening parenthesis goes on no word either
  refine tokensAt_foldr_consRun (Keyword.wordTokens_eq keyword_opening pos)
    (tokensAt_foldr_attach hps hend hinner hclosing) fun c hc d _ => ?_
  rw [List.mem_singleton.1 hc, sameWord_eq_false_left (by decide +kernel) (by decide)]

end RowFilter.Query
