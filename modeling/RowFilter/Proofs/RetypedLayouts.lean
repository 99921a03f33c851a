import RowFilter.Proofs.Composition
import RowFilter.Proofs.Retyping

/-!
# RowFilter — layouts typed again

A layout is typed again run by run, and its markers stay as they are. What is typed has the new pieces for
its layout. That is not plain for a literal, since the scan that looks for its end goes on over everything
behind it as long as quotes are open, and takes the first brace only if they never balance. But the state of
that scan depends neither on the case of a letter nor on blanks, so the scan ends where it did.

A query is typed again outside of some marked bytes. If they are those of the markers, then what is typed is
the layout of the query, typed again.

Main results:

* `tokensAt_retyped` — the tokens of a layout that is typed again.
* `cutBalanced_retyped`, `IsLayout.retyped` — it is a layout of what is typed.
* `RetypedOutside.exists_written`, `retypedOutside_written` — what is typed outside the markers.
* `columnsAt_retyped` — the column references stay the same ones.
-/

namespace RowFilter.Query

open Text (width isBlank capitals)

/-! ## Layouts -/

/-- A piece and what is typed in its place. -/
inductive PieceRetyped : Piece → Piece → Prop
  | run {s s' : List Char} : Retyped s s' → PieceRetyped (.run s) (.run s')
  | column (name : List Char) : PieceRetyped (.column name) (.column name)
  | value (literal : List Char) : PieceRetyped (.value literal) (.value literal)

/-- A layout and what is typed in its place. -/
abbrev LayoutRetyped (ps ps' : List Piece) : Prop := List.Forall₂ PieceRetyped ps ps'

/-- A layout that is typed again has tokens that are alike, wherever it starts. -/
theorem tokensAt_retyped {ps ps' : List Piece} (h : LayoutRetyped ps ps') (hhash : Hashless ps)
    {pos : Nat} {ts : List Token} (hts : tokensAt pos ps = .ok ts) (pos' : Nat) :
    ∃ ts', tokensAt pos' ps' = .ok ts' ∧ List.Forall₂ Token.Alike ts' ts := by
  induction h generalizing pos pos' ts with
  | nil =>
    cases hts
    exact ⟨[], rfl, .nil⟩
  | @cons p p' ps ps' hp _ ih =>
    have hrest : Hashless ps := fun literal hl => hhash literal (List.mem_cons_of_mem _ hl)
    cases hp with
    | run hs =>
      obtain ⟨us, vs, hus, hvs, rfl⟩ := tokensAt_run_ok hts
      obtain ⟨us', hus', halike⟩ := wordTokens_alike hus (hs.words pos pos' [] []) gap_blank_of_mem
        gap_blank_of_mem
      obtain ⟨vs', hvs', halike'⟩ := ih hrest hvs _
      exact ⟨us' ++ vs', tokensAt_run hus' hvs', List.rel_append halike halike'⟩
    | column name =>
      obtain ⟨us, hus, rfl⟩ := map_eq_ok hts
      obtain ⟨us', hus', halike⟩ := ih hrest hus (pos' + width name + 3)
      rw [tokensAt, hus']
      exact ⟨_, rfl, .cons ⟨rfl, rfl, rfl, fun _ => rfl⟩ halike⟩
    | value literal =>
      -- no column reference opens in the literal, so it is one token in both layouts
      obtain ⟨us, hus, rfl⟩ := map_eq_ok hts
      have hnone := columnsIn_eq_nil (hhash literal List.mem_cons_self)
      obtain ⟨us', hus', halike⟩ := ih hrest hus (pos' + width literal + 2)
      rw [tokensAt, hus', hnone]
      refine ⟨_, rfl, ?_⟩
      rw [hnone]
      exact .cons ⟨rfl, rfl, rfl, fun _ => rfl⟩ halike

/-! ### Ends of literals -/

/-- The states in which a literal is read. -/
def ElementState.reached : List ElementState :=
  [⟨none, true⟩, ⟨none, false⟩, ⟨some '\'', true⟩, ⟨some '"', true⟩]

theorem ElementState.step_mem_reached {state : ElementState} (h : state ∈ reached) (c : Char) :
    state.step c ∈ reached := by
  simp only [reached, List.mem_cons, List.not_mem_nil, or_false] at h
  rcases h with rfl | rfl | rfl | rfl <;> unfold step <;> grind [reached]

theorem ElementState.foldl_step_mem_reached {state : ElementState} (h : state ∈ reached) (s : List Char) :
    s.foldl step state ∈ reached := by
  induction s generalizing state with
  | nil => exact h
  | cons c s ih => exact ih (step_mem_reached h c)

theorem ElementState.foldl_step_blanks {state : ElementState} (h : state ∈ reached) {b : List Char}
    (hb : b.all isBlank = true) : b.foldl step state = state := by
  have hblank : ∀ state ∈ reached, ∀ n ∈ Text.CharSet.codes Text.blanks.bounds,
      state.step (Char.ofNat n) = state := by decide +kernel
  induction b with
  | nil => rfl
  | cons c b ih =>
    obtain ⟨hc, hb⟩ := Bool.and_eq_true_iff.1 hb
    rw [List.foldl_cons, Text.apply_blank (hblank state h) hc, ih hb]

/-- Neither the case of a letter nor a blank makes a difference to the state. -/
theorem Retyped.foldl_step {s s' : List Char} (h : Retyped s s') {state : ElementState}
    (hstate : state ∈ ElementState.reached) :
    s.foldl ElementState.step state = s'.foldl ElementState.step state := by
  have hlower : ∀ state ∈ ElementState.reached, ∀ n ∈ capitals,
      state.step (Char.ofNat n).toLower = state.step (Char.ofNat n) := by decide +kernel
  induction h generalizing state with
  | nil => rfl
  | @char c d s s' hc _ ih =>
    have hstep := hlower state hstate
    rw [List.foldl_cons, List.foldl_cons, ← Text.apply_toLower hstep c, hc, Text.apply_toLower hstep d]
    exact ih (ElementState.step_mem_reached hstate d)
  | blanks _ _ hb hb' _ ih =>
    rw [List.foldl_append, List.foldl_append, ElementState.foldl_step_blanks hstate hb,
      ElementState.foldl_step_blanks hstate hb', ih hstate]

theorem cutBalanced_append_eq_none_iff {state : ElementState} {s t : List Char} :
    cutBalanced state (s ++ t) = none ↔
      cutBalanced state s = none ∧ cutBalanced (s.foldl ElementState.step state) t = none := by
  rw [cutBalanced_append, Option.or_eq_none_iff, Option.map_eq_none_iff, Option.map_eq_none_iff]

theorem closeBrace_notMem_of_tokensAt {ps : List Piece} {pos : Nat} {ts : List Token}
    (h : tokensAt pos ps = .ok ts) : ∀ s, Piece.run s ∈ ps → closeBrace ∉ s := by
  induction ps generalizing pos ts with
  | nil => exact fun s hs => (nomatch hs)
  | cons p ps ih =>
    cases p with
    | run t =>
      obtain ⟨us, vs, hus, hvs, rfl⟩ := tokensAt_run_ok h
      intro s hs
      rcases List.mem_cons.1 hs with he | hs
      · obtain rfl := Piece.run.inj he
        exact closeBrace_notMem_of_wordTokens hus
      · exact ih hvs s hs
    | column name =>
      obtain ⟨us, hus, _⟩ := map_eq_ok h
      exact fun s hs => ih hus s (by simpa using hs)
    | value literal =>
      obtain ⟨us, hus, _⟩ := map_eq_ok h
      exact fun s hs => ih hus s (by simpa using hs)

/-- Quotes that do not balance in a layout do not balance in it when it is typed again. -/
theorem cutBalanced_retyped {ps ps' : List Piece} (h : LayoutRetyped ps ps')
    (hruns : ∀ s, Piece.run s ∈ ps → closeBrace ∉ s) {state : ElementState}
    (hstate : state ∈ ElementState.reached) (hnone : cutBalanced state (written ps) = none) :
    cutBalanced state (written ps') = none := by
  induction h generalizing state with
  | nil => rfl
  | @cons p p' ps ps' hp _ ih =>
    -- the scan does not stop in this piece, and what comes behind it is scanned from the state that it leaves
    rw [written_cons, cutBalanced_append_eq_none_iff] at hnone ⊢
    have hrest := ih (fun s hs => hruns s (List.mem_cons_of_mem _ hs))
      (ElementState.foldl_step_mem_reached hstate p.text) hnone.2
    cases hp with
    | column name => exact ⟨hnone.1, hrest⟩
    | value literal => exact ⟨hnone.1, hrest⟩
    | run hs =>
      refine ⟨cutBalanced_eq_none (hs.notMem .closeBrace (hruns _ List.mem_cons_self)), ?_⟩
      rw [Piece.text, ← hs.foldl_step hstate]
      exact hrest

/-! ### Layouts again -/

theorem ne_run_of_retyped {ps ps' : List Piece} (h : LayoutRetyped ps ps')
    (hrun : ∀ t qs, ps ≠ .run t :: qs) :
    (∀ t qs, ps' ≠ .run t :: qs) ∧ (written ps').head? = (written ps).head? := by
  cases h with
  | nil => exact ⟨hrun, rfl⟩
  | cons hp _ =>
    cases hp with
    | run => exact absurd rfl (hrun _ _)
    | column name => exact ⟨fun t qs he => (nomatch he), rfl⟩
    | value literal => exact ⟨fun t qs he => (nomatch he), rfl⟩

/-- A layout that is typed again is a layout of what is typed. -/
theorem IsLayout.retyped {ps ps' : List Piece} (h : IsLayout ps) (hps : LayoutRetyped ps ps')
    (hruns : ∀ s, Piece.run s ∈ ps → closeBrace ∉ s) : IsLayout ps' := by
  induction hps with
  | nil => trivial
  | @cons p p' ps ps' hp hps ih =>
    have hruns' : ∀ s, Piece.run s ∈ ps → closeBrace ∉ s := fun s hs => hruns s (List.mem_cons_of_mem _ hs)
    cases hp with
    | @run s s' hs =>
      obtain ⟨hne, hno, hrun, hlast, hrest⟩ := h
      obtain ⟨hrun', hhead⟩ := ne_run_of_retyped hps hrun
      refine ⟨mt hs.nil_iff.2 hne, hs.notMem .openBrace hno, hrun', fun hhash => ?_, ih hrest hruns'⟩
      -- the run ended with a hash mark, too
      rw [hhead]
      exact hlast (hs.getLast?_eq_some .hash hhash)
    | column name => exact ⟨h.1, ih h.2 hruns'⟩
    | value literal =>
      -- if the quotes did not balance then, they must not balance now
      refine ⟨cutLiteral_replace h.1 fun hnone => ?_, ih h.2 hruns'⟩
      rw [← List.singleton_append, ← List.append_assoc, cutBalanced_append_eq_none_iff] at hnone ⊢
      have hreached : (literal ++ [closeBrace]).foldl ElementState.step .start ∈ ElementState.reached :=
        ElementState.foldl_step_mem_reached (by decide) _
      exact ⟨hnone.1, cutBalanced_retyped hps hruns' hreached hnone.2⟩

/-! ## Typing outside the markers -/

/-- A query that starts at a byte and what is typed in its place: what is marked stays as it is. -/
inductive RetypedOutside (marked : Nat → Bool) : Nat → List Char → List Char → Prop
  | nil {pos : Nat} : RetypedOutside marked pos [] []
  | marked {pos : Nat} {c : Char} {s s' : List Char} : marked pos = true →
      RetypedOutside marked (pos + c.utf8Size) s s' → RetypedOutside marked pos (c :: s) (c :: s')
  | plain {pos : Nat} {p p' s s' : List Char} :
      (∀ byte, pos ≤ byte → byte < pos + width p → marked byte = false) → Retyped p p' →
      RetypedOutside marked (pos + width p) s s' → RetypedOutside marked pos (p ++ s) (p' ++ s')

namespace RetypedOutside

variable {marked : Nat → Bool} {pos : Nat} {s t u : List Char}

theorem marked_append {m : List Char}
    (hm : ∀ byte, pos ≤ byte → byte < pos + width m → marked byte = true)
    (h : RetypedOutside marked (pos + width m) s t) : RetypedOutside marked pos (m ++ s) (m ++ t) := by
  induction m generalizing pos with
  | nil => exact h
  | cons c m ih =>
    have hc := c.utf8Size_pos
    rw [Text.width_cons] at hm
    rw [Text.width_cons, ← Nat.add_assoc] at h
    exact .marked (hm pos (Nat.le_refl _) (by omega)) (ih (fun byte h1 h2 => hm byte (by omega) (by omega)) h)

theorem eq_nil (h : RetypedOutside marked pos [] u) : u = [] := by
  generalize hx : ([] : List Char) = x at h
  induction h with
  | nil => rfl
  | marked => cases hx
  | plain _ hpp' _ ih =>
    obtain ⟨rfl, rfl⟩ := List.append_eq_nil_iff.1 hx.symm
    rw [hpp'.nil_iff.1 rfl, ih rfl]

/-- What is typed in place of a run that ends at a marker, and what is typed behind it. -/
theorem split_plain (h : RetypedOutside marked pos (s ++ t) u)
    (hs : ∀ byte, pos ≤ byte → byte < pos + width s → marked byte = false)
    (ht : t = [] ∨ marked (pos + width s) = true) :
    ∃ s' t', u = s' ++ t' ∧ Retyped s s' ∧ RetypedOutside marked (pos + width s) t t' := by
  generalize hx : s ++ t = x at h
  induction h generalizing s with
  | nil =>
    obtain ⟨rfl, rfl⟩ := List.append_eq_nil_iff.1 hx
    exact ⟨[], [], rfl, .nil, .nil⟩
  | @marked pos c x x' hc h ih =>
    cases s with
    | nil =>
      obtain rfl : t = c :: x := hx
      exact ⟨[], _, rfl, .nil, .marked hc h⟩
    | cons d s =>
      have hpos := d.utf8Size_pos
      rw [hs pos (Nat.le_refl _) (by rw [Text.width_cons]; omega)] at hc
      cases hc
  | @plain pos p p' x x' hp hpp' h ih =>
    rcases List.append_eq_append_iff.1 hx with ⟨a, rfl, rfl⟩ | ⟨a, rfl, rfl⟩
    · -- the typed part cannot go on behind the run, where a marker starts
      cases a with
      | nil =>
        rw [List.append_nil] at hpp' h
        exact ⟨p', x', rfl, hpp', h⟩
      | cons d a =>
        have hpos := d.utf8Size_pos
        rcases ht with ht | ht
        · cases ht
        · rw [hp _ (Nat.le_add_right _ _) (by rw [Text.width_append, Text.width_cons]; omega)] at ht
          cases ht
    · -- the run goes on behind the typed part
      rw [Text.width_append, ← Nat.add_assoc] at hs ht ⊢
      obtain ⟨s', t', rfl, hs', ht'⟩ := ih (fun byte h1 h2 => hs byte (by omega) h2) ht rfl
      exact ⟨p' ++ s', t', (List.append_assoc ..).symm, hpp'.append hs', ht'⟩

/-- Nothing else is typed in place of a marker. -/
theorem split_marked (h : RetypedOutside marked pos (s ++ t) u)
    (hs : ∀ byte, pos ≤ byte → byte < pos + width s → marked byte = true) :
    ∃ t', u = s ++ t' ∧ RetypedOutside marked (pos + width s) t t' := by
  generalize hx : s ++ t = x at h
  induction h generalizing s with
  | nil =>
    obtain ⟨rfl, rfl⟩ := List.append_eq_nil_iff.1 hx
    exact ⟨[], rfl, .nil⟩
  | @marked pos c x x' hc h ih =>
    cases s with
    | nil =>
      obtain rfl : t = c :: x := hx
      exact ⟨_, rfl, .marked hc h⟩
    | cons d s =>
      obtain ⟨rfl, htail⟩ := List.cons.inj hx
      have hpos := d.utf8Size_pos
      rw [Text.width_cons, ← Nat.add_assoc] at hs ⊢
      obtain ⟨t', rfl, ht'⟩ := ih (fun byte h1 h2 => hs byte (by omega) h2) htail
      exact ⟨t', rfl, ht'⟩
  | @plain pos p p' x x' hp hpp' h ih =>
    by_cases hsn : s = []
    · subst hsn
      obtain rfl : t = p ++ x := hx
      exact ⟨_, rfl, .plain hp hpp' h⟩
    · -- the first byte is marked, so the typed part is empty
      have hpn : p = [] := by
        by_contra hpn
        have hmarked := hs pos (Nat.le_refl _) (Nat.lt_add_of_pos_right (width_pos hsn))
        rw [hp pos (Nat.le_refl _) (Nat.lt_add_of_pos_right (width_pos hpn))] at hmarked
        cases hmarked
      subst hpn
      obtain rfl := hpp'.nil_iff.1 rfl
      exact ih hs hx

/-- Behind a run stands nothing or a marker. -/
theorem nil_or_inMarker {ps : List Piece} (hrun : ∀ t qs, ps ≠ .run t :: qs) (pos : Nat) :
    written ps = [] ∨ inMarker pos ps pos = true := by
  cases ps with
  | nil => exact .inl rfl
  | cons p ps =>
    right
    cases p with
    | run t => exact absurd rfl (hrun t ps)
    | column name => simp [inMarker, Nat.add_assoc]
    | value literal => simp [inMarker, Nat.add_assoc]

/-- What is typed in place of a layout has a layout with the same markers. -/
theorem exists_written {ps : List Piece} (hps : IsLayout ps)
    (hm : ∀ byte, pos ≤ byte → marked byte = inMarker pos ps byte)
    (h : RetypedOutside marked pos (written ps) u) : ∃ ps', LayoutRetyped ps ps' ∧ u = written ps' := by
  induction ps generalizing pos u with
  | nil => exact ⟨[], .nil, h.eq_nil⟩
  | cons p ps ih =>
    have hin (byte : Nat) (h1 : pos ≤ byte) (h2 : byte < pos + width p.text) :
        marked byte = p.isMarker := (hm byte h1).trans (inMarker_within h1 h2 ps)
    have hbehind (byte : Nat) (hb : pos + width p.text ≤ byte) :
        marked byte = inMarker (pos + width p.text) ps byte :=
      (hm byte (by omega)).trans (inMarker_behind hb ps)
    cases p with
    | run s =>
      obtain ⟨_, _, hrun, _, hrest⟩ := hps
      have hend : written ps = [] ∨ marked (pos + width (Piece.run s).text) = true := by
        rw [hbehind _ (Nat.le_refl _)]
        exact nil_or_inMarker hrun _
      obtain ⟨s', t', rfl, hs', ht'⟩ := h.split_plain hin hend
      obtain ⟨ps', hps', rfl⟩ := ih hrest hbehind ht'
      exact ⟨.run s' :: ps', .cons (.run hs') hps', rfl⟩
    | column name =>
      obtain ⟨t', rfl, ht'⟩ := h.split_marked hin
      obtain ⟨ps', hps', rfl⟩ := ih hps.2 hbehind ht'
      exact ⟨.column name :: ps', .cons (.column name) hps', rfl⟩
    | value literal =>
      obtain ⟨t', rfl, ht'⟩ := h.split_marked hin
      obtain ⟨ps', hps', rfl⟩ := ih hps.2 hbehind ht'
      exact ⟨.value literal :: ps', .cons (.value literal) hps', rfl⟩

end RetypedOutside

/-- A layout that is typed again is typed again outside its markers. -/
theorem retypedOutside_written {marked : Nat → Bool} {ps ps' : List Piece} (h : LayoutRetyped ps ps')
    {pos : Nat} (hm : ∀ byte, pos ≤ byte → byte < pos + width (written ps) →
      marked byte = inMarker pos ps byte) : RetypedOutside marked pos (written ps) (written ps') := by
  induction h generalizing pos with
  | nil => exact .nil
  | @cons p p' ps ps' hp _ ih =>
    rw [written_cons, Text.width_append, ← Nat.add_assoc] at hm
    have hin (byte : Nat) (h1 : pos ≤ byte) (h2 : byte < pos + width p.text) :
        marked byte = p.isMarker := (hm byte h1 (by omega)).trans (inMarker_within h1 h2 ps)
    have hrest := ih fun byte (h1 : pos + width p.text ≤ byte) h2 =>
      (hm byte (by omega) h2).trans (inMarker_behind h1 ps)
    cases hp with
    | run hs => exact .plain hin hs hrest
    | column name => exact hrest.marked_append hin
    | value literal => exact hrest.marked_append hin

/-! ## Column references -/

/-- A token of one layout and a token of the other start where the same column reference stands. -/
def SameReference (pos pos' : Nat) (ps ps' : List Piece) (t t' : Token) : Prop :=
  ∃ front name back front' back', ps = front ++ .column name :: back ∧
    ps' = front' ++ .column name :: back' ∧ LayoutRetyped front front' ∧
    t.start = pos + width (written front) ∧ t'.start = pos' + width (written front')

theorem SameReference.cons {pos pos' : Nat} {p p' : Piece} {ps ps' : List Piece} {t t' : Token}
    (hp : PieceRetyped p p')
    (h : SameReference (pos + width p.text) (pos' + width p'.text) ps ps' t t') :
    SameReference pos pos' (p :: ps) (p' :: ps') t t' := by
  obtain ⟨front, name, back, front', back', rfl, rfl, hfront, hstart, hstart'⟩ := h
  refine ⟨p :: front, name, back, p' :: front', back', rfl, rfl, .cons hp hfront, ?_, ?_⟩
  · rw [hstart, written_cons, Text.width_append, Nat.add_assoc]
  · rw [hstart', written_cons, Text.width_append, Nat.add_assoc]

/-- The column references of a layout that is typed again are those of the layout. -/
theorem columnsAt_retyped {ps ps' : List Piece} (h : LayoutRetyped ps ps') (hhash : Hashless ps)
    (pos pos' : Nat) :
    List.Forall₂ (SameReference pos pos' ps ps') (columnsAt pos ps) (columnsAt pos' ps') := by
  induction h generalizing pos pos' with
  | nil => exact .nil
  | @cons p p' ps ps' hp _ ih =>
    have hrest := (ih (fun literal hl => hhash literal (List.mem_cons_of_mem _ hl)) (pos + width p.text)
      (pos' + width p'.text)).imp fun _ _ => SameReference.cons hp
    cases hp with
    | run hs => exact hrest
    | column name =>
      rw [width_column, ← Nat.add_assoc, ← Nat.add_assoc] at hrest
      exact .cons ⟨[], name, ps, [], ps', rfl, rfl, .nil, rfl, rfl⟩ hrest
    | value literal =>
      rw [width_value, ← Nat.add_assoc, ← Nat.add_assoc] at hrest
      have hnone := columnsIn_eq_nil (hhash literal List.mem_cons_self)
      rw [columnsAt, columnsAt, hnone, hnone]
      exact hrest

end RowFilter.Query
