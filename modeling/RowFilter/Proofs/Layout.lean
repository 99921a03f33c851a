import RowFilter.Proofs.Results
import RowFilter.Query.TokenStream

/-!
# RowFilter — layouts of a query

A layout cuts a query into pieces: plain runs, column references and literals. It is what the two scans
for markers agree on, although neither of them knows of the other: whenever the scan for literals ends,
the query has a layout, and both scans find its markers. The scan for columns finds more, namely the
column references that stand inside a literal.

The width of a piece is counted in bytes, so positions in a layout are positions in the query.

Main results:

* `exists_layout` — a query whose literals are all terminated has a layout.
* `scanValues_written`, `scanColumns_written` — what the scans find in a layout.
* `plainRuns_written` — the plain runs of a query are those of its layout.
-/

namespace RowFilter.Query

open Text (width)

/-! ## Single steps of the scans -/

theorem utf8Size_hash : '#'.utf8Size = 1 := by decide

theorem utf8Size_openBrace : openBrace.utf8Size = 1 := by decide

theorem utf8Size_closeBrace : closeBrace.utf8Size = 1 := by decide

theorem cutAt_append {name : List Char} (h : closeBrace ∉ name) (after : List Char) :
    cutAt (name ++ closeBrace :: after) = some (name, after) :=
  cutAt_eq_some_iff.2 ⟨rfl, h⟩

theorem cutBalanced_eq_append {state : ElementState} {s literal after : List Char}
    (h : cutBalanced state s = some (literal, after)) : s = literal ++ closeBrace :: after := by
  induction s generalizing state literal with
  | nil => cases h
  | cons c s ih =>
    unfold cutBalanced at h
    split at h
    · rename_i hc
      cases h
      simp only [Bool.and_eq_true, decide_eq_true_eq] at hc
      rw [hc.1, List.nil_append]
    · obtain ⟨⟨l, a⟩, hl, he⟩ := Option.map_eq_some_iff.1 h
      cases he
      rw [ih hl, List.cons_append]

/-- A text is cut in its first part, or else in the second one, in the state that the first one leaves. -/
theorem cutBalanced_append (state : ElementState) (s t : List Char) :
    cutBalanced state (s ++ t) = ((cutBalanced state s).map fun p => (p.1, p.2 ++ t)).or
      ((cutBalanced (s.foldl ElementState.step state) t).map fun p => (s ++ p.1, p.2)) := by
  induction s generalizing state with
  | nil => simp [cutBalanced]
  | cons c s ih =>
    rw [List.cons_append, cutBalanced, cutBalanced]
    split
    · rfl
    · -- both parts are read one character further
      rw [ih, List.foldl_cons]
      cases cutBalanced (state.step c) s <;> simp [Function.comp_def]

/-- What follows a text that is cut does not matter. -/
theorem cutBalanced_append_of_some {state : ElementState} {s literal rest : List Char}
    (h : cutBalanced state s = some (literal, rest)) (after : List Char) :
    cutBalanced state (s ++ after) = some (literal, rest ++ after) := by
  rw [cutBalanced_append, h]
  rfl

/-- A literal, a closing brace and what follows are the text that was cut. -/
theorem eq_of_cutLiteral {s literal after : List Char} (h : cutLiteral s = some (literal, after)) :
    s = literal ++ closeBrace :: after := by
  unfold cutLiteral at h
  cases hb : cutBalanced .start s with
  | none =>
    rw [hb] at h
    exact (cutAt_eq_some_iff.1 h).1
  | some p =>
    rw [hb] at h
    cases h
    exact cutBalanced_eq_append hb

theorem scanColumns_nil (pos : Nat) : scanColumns pos [] = .ok [] := by
  rw [scanColumns]

theorem scanColumns_column {name : List Char} (h : closeBrace ∉ name) (pos : Nat)
    (after : List Char) :
    scanColumns pos ('#' :: openBrace :: (name ++ closeBrace :: after)) =
      (scanColumns (pos + width name + 3) after).map
        (⟨.column, String.ofList name, pos, pos + width name + 3⟩ :: ·) := by
  rw [scanColumns]
  simp only [and_self, if_true]
  split
  · rename_i hc
    rw [cutAt_append h] at hc
    cases hc
  · rename_i hc
    rw [cutAt_append h] at hc
    cases hc
    rfl

theorem scanColumns_plain {c : Char} {s : List Char}
    (h : c = '#' → s.head? ≠ some openBrace) (pos : Nat) :
    scanColumns pos (c :: s) = scanColumns (pos + c.utf8Size) s := by
  cases s with
  | nil => rw [scanColumns_nil, scanColumns]
  | cons d s =>
    rw [scanColumns]
    rw [if_neg]
    rintro ⟨hc, hd⟩
    exact h hc (by rw [hd]; rfl)

theorem scanValues_nil (pos : Nat) (hash : Bool) : scanValues pos hash [] = .ok [] := by
  rw [scanValues]

/-- A hash mark only matters for a brace right behind it. -/
theorem scanValues_hash {s : List Char} (h : s.head? ≠ some openBrace) (pos : Nat) :
    scanValues pos true s = scanValues pos false s := by
  cases s with
  | nil => rw [scanValues_nil, scanValues_nil]
  | cons c s =>
    have hc : c ≠ openBrace := fun hc => h (by rw [hc]; rfl)
    rw [scanValues, scanValues, if_neg hc, if_neg hc]

theorem scanValues_plain {c : Char} {s : List Char} (hc : c ≠ openBrace)
    (h : c = '#' → s.head? ≠ some openBrace) (pos : Nat) :
    scanValues pos false (c :: s) = scanValues (pos + c.utf8Size) false s := by
  rw [scanValues, if_neg hc]
  by_cases hh : c = '#'
  · rw [decide_eq_true hh, scanValues_hash (h hh)]
  · rw [decide_eq_false hh]

/-- Behind a hash mark a brace belongs to a column, which the scan goes over. -/
theorem scanValues_brace {name : List Char} (h : closeBrace ∉ name) (pos : Nat) (after : List Char) :
    scanValues pos true (openBrace :: (name ++ closeBrace :: after)) =
      scanValues (pos + width name + 2) false after := by
  rw [scanValues, if_pos rfl, if_pos rfl]
  split
  · rename_i hc
    rw [cutAt_append h] at hc
    cases hc
  · rename_i hc
    rw [cutAt_append h] at hc
    cases hc
    rfl

theorem scanValues_column {name : List Char} (h : closeBrace ∉ name) (pos : Nat)
    (after : List Char) :
    scanValues pos false ('#' :: openBrace :: (name ++ closeBrace :: after)) =
      scanValues (pos + width name + 3) false after := by
  have hp : pos + '#'.utf8Size + width name + 2 = pos + width name + 3 := by
    rw [utf8Size_hash]
    omega
  rw [scanValues, if_neg (by decide), decide_eq_true rfl, scanValues_brace h, hp]

theorem scanValues_value {literal after : List Char}
    (h : cutLiteral (literal ++ closeBrace :: after) = some (literal, after)) (pos : Nat) :
    scanValues pos false (openBrace :: (literal ++ closeBrace :: after)) =
      (scanValues (pos + width literal + 2) false after).map
        (⟨.value, String.ofList literal, pos, pos + width literal + 2⟩ :: ·) := by
  rw [scanValues, if_pos rfl]
  simp only [Bool.false_eq_true, if_false]
  split
  · rename_i hc
    rw [h] at hc
    cases hc
  · rename_i hc
    rw [h] at hc
    cases hc
    rfl

/-! ## Columns inside a literal -/

/-- What the scan for columns finds in front of a closing brace: it does not depend on what follows the
brace, and it ends there at the latest. -/
structure FoundBefore (pos : Nat) (s : List Char) (found : List Token) : Prop where
  scan : ∀ after, scanColumns pos (s ++ closeBrace :: after) =
    (scanColumns (pos + width s + 1) after).map (found ++ ·)
  within : ∀ t ∈ found, pos ≤ t.start ∧ t.start < t.stop ∧ t.stop ≤ pos + width s + 1
  column : ∀ t ∈ found, t.kind = .column
  ordered : found.Pairwise fun a b => a.start < b.start

namespace FoundBefore

theorem map_nil (x : Except FilterError (List Token)) : x.map ([] ++ ·) = x := by
  cases x <;> rfl

theorem nil (pos : Nat) : FoundBefore pos [] [] where
  scan after := by
    rw [List.nil_append, scanColumns_plain fun h => absurd h (by decide), map_nil]
    rfl
  within t ht := nomatch ht
  column t ht := nomatch ht
  ordered := .nil

theorem plain {c : Char} {s : List Char} {pos : Nat} {found : List Token}
    (hc : c = '#' → s.head? ≠ some openBrace) (h : FoundBefore (pos + c.utf8Size) s found) :
    FoundBefore pos (c :: s) found where
  scan after := by
    have hc' : c = '#' → (s ++ closeBrace :: after).head? ≠ some openBrace := by
      intro hh
      cases s with
      | nil => simp [openBrace, closeBrace]
      | cons d s => exact hc hh
    rw [List.cons_append, scanColumns_plain hc', h.scan, Text.width_cons, Nat.add_assoc pos]
  within t ht := by
    have := h.within t ht
    rw [Text.width_cons]
    omega
  column := h.column
  ordered := h.ordered

/-- The name goes on to the closing brace behind the text. -/
theorem unclosed {name : List Char} (h : closeBrace ∉ name) (pos : Nat) :
    FoundBefore pos ('#' :: openBrace :: name)
      [⟨.column, String.ofList name, pos, pos + width name + 3⟩] where
  scan after := by
    have hw : pos + width ('#' :: openBrace :: name) + 1 = pos + width name + 3 := by
      rw [Text.width_cons, Text.width_cons, utf8Size_hash, utf8Size_openBrace]
      omega
    rw [List.cons_append, List.cons_append, scanColumns_column h, hw]
    rfl
  within t ht := by
    rw [List.mem_singleton.1 ht, Text.width_cons, Text.width_cons, utf8Size_hash,
      utf8Size_openBrace]
    simp only
    omega
  column t ht := by rw [List.mem_singleton.1 ht]
  ordered := List.pairwise_singleton _ _

theorem closed {name s : List Char} {pos : Nat} {found : List Token} (hname : closeBrace ∉ name)
    (h : FoundBefore (pos + width name + 3) s found) :
    FoundBefore pos ('#' :: openBrace :: (name ++ closeBrace :: s))
      (⟨.column, String.ofList name, pos, pos + width name + 3⟩ :: found) := by
  have hw : width ('#' :: openBrace :: (name ++ closeBrace :: s)) = width name + 3 + width s := by
    rw [Text.width_cons, Text.width_cons, Text.width_append, Text.width_cons, utf8Size_hash,
      utf8Size_openBrace, utf8Size_closeBrace]
    omega
  refine ⟨fun after => ?_, fun t ht => ?_, fun t ht => ?_, ?_⟩
  · -- the scan goes on behind the closing brace of the name
    rw [List.cons_append, List.cons_append, List.append_assoc, List.cons_append,
      scanColumns_column hname, h.scan, hw]
    rw [show pos + (width name + 3 + width s) + 1 = pos + width name + 3 + width s + 1 by omega]
    cases scanColumns (pos + width name + 3 + width s + 1) after <;> rfl
  · -- within
    rw [hw]
    rcases List.mem_cons.1 ht with rfl | ht
    · simp only
      omega
    · have := h.within t ht
      omega
  · -- column
    rcases List.mem_cons.1 ht with rfl | ht
    · rfl
    · exact h.column t ht
  · -- ordered
    refine List.pairwise_cons.2 ⟨fun t ht => ?_, h.ordered⟩
    have := h.within t ht
    simp only
    omega

end FoundBefore

theorem exists_foundBefore (s : List Char) (pos : Nat) : ∃ found, FoundBefore pos s found := by
  induction hn : s.length using Nat.strongRecOn generalizing s pos with
  | ind n ih =>
    subst hn
    match s with
    | [] => exact ⟨[], .nil pos⟩
    | [c] =>
      obtain ⟨found, h⟩ := ih 0 (by simp) [] (pos + c.utf8Size) rfl
      exact ⟨found, h.plain fun _ => by simp⟩
    | c :: d :: s =>
      by_cases hcd : c = '#' ∧ d = openBrace
      · -- a column opens here, and it ends in the text or at the brace behind it
        obtain ⟨rfl, rfl⟩ := hcd
        by_cases hmem : closeBrace ∈ s
        · obtain ⟨name, s, rfl, hname⟩ := List.eq_append_cons_of_mem hmem
          obtain ⟨found, h⟩ := ih s.length (by simp; omega) s (pos + width name + 3) rfl
          exact ⟨_, h.closed hname⟩
        · exact ⟨_, .unclosed hmem pos⟩
      · obtain ⟨found, h⟩ := ih (d :: s).length (by simp) (d :: s) (pos + c.utf8Size) rfl
        exact ⟨found, h.plain fun hc hd => hcd ⟨hc, by simpa using hd⟩⟩

/-- The column references in a text with a closing brace behind it. -/
def columnsIn (pos : Nat) (s : List Char) : List Token :=
  (scanColumns pos (s ++ [closeBrace])).toOption.getD []

theorem foundBefore_columnsIn (pos : Nat) (s : List Char) : FoundBefore pos s (columnsIn pos s) := by
  obtain ⟨found, h⟩ := exists_foundBefore s pos
  have hscan := h.scan []
  rw [scanColumns_nil] at hscan
  rw [columnsIn, hscan]
  simpa [Except.map, Except.toOption] using h

theorem FoundBefore.eq_columnsIn {pos : Nat} {s : List Char} {found : List Token}
    (h : FoundBefore pos s found) : columnsIn pos s = found := by
  have hscan := h.scan []
  rw [scanColumns_nil] at hscan
  rw [columnsIn, hscan]
  simp [Except.map, Except.toOption]

/-- Without the opening of a column reference there are none. -/
theorem columnsIn_eq_nil {s : List Char} (h : Text.occursIn ['#', openBrace] s = false) (pos : Nat) :
    columnsIn pos s = [] := by
  refine FoundBefore.eq_columnsIn ?_
  induction s generalizing pos with
  | nil => exact .nil pos
  | cons c s ih =>
    simp only [Text.occursIn, Bool.or_eq_false_iff] at h
    refine .plain (fun hc hs => ?_) (ih h.2 _)
    cases s with
    | nil => cases hs
    | cons d s =>
      simp only [List.head?_cons, Option.some.injEq] at hs
      subst hc hs
      simp [List.isPrefixOf] at h

/-! ## Pieces -/

/-- A plain run, a column reference or a literal. -/
inductive Piece
  | run (s : List Char)
  | column (name : List Char)
  | value (literal : List Char)
deriving DecidableEq, Repr

/-- A piece as it is written. -/
def Piece.text : Piece → List Char
  | run s => s
  | column name => '#' :: openBrace :: (name ++ [closeBrace])
  | value literal => openBrace :: (literal ++ [closeBrace])

/-- Pieces one after the other. -/
def written (ps : List Piece) : List Char := ps.flatMap Piece.text

@[simp] theorem written_nil : written [] = [] := rfl

@[simp] theorem written_cons (p : Piece) (ps : List Piece) :
    written (p :: ps) = p.text ++ written ps := rfl

theorem width_column (name : List Char) : width (Piece.column name).text = width name + 3 := by
  rw [Piece.text, Text.width_cons, Text.width_cons, Text.width_append, Text.width_cons,
    utf8Size_hash, utf8Size_openBrace, utf8Size_closeBrace, Text.width_nil]
  omega

theorem width_value (literal : List Char) :
    width (Piece.value literal).text = width literal + 2 := by
  rw [Piece.text, Text.width_cons, Text.width_append, Text.width_cons, utf8Size_openBrace,
    utf8Size_closeBrace, Text.width_nil]
  omega

/-- Two runs do not meet, a run has no opening brace and no hash mark before a literal, a name ends at
the first closing brace, and a literal ends where the scan for literals ends it. -/
def IsLayout : List Piece → Prop
  | [] => True
  | .run s :: ps => s ≠ [] ∧ openBrace ∉ s ∧ (∀ t ps', ps ≠ .run t :: ps') ∧
      (s.getLast? = some '#' → (written ps).head? ≠ some openBrace) ∧ IsLayout ps
  | .column name :: ps => closeBrace ∉ name ∧ IsLayout ps
  | .value literal :: ps =>
      cutLiteral (literal ++ closeBrace :: written ps) = some (literal, written ps) ∧ IsLayout ps

instance decidableNoRun : (ps : List Piece) → Decidable (∀ t ps', ps ≠ .run t :: ps')
  | [] => isTrue fun _ _ => nofun
  | .run s :: ps => isFalse fun h => h s ps rfl
  | .column _ :: _ => isTrue fun _ _ => nofun
  | .value _ :: _ => isTrue fun _ _ => nofun

instance decidableIsLayout : (ps : List Piece) → Decidable (IsLayout ps)
  | [] => isTrue trivial
  | .run s :: ps =>
    have := decidableIsLayout ps
    inferInstanceAs (Decidable (s ≠ [] ∧ openBrace ∉ s ∧ (∀ t ps', ps ≠ .run t :: ps') ∧
      (s.getLast? = some '#' → (written ps).head? ≠ some openBrace) ∧ IsLayout ps))
  | .column name :: ps =>
    have := decidableIsLayout ps
    inferInstanceAs (Decidable (closeBrace ∉ name ∧ IsLayout ps))
  | .value literal :: ps =>
    have := decidableIsLayout ps
    inferInstanceAs (Decidable
      (cutLiteral (literal ++ closeBrace :: written ps) = some (literal, written ps) ∧ IsLayout ps))

/-- Puts a character in front of the run that a layout starts with, or starts a run. -/
def consRun (c : Char) : List Piece → List Piece
  | .run s :: ps => .run (c :: s) :: ps
  | ps => [.run [c]] ++ ps

@[simp] theorem written_consRun (c : Char) (ps : List Piece) :
    written (consRun c ps) = c :: written ps := by
  match ps with
  | [] => rfl
  | .run s :: ps => rfl
  | .column name :: ps => rfl
  | .value literal :: ps => rfl

theorem IsLayout.consRun {c : Char} {ps : List Piece} (h : IsLayout ps) (hc : c ≠ openBrace)
    (hh : c = '#' → (written ps).head? ≠ some openBrace) : IsLayout (consRun c ps) := by
  have single : (∀ t ps', ps ≠ .run t :: ps') → IsLayout ([.run [c]] ++ ps) := by
    intro hrun
    refine ⟨by simp, by simpa using Ne.symm hc, hrun, fun hl => hh ?_, h⟩
    simpa using hl
  match ps with
  | [] => exact single fun _ _ e => nomatch e
  | .column _ :: _ => exact single fun _ _ e => nomatch e
  | .value _ :: _ => exact single fun _ _ e => nomatch e
  | .run s :: ps =>
    obtain ⟨hne, hno, hrun, hlast, hps⟩ := h
    refine ⟨by simp, by simpa using ⟨Ne.symm hc, hno⟩, hrun, fun hl => hlast ?_, hps⟩
    rwa [List.getLast?_cons_of_ne_nil hne] at hl

/-- A run in front of a layout joins the run there. -/
theorem isLayout_foldr_consRun {s : List Char} {ps : List Piece} (h : IsLayout ps)
    (hs : openBrace ∉ s) (hlast : s.getLast? = some '#' → (written ps).head? ≠ some openBrace) :
    IsLayout (s.foldr consRun ps) := by
  induction s with
  | nil => exact h
  | cons c s ih =>
    obtain ⟨hc, hs⟩ := not_or.1 (mt List.mem_cons.2 hs)
    cases s with
    | nil => exact h.consRun (Ne.symm hc) fun hh => hlast (by rw [hh]; rfl)
    | cons d s =>
      rw [List.getLast?_cons_cons] at hlast
      -- behind the first character stands the second one, which is no brace
      refine (ih hs hlast).consRun (Ne.symm hc) fun _ => ?_
      rw [List.foldr_cons, written_consRun, List.head?_cons]
      exact fun hd => hs (by simp [Option.some.inj hd])

/-! ## Every query has a layout -/

theorem exists_cutLiteral {s : List Char} {pos : Nat} {found : List Token}
    (h : scanValues pos false (openBrace :: s) = .ok found) :
    ∃ literal after, cutLiteral s = some (literal, after) := by
  cases hcut : cutLiteral s with
  | some p => exact ⟨p.1, p.2, rfl⟩
  | none =>
    rw [scanValues, if_pos rfl] at h
    simp only [Bool.false_eq_true, if_false] at h
    split at h
    · cases h
    · rename_i hcut'
      rw [hcut] at hcut'
      cases hcut'

theorem exists_cutAt {s : List Char} {pos : Nat} {found : List Token}
    (h : scanValues pos false ('#' :: openBrace :: s) = .ok found) :
    ∃ name after, s = name ++ closeBrace :: after ∧ closeBrace ∉ name := by
  cases hcut : cutAt s with
  | some p => exact ⟨p.1, p.2, cutAt_eq_some_iff.1 hcut⟩
  | none =>
    rw [scanValues, if_neg (by decide), decide_eq_true rfl, scanValues, if_pos rfl, if_pos rfl] at h
    split at h
    · cases h
    · rename_i hcut'
      rw [hcut] at hcut'
      cases hcut'

/-- A terminated text has a layout; the induction goes from marker to marker, and character by
character in between. -/
theorem exists_layout {s : List Char} {pos : Nat} {found : List Token}
    (h : scanValues pos false s = .ok found) : ∃ ps, IsLayout ps ∧ written ps = s := by
  induction hn : s.length using Nat.strongRecOn generalizing s pos found with
  | ind n ih =>
    subst hn
    match s with
    | [] => exact ⟨[], trivial, rfl⟩
    | c :: s =>
      by_cases hc : c = openBrace
      · -- a literal
        subst hc
        obtain ⟨literal, after, hcut⟩ := exists_cutLiteral h
        obtain rfl := eq_of_cutLiteral hcut
        rw [scanValues_value hcut] at h
        obtain ⟨found', h', _⟩ := map_eq_ok h
        obtain ⟨ps, hps, rfl⟩ := ih _ (by simp; omega) h' rfl
        exact ⟨.value literal :: ps, ⟨hcut, hps⟩, by simp [Piece.text]⟩
      · by_cases hh : c = '#' ∧ s.head? = some openBrace
        · -- a column reference
          obtain ⟨rfl, hs⟩ := hh
          obtain ⟨s, rfl⟩ := List.head?_eq_some_iff.1 hs
          obtain ⟨name, after, rfl, hname⟩ := exists_cutAt h
          rw [scanValues_column hname] at h
          obtain ⟨ps, hps, hw⟩ := ih _ (by simp; omega) h rfl
          exact ⟨.column name :: ps, ⟨hname, hps⟩, by simp [Piece.text, hw]⟩
        · -- a plain character
          have hplain : c = '#' → s.head? ≠ some openBrace := fun h1 h2 => hh ⟨h1, h2⟩
          rw [scanValues_plain hc hplain] at h
          obtain ⟨ps, hps, rfl⟩ := ih _ (by simp) h rfl
          exact ⟨consRun c ps, hps.consRun hc hplain, written_consRun c ps⟩

/-! ## The markers of a layout -/

/-- The literals of a layout that starts at a byte. -/
def valuesAt (pos : Nat) : List Piece → List Token
  | [] => []
  | .run s :: ps => valuesAt (pos + width s) ps
  | .column name :: ps => valuesAt (pos + width name + 3) ps
  | .value literal :: ps =>
    let stop := pos + width literal + 2
    ⟨.value, String.ofList literal, pos, stop⟩ :: valuesAt stop ps

/-- The column references of a layout that starts at a byte, those inside its literals included. -/
def columnsAt (pos : Nat) : List Piece → List Token
  | [] => []
  | .run s :: ps => columnsAt (pos + width s) ps
  | .column name :: ps =>
    let stop := pos + width name + 3
    ⟨.column, String.ofList name, pos, stop⟩ :: columnsAt stop ps
  | .value literal :: ps =>
    columnsIn (pos + 1) literal ++ columnsAt (pos + width literal + 2) ps

/-- A scan that goes over plain characters one by one goes over a whole run. -/
theorem scan_run {β : Type} {scan : Nat → List Char → β}
    (step : ∀ {c s}, c ≠ openBrace → (c = '#' → s.head? ≠ some openBrace) → ∀ pos,
      scan pos (c :: s) = scan (pos + c.utf8Size) s)
    {s after : List Char} (hno : openBrace ∉ s)
    (hlast : s.getLast? = some '#' → after.head? ≠ some openBrace) (pos : Nat) :
    scan pos (s ++ after) = scan (pos + width s) after := by
  induction s generalizing pos with
  | nil => rfl
  | cons c s ih =>
    simp only [List.mem_cons, not_or] at hno
    have hh : c = '#' → (s ++ after).head? ≠ some openBrace := by
      intro hc
      cases s with
      | nil => exact hlast (by rw [hc]; rfl)
      | cons d s =>
        intro hd
        exact hno.2 (by simp at hd; simp [hd])
    have hlast' : s.getLast? = some '#' → after.head? ≠ some openBrace := by
      intro hs
      refine hlast ?_
      cases s with
      | nil => cases hs
      | cons d s => rwa [List.getLast?_cons_cons]
    rw [List.cons_append, step (Ne.symm hno.1) hh, ih hno.2 hlast', Text.width_cons, Nat.add_assoc]

theorem scanValues_written {ps : List Piece} (h : IsLayout ps) (pos : Nat) :
    scanValues pos false (written ps) = .ok (valuesAt pos ps) := by
  induction ps generalizing pos with
  | nil => exact scanValues_nil pos false
  | cons p ps ih =>
    cases p with
    | run s =>
      obtain ⟨_, hno, _, hlast, hps⟩ := h
      rw [written_cons, Piece.text, scan_run scanValues_plain hno hlast, ih hps]
      rfl
    | column name =>
      obtain ⟨hname, hps⟩ := h
      rw [written_cons, Piece.text, List.cons_append, List.cons_append, List.append_assoc]
      rw [List.singleton_append, scanValues_column hname, ih hps]
      rfl
    | value literal =>
      obtain ⟨hcut, hps⟩ := h
      rw [written_cons, Piece.text, List.cons_append, List.append_assoc, List.singleton_append]
      rw [scanValues_value hcut, ih hps]
      rfl

theorem scanColumns_written {ps : List Piece} (h : IsLayout ps) (pos : Nat) :
    scanColumns pos (written ps) = .ok (columnsAt pos ps) := by
  induction ps generalizing pos with
  | nil => exact scanColumns_nil pos
  | cons p ps ih =>
    cases p with
    | run s =>
      obtain ⟨_, hno, _, hlast, hps⟩ := h
      rw [written_cons, Piece.text, scan_run (fun _ => scanColumns_plain) hno hlast, ih hps]
      rfl
    | column name =>
      obtain ⟨hname, hps⟩ := h
      rw [written_cons, Piece.text, List.cons_append, List.cons_append, List.append_assoc]
      rw [List.singleton_append, scanColumns_column hname, ih hps]
      rfl
    | value literal =>
      obtain ⟨_, hps⟩ := h
      rw [written_cons, Piece.text, List.cons_append, List.append_assoc, List.singleton_append]
      rw [scanColumns_plain fun h => absurd h (by decide), (foundBefore_columnsIn _ literal).scan,
        utf8Size_openBrace, show pos + 1 + width literal + 1 = pos + width literal + 2 by omega, ih hps]
      rfl

/-! ## Plain runs -/

/-- The plain runs of a layout that starts at a byte. -/
def runsAt (pos : Nat) : List Piece → List (Nat × List Char)
  | [] => []
  | .run s :: ps => (pos, s) :: runsAt (pos + width s) ps
  | .column name :: ps => runsAt (pos + width name + 3) ps
  | .value literal :: ps => runsAt (pos + width literal + 2) ps

/-- Is a byte inside a marker of a layout that starts at `pos`? -/
def inMarker (pos : Nat) (ps : List Piece) (byte : Nat) : Bool :=
  match ps with
  | [] => false
  | .run s :: ps => inMarker (pos + width s) ps byte
  | .column name :: ps =>
    (pos ≤ byte && byte < pos + width name + 3) || inMarker (pos + width name + 3) ps byte
  | .value literal :: ps =>
    (pos ≤ byte && byte < pos + width literal + 2) || inMarker (pos + width literal + 2) ps byte

theorem inMarker_of_lt {ps : List Piece} {pos byte : Nat} (h : byte < pos) :
    inMarker pos ps byte = false := by
  induction ps generalizing pos with
  | nil => rfl
  | cons p ps ih =>
    have hpos : ¬ pos ≤ byte := by omega
    cases p with
    | run s => exact ih (by omega)
    | column name => simp [inMarker, ih (show byte < pos + width name + 3 by omega), hpos]
    | value literal => simp [inMarker, ih (show byte < pos + width literal + 2 by omega), hpos]

/-- Column references and literals are markers, plain runs are not. -/
def Piece.isMarker : Piece → Bool
  | run _ => false
  | column _ | value _ => true

theorem inMarker_within {p : Piece} {pos byte : Nat} (h : pos ≤ byte) (h' : byte < pos + width p.text)
    (ps : List Piece) : inMarker pos (p :: ps) byte = p.isMarker := by
  cases p with
  | run s =>
    show inMarker (pos + width s) ps byte = false
    exact inMarker_of_lt h'
  | column name =>
    rw [width_column] at h'
    simp [inMarker, Piece.isMarker, h, show byte < pos + width name + 3 by omega]
  | value literal =>
    rw [width_value] at h'
    simp [inMarker, Piece.isMarker, h, show byte < pos + width literal + 2 by omega]

theorem inMarker_behind {p : Piece} {pos byte : Nat} (h : pos + width p.text ≤ byte) (ps : List Piece) :
    inMarker pos (p :: ps) byte = inMarker (pos + width p.text) ps byte := by
  cases p with
  | run s => rfl
  | column name =>
    rw [width_column, ← Nat.add_assoc] at h ⊢
    simp [inMarker, Nat.not_lt.2 h]
  | value literal =>
    rw [width_value, ← Nat.add_assoc] at h ⊢
    simp [inMarker, Nat.not_lt.2 h]

theorem inMarker_append (pos : Nat) (ps qs : List Piece) (byte : Nat) :
    inMarker pos (ps ++ qs) byte =
      (inMarker pos ps byte || inMarker (pos + width (written ps)) qs byte) := by
  induction ps generalizing pos with
  | nil => rfl
  | cons p ps ih =>
    rw [List.cons_append, written_cons, Text.width_append, ← Nat.add_assoc]
    cases p with
    | run s => exact ih _
    | column name =>
      rw [inMarker, inMarker, ih, width_column, Bool.or_assoc]
      rfl
    | value literal =>
      rw [inMarker, inMarker, ih, width_value, Bool.or_assoc]
      rfl

theorem covered_append (a b : List Token) (byte : Nat) :
    covered (a ++ b) byte = (covered a byte || covered b byte) :=
  List.any_append

theorem covered_cons (t : Token) (ts : List Token) (byte : Nat) :
    covered (t :: ts) byte = ((t.start ≤ byte && byte < t.stop) || covered ts byte) :=
  List.any_cons

/-- The columns inside a literal cover nothing that the literal does not. -/
theorem covered_columnsIn {pos byte : Nat} {literal : List Char}
    (h : covered (columnsIn (pos + 1) literal) byte = true) :
    pos ≤ byte ∧ byte < pos + width literal + 2 := by
  obtain ⟨t, ht, hb⟩ := List.any_eq_true.1 h
  have := (foundBefore_columnsIn (pos + 1) literal).within t ht
  simp only [Bool.and_eq_true, decide_eq_true_eq] at hb
  omega

/-- The tokens of both scans cover the markers of the layout. -/
theorem covered_layout (ps : List Piece) (pos byte : Nat) :
    covered (columnsAt pos ps ++ valuesAt pos ps) byte = inMarker pos ps byte := by
  induction ps generalizing pos with
  | nil => rfl
  | cons p ps ih =>
    cases p with
    | run s => exact ih _
    | column name =>
      rw [inMarker, ← ih, columnsAt, valuesAt, List.cons_append, covered_cons]
    | value literal =>
      -- the columns inside a literal add nothing to what it covers
      rw [inMarker, ← ih, columnsAt, valuesAt]
      simp only [covered_append, covered_cons]
      cases hin : covered (columnsIn (pos + 1) literal) byte with
      | false =>
        rw [Bool.false_or, Bool.or_left_comm]
      | true =>
        obtain ⟨h1, h2⟩ := covered_columnsIn hin
        simp [h1, h2]

theorem plainRuns_covered {markers : List Token} {s : List Char} {pos : Nat}
    (h : ∀ byte, pos ≤ byte → byte < pos + width s → covered markers byte = true)
    (after : List Char) :
    plainRuns markers pos (s ++ after) = plainRuns markers (pos + width s) after := by
  induction s generalizing pos with
  | nil => rfl
  | cons c s ih =>
    have hc := c.utf8Size_pos
    rw [Text.width_cons] at h
    rw [List.cons_append, plainRuns, if_pos (h pos (Nat.le_refl _) (by omega)), Text.width_cons,
      ← Nat.add_assoc]
    exact ih fun byte h1 h2 => h byte (by omega) (by omega)

/-- A run that nothing covers comes out whole if the next one does not start right behind it. -/
theorem plainRuns_uncovered {markers : List Token} {s after : List Char} {pos : Nat}
    (h : ∀ byte, pos ≤ byte → byte < pos + width s → covered markers byte = false)
    (hs : s ≠ [])
    (hafter : ∀ r ∈ plainRuns markers (pos + width s) after, r.1 ≠ pos + width s) :
    plainRuns markers pos (s ++ after) =
      (pos, s) :: plainRuns markers (pos + width s) after := by
  induction s generalizing pos with
  | nil => exact absurd rfl hs
  | cons c s ih =>
    have hc := c.utf8Size_pos
    rw [Text.width_cons] at h hafter
    rw [← Nat.add_assoc] at hafter
    have hno : covered markers pos ≠ true := by
      rw [h pos (Nat.le_refl _) (by omega)]
      decide
    rw [List.cons_append, plainRuns, if_neg hno, Text.width_cons, ← Nat.add_assoc]
    by_cases hnil : s = []
    · -- the last character starts the run, since the next one is not adjacent
      subst hnil
      simp only [List.nil_append, Text.width_nil, Nat.add_zero] at hafter ⊢
      cases hr : plainRuns markers (pos + c.utf8Size) after with
      | nil => rfl
      | cons r more =>
        rw [hr] at hafter
        simp only [prepend, if_neg (hafter r List.mem_cons_self)]
    · rw [ih (fun byte h1 h2 => h byte (by omega) (by omega)) hnil hafter]
      simp only [prepend, if_true]

theorem le_of_mem_runsAt {ps : List Piece} {pos : Nat} {r : Nat × List Char}
    (h : r ∈ runsAt pos ps) : pos ≤ r.1 := by
  induction ps generalizing pos with
  | nil => cases h
  | cons p ps ih =>
    cases p with
    | run s =>
      rcases List.mem_cons.1 h with rfl | h
      · exact Nat.le_refl _
      · have := ih h
        omega
    | column name =>
      have := ih h
      omega
    | value literal =>
      have := ih h
      omega

/-- A marker in front keeps every run away from the start. -/
theorem ne_of_mem_runsAt {ps : List Piece} (hrun : ∀ t ps', ps ≠ .run t :: ps') {pos : Nat}
    {r : Nat × List Char} (h : r ∈ runsAt pos ps) : r.1 ≠ pos := by
  match ps, h with
  | .run s :: ps, _ => exact absurd rfl (hrun s ps)
  | .column name :: ps, h =>
    have := le_of_mem_runsAt (show r ∈ runsAt (pos + width name + 3) ps from h)
    omega
  | .value literal :: ps, h =>
    have := le_of_mem_runsAt (show r ∈ runsAt (pos + width literal + 2) ps from h)
    omega

theorem plainRuns_layout {ps : List Piece} (h : IsLayout ps) {markers : List Token} {pos : Nat}
    (hm : ∀ byte, pos ≤ byte → covered markers byte = inMarker pos ps byte) :
    plainRuns markers pos (written ps) = runsAt pos ps := by
  induction ps generalizing pos with
  | nil => rfl
  | cons p ps ih =>
    have hin (byte : Nat) (h1 : pos ≤ byte) (h2 : byte < pos + width p.text) :
        covered markers byte = p.isMarker := (hm byte h1).trans (inMarker_within h1 h2 ps)
    have hbehind (byte : Nat) (hb : pos + width p.text ≤ byte) :
        covered markers byte = inMarker (pos + width p.text) ps byte :=
      (hm byte (by omega)).trans (inMarker_behind hb ps)
    cases p with
    | run s =>
      obtain ⟨hne, _, hrun, _, hps⟩ := h
      have hrest := ih hps hbehind
      rw [written_cons, plainRuns_uncovered hin hne]
      · exact congrArg (_ :: ·) hrest
      · rw [hrest]
        exact fun r hr => ne_of_mem_runsAt hrun hr
    | column name =>
      rw [written_cons, plainRuns_covered hin, ih h.2 hbehind, width_column, ← Nat.add_assoc]
      rfl
    | value literal =>
      rw [written_cons, plainRuns_covered hin, ih h.2 hbehind, width_value, ← Nat.add_assoc]
      rfl

theorem plainRuns_written {ps : List Piece} (h : IsLayout ps) :
    plainRuns (columnsAt 0 ps ++ valuesAt 0 ps) 0 (written ps) = runsAt 0 ps :=
  plainRuns_layout h fun byte _ => covered_layout ps 0 byte

/-- Where both scans end well, what they find are the markers of a layout. -/
theorem exists_layout_of_scans {s : List Char} {columns values : List Token}
    (hc : scanColumns 0 s = .ok columns) (hv : scanValues 0 false s = .ok values) :
    ∃ ps, IsLayout ps ∧ s = written ps ∧ columns = columnsAt 0 ps ∧ values = valuesAt 0 ps := by
  obtain ⟨ps, hps, rfl⟩ := exists_layout hv
  rw [scanColumns_written hps] at hc
  rw [scanValues_written hps] at hv
  cases hc
  cases hv
  exact ⟨ps, hps, rfl, rfl, rfl⟩

end RowFilter.Query
