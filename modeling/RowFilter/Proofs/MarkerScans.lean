import Mathlib.Data.List.Pairwise
import Mathlib.Logic.Relation
import RowFilter.Proofs.Layout

/-!
# RowFilter — the two scans for markers

Columns and literals are found by two scans that go over the same query and do not know of each other. The
scan for columns goes on behind the first closing brace, and the scan for literals behind the brace that
ends the literal, which may be a later one. Still they never drift apart. The scan for literals is taken
into steps here, each over one character, one column or one literal, and wherever it comes to, the scan
for columns from there finds the columns that are still to be found. A hash mark is the one place where the
scan for literals is ahead: it has read the mark when the scan for columns has not.

Main results:

* `LiteralScan.scan_eq_error_iff` — the scan for literals fails just at a brace that nothing closes.
* `LiteralScan.Reaches.place` — a state of the scan is a place in the query.
* `LiteralScan.AtOnePlace.step`, `LiteralScan.AtOnePlace.run` — the two scans stay at one place.
* `nested_layout` — a column lies inside one literal or away from all of them.
* `marker_scans_in_step` — what the two scans have to do with each other.
-/

namespace RowFilter.Query

open Relation (ReflTransGen)
open Text (width)

/-! ## Where a marker ends -/

theorem cutAt_eq_none_iff {s : List Char} : cutAt s = none ↔ closeBrace ∉ s := by
  constructor
  · intro h hmem
    obtain ⟨name, after, rfl, hname⟩ := List.eq_append_cons_of_mem hmem
    rw [cutAt_append hname] at h
    cases h
  · intro h
    cases hcut : cutAt s with
    | none => rfl
    | some p =>
      obtain ⟨hs, _⟩ := cutAt_eq_some_iff.1 (show cutAt s = some (p.1, p.2) from hcut)
      exact absurd (by rw [hs]; simp) h

/-- Whatever the quotes are, a literal ends somewhere if there is a closing brace at all. -/
theorem cutLiteral_eq_none_iff {s : List Char} : cutLiteral s = none ↔ closeBrace ∉ s := by
  constructor
  · intro h
    rw [cutLiteral, Option.or_eq_none_iff] at h
    exact cutAt_eq_none_iff.1 h.2
  · intro h
    cases hcut : cutLiteral s with
    | none => rfl
    | some p => exact absurd (by rw [eq_of_cutLiteral (show _ = some (p.1, p.2) from hcut)]; simp) h

/-! ## Tokens of one scan -/

/-- Tokens that go forward from a byte: none is empty, and none starts before the last one has ended. -/
structure Forward (pos : Nat) (ts : List Token) : Prop where
  within : ∀ t ∈ ts, pos ≤ t.start ∧ t.start < t.stop
  apart : ts.Pairwise fun a b => a.stop ≤ b.start

namespace Forward

variable {pos pos' : Nat} {t : Token} {ts : List Token}

theorem nil (pos : Nat) : Forward pos [] := ⟨fun _ ht => (nomatch ht), .nil⟩

theorem mono (h : Forward pos' ts) (hle : pos ≤ pos') : Forward pos ts where
  within t ht := ⟨Nat.le_trans hle (h.within t ht).1, (h.within t ht).2⟩
  apart := h.apart

theorem cons (hstart : pos ≤ t.start) (hstop : t.start < t.stop) (h : Forward t.stop ts) :
    Forward pos (t :: ts) where
  within u hu := by
    rcases List.mem_cons.1 hu with rfl | hu
    · exact ⟨hstart, hstop⟩
    · have := h.within u hu
      omega
  apart := List.pairwise_cons.2 ⟨fun u hu => (h.within u hu).1, h.apart⟩

end Forward

theorem forward_scanColumns {pos : Nat} {s : List Char} {found : List Token}
    (h : scanColumns pos s = .ok found) : Forward pos found := by
  -- a column is found at the byte of the scan, and the next byte is the one where the column stops
  fun_induction scanColumns pos s generalizing found with
  | case1 | case2 =>
    cases h
    exact .nil _
  | case3 => cases h
  | case4 pos c d body hcolumn name after hcut hlt stop =>
    rename_i ih
    obtain ⟨rest, hrest, rfl⟩ := map_eq_ok h
    exact .cons (Nat.le_refl _) (show pos < pos + width name + 3 by omega) (ih hrest)
  | case5 pos c d body hcolumn ih => exact (ih h).mono (Nat.le_add_right _ _)

theorem forward_scanValues {pos : Nat} {hash : Bool} {s : List Char} {found : List Token}
    (h : scanValues pos hash s = .ok found) : Forward pos found := by
  fun_induction scanValues pos hash s generalizing found with
  | case1 =>
    cases h
    exact .nil _
  | case2 | case4 => cases h
  | case3 pos rest name after hcut hlt ih => exact (ih h).mono (by omega)
  | case5 pos hash rest hhash literal after hcut hlt stop =>
    rename_i ih
    obtain ⟨more, hmore, rfl⟩ := map_eq_ok h
    exact .cons (Nat.le_refl _) (show pos < pos + width literal + 2 by omega) (ih hmore)
  | case6 pos hash c rest hbrace ih => exact (ih h).mono (Nat.le_add_right _ _)

/-! ## The course of the scan for literals -/

/-- Where the scan for literals is: at a byte, behind a hash mark or not, in front of a text. -/
structure LiteralScan where
  pos : Nat
  hash : Bool
  rest : List Char

namespace LiteralScan

/-- In front of a whole query. -/
def start (s : List Char) : LiteralScan := ⟨0, false, s⟩

/-- What the scan finds from here on. -/
def scan (a : LiteralScan) : Except FilterError (List Token) := scanValues a.pos a.hash a.rest

/-- The scan goes on behind a character that opens nothing, behind a column or behind a literal. -/
inductive Step : LiteralScan → LiteralScan → Prop
  | plain {pos : Nat} {hash : Bool} {c : Char} {rest : List Char} : c ≠ openBrace →
      Step ⟨pos, hash, c :: rest⟩ ⟨pos + c.utf8Size, c = '#', rest⟩
  | column {pos : Nat} {rest name after : List Char} : cutAt rest = some (name, after) →
      Step ⟨pos, true, openBrace :: rest⟩ ⟨pos + width name + 2, false, after⟩
  | literal {pos : Nat} {rest literal after : List Char} : cutLiteral rest = some (literal, after) →
      Step ⟨pos, false, openBrace :: rest⟩ ⟨pos + width literal + 2, false, after⟩

/-- The scan comes from one state to another. -/
def Reaches (a b : LiteralScan) : Prop := ReflTransGen Step a b

variable {a b : LiteralScan}

/-- A step is what the scan does: the rest is found from the next state. -/
theorem Step.scan_eq (h : Step a b) : ∃ found, a.scan = b.scan.map (found ++ ·) := by
  cases h with
  | plain hc =>
    refine ⟨[], ?_⟩
    rw [scan, scan, scanValues, if_neg hc, FoundBefore.map_nil]
  | column hcut =>
    obtain ⟨rfl, hname⟩ := cutAt_eq_some_iff.1 hcut
    exact ⟨[], by rw [scan, scan, FoundBefore.map_nil, scanValues_brace hname]⟩
  | @literal pos rest literal after hcut =>
    obtain rfl := eq_of_cutLiteral hcut
    exact ⟨[⟨.value, String.ofList literal, pos, pos + width literal + 2⟩], scanValues_value hcut pos⟩

/-- A brace that nothing closes ends the scan. -/
theorem scan_unclosed {pos : Nat} {rest : List Char} (hash : Bool) (h : closeBrace ∉ rest) :
    scan ⟨pos, hash, openBrace :: rest⟩ = .error (.querySyntax pos .unterminatedValue) := by
  rw [scan, scanValues, if_pos rfl]
  cases hash with
  | true =>
    rw [if_pos rfl]
    split
    · rfl
    · rename_i hcut
      rw [cutAt_eq_none_iff.2 h] at hcut
      cases hcut
  | false =>
    rw [if_neg Bool.false_ne_true]
    split
    · rfl
    · rename_i hcut
      rw [cutLiteral_eq_none_iff.2 h] at hcut
      cases hcut

/-- The scan fails just if it comes to an opening brace with no closing brace anywhere behind it. -/
theorem scan_eq_error_iff {e : FilterError} : a.scan = .error e ↔ ∃ pos hash rest,
    Reaches a ⟨pos, hash, openBrace :: rest⟩ ∧ closeBrace ∉ rest ∧
      e = .querySyntax pos .unterminatedValue := by
  constructor
  · obtain ⟨pos, hash, s⟩ := a
    intro h
    rw [scan] at h
    dsimp only at h
    -- a case of the scan either fails at its own brace or is a step in front of the failure
    fun_induction scanValues pos hash s with
    | case1 => cases h
    | case2 pos rest hcut =>
      cases h
      exact ⟨pos, true, rest, .refl, cutAt_eq_none_iff.1 hcut, rfl⟩
    | case3 pos rest name after hcut hlt ih =>
      obtain ⟨p, g, r, hreach, hend⟩ := ih h
      exact ⟨p, g, r, .head (.column hcut) hreach, hend⟩
    | case4 pos hash rest hhash hcut =>
      cases h
      exact ⟨pos, hash, rest, .refl, cutLiteral_eq_none_iff.1 hcut, rfl⟩
    | case5 pos hash rest hhash literal after hcut hlt stop ih =>
      obtain rfl := eq_false_of_ne_true hhash
      obtain ⟨p, g, r, hreach, hend⟩ := ih (map_eq_error_iff.1 h)
      exact ⟨p, g, r, .head (.literal hcut) hreach, hend⟩
    | case6 pos hash c rest hbrace ih =>
      obtain ⟨p, g, r, hreach, hend⟩ := ih h
      exact ⟨p, g, r, .head (.plain hbrace) hreach, hend⟩
  · rintro ⟨pos, hash, rest, hreach, hrest, rfl⟩
    -- backwards from the brace: the scan fails if it fails behind one of its steps
    induction hreach using ReflTransGen.head_induction_on with
    | refl => exact scan_unclosed hash hrest
    | head hstep _ ih =>
      obtain ⟨found, hscan⟩ := hstep.scan_eq
      rw [hscan, ih]
      rfl

/-! ### Places -/

/-- A state is a place in a query: at the byte where the rest starts, and behind a hash mark if the text
in front of it ends in one. -/
def IsPlaceIn (a : LiteralScan) (s : List Char) : Prop :=
  ∃ before, s = before ++ a.rest ∧ a.pos = width before ∧ (a.hash = true ↔ before.getLast? = some '#')

/-- Behind the closing brace of a marker there is no hash mark. -/
theorem IsPlaceIn.behind {s body after : List Char} {pos : Nat} {hash : Bool}
    (h : IsPlaceIn ⟨pos, hash, openBrace :: (body ++ closeBrace :: after)⟩ s) :
    IsPlaceIn ⟨pos + width body + 2, false, after⟩ s := by
  obtain ⟨before, hs, hpos, _⟩ := h
  dsimp only at hs hpos
  refine ⟨before ++ openBrace :: (body ++ [closeBrace]), by simp [hs], ?_, ?_⟩
  · have hbody := width_value body
    rw [Piece.text] at hbody
    rw [Text.width_append, hbody, ← hpos, Nat.add_assoc]
  · have hlast : some closeBrace ≠ some '#' := by decide
    rw [← List.cons_append, ← List.append_assoc, List.getLast?_concat]
    simp only [hlast, Bool.false_eq_true]

theorem IsPlaceIn.step {s : List Char} (h : a.IsPlaceIn s) (hstep : Step a b) : b.IsPlaceIn s := by
  cases hstep with
  | @plain pos hash c rest hc =>
    obtain ⟨before, hs, hpos, _⟩ := h
    refine ⟨before ++ [c], by simp [hs], ?_, by simp⟩
    rw [Text.width_append, Text.width_cons, Text.width_nil, ← hpos, Nat.add_zero]
  | column hcut =>
    obtain ⟨rfl, _⟩ := cutAt_eq_some_iff.1 hcut
    exact h.behind
  | literal hcut =>
    obtain rfl := eq_of_cutLiteral hcut
    exact h.behind

theorem Reaches.place {s : List Char} (h : Reaches (start s) a) : a.IsPlaceIn s := by
  induction h with
  | refl => exact ⟨[], rfl, rfl, by simp [start]⟩
  | tail _ hstep ih => exact ih.step hstep

/-! ### The scan for columns beside it -/

/-- The invariant: from the place of the state, or from the hash mark in front of it, the scan for columns
finds the last ones of all columns. -/
inductive AtOnePlace (columns : List Token) : LiteralScan → Prop
  | here {pos : Nat} {rest : List Char} {found ahead : List Token} : columns = found ++ ahead →
      scanColumns pos rest = .ok ahead → AtOnePlace columns ⟨pos, false, rest⟩
  | behindHash {pos : Nat} {rest : List Char} {found ahead : List Token} : columns = found ++ ahead →
      scanColumns pos ('#' :: rest) = .ok ahead → AtOnePlace columns ⟨pos + 1, true, rest⟩

namespace AtOnePlace

variable {columns : List Token}

theorem plain {pos : Nat} {c : Char} {rest : List Char} {found ahead : List Token}
    (hc : c ≠ openBrace) (hcolumns : columns = found ++ ahead)
    (h : scanColumns pos (c :: rest) = .ok ahead) :
    AtOnePlace columns ⟨pos + c.utf8Size, c = '#', rest⟩ := by
  by_cases hhash : c = '#'
  · subst hhash
    rw [utf8Size_hash, decide_eq_true rfl]
    exact .behindHash hcolumns h
  · rw [decide_eq_false hhash]
    rw [scanColumns_plain fun hh => absurd hh hhash] at h
    exact .here hcolumns h

theorem step (h : AtOnePlace columns a) (hstep : Step a b) : AtOnePlace columns b := by
  cases hstep with
  | plain hc =>
    cases h with
    | here hcolumns hscan => exact plain hc hcolumns hscan
    | behindHash hcolumns hscan =>
      -- the mark in front opens no column, so the other scan has gone over it as well
      have hhead : ∀ c rest, c ≠ openBrace → (c :: rest).head? ≠ some openBrace := by simp
      rw [scanColumns_plain fun _ => hhead _ _ hc, utf8Size_hash] at hscan
      exact plain hc hcolumns hscan
  | @column _ rest name after hcut =>
    cases h with
    | @behindHash pos _ found ahead hcolumns hscan =>
      -- both scans look for the first closing brace from here
      obtain ⟨rfl, hname⟩ := cutAt_eq_some_iff.1 hcut
      rw [scanColumns_column hname] at hscan
      obtain ⟨more, hmore, rfl⟩ := map_eq_ok hscan
      have hstop : pos + 1 + width name + 2 = pos + width name + 3 := by omega
      rw [hstop]
      exact .here (by rw [hcolumns, List.append_cons]) hmore
  | @literal pos rest literal after hcut =>
    cases h with
    | @here _ _ found ahead hcolumns hscan =>
      obtain rfl := eq_of_cutLiteral hcut
      -- the columns inside the literal end at its closing brace at the latest
      rw [scanColumns_plain (fun hh => absurd hh (by decide)), utf8Size_openBrace,
        (foundBefore_columnsIn _ literal).scan] at hscan
      obtain ⟨more, hmore, rfl⟩ := map_eq_ok hscan
      have hstop : pos + 1 + width literal + 1 = pos + width literal + 2 := by omega
      rw [hstop] at hmore
      exact .here (by rw [hcolumns, List.append_assoc]) hmore

theorem run (h : AtOnePlace columns a) (hreach : Reaches a b) : AtOnePlace columns b := by
  induction hreach with
  | refl => exact h
  | tail _ hstep ih => exact ih.step hstep

/-- A brace behind a hash mark is that of a column, and both scans go on behind it. -/
theorem column {pos : Nat} {rest : List Char}
    (h : AtOnePlace columns ⟨pos, true, openBrace :: rest⟩) :
    ∃ c ∈ columns, c.start + 1 = pos ∧
      ∃ after, Step ⟨pos, true, openBrace :: rest⟩ ⟨c.stop, false, after⟩ := by
  cases h with
  | @behindHash pos _ found ahead hcolumns hscan =>
    cases hcut : cutAt rest with
    | none =>
      rw [scanColumns, if_pos ⟨rfl, rfl⟩] at hscan
      split at hscan
      · cases hscan
      · rename_i hcut'
        rw [hcut] at hcut'
        cases hcut'
    | some p =>
      obtain ⟨name, after⟩ := p
      obtain ⟨rfl, hname⟩ := cutAt_eq_some_iff.1 hcut
      rw [scanColumns_column hname] at hscan
      obtain ⟨more, _, rfl⟩ := map_eq_ok hscan
      refine ⟨⟨.column, String.ofList name, pos, pos + width name + 3⟩, by simp [hcolumns], rfl, after,
        ?_⟩
      have hstop : pos + width name + 3 = pos + 1 + width name + 2 := by omega
      show Step _ ⟨pos + width name + 3, false, after⟩
      rw [hstop]
      exact .column hcut

end AtOnePlace

end LiteralScan

/-! ## Columns and literals -/

/-- Two tokens with no byte in common. -/
def Token.Apart (a b : Token) : Prop := a.stop ≤ b.start ∨ b.stop ≤ a.start

instance : Std.Symm Token.Apart := ⟨fun _ _ => Or.symm⟩

/-- A token behind the opening brace of a literal that ends where the literal does, or before. -/
def Token.Inside (a v : Token) : Prop := v.start < a.start ∧ a.stop ≤ v.stop

theorem Token.Inside.apart {c v w : Token} (h : c.Inside v) (hvw : v.Apart w) : c.Apart w := by
  rcases hvw with hlt | hlt
  · exact .inl (Nat.le_trans h.2 hlt)
  · exact .inr (Nat.le_trans hlt (Nat.le_of_lt h.1))

/-- Away from the literals, or inside one of them. -/
def Token.Nested (c : Token) (values : List Token) : Prop :=
  (∀ v ∈ values, c.Apart v) ∨ ∃ v ∈ values, c.Inside v

theorem Token.Nested.cons {c v : Token} {values : List Token} (h : c.Nested values)
    (hv : c.Apart v) : c.Nested (v :: values) := by
  rcases h with h | ⟨w, hw, hinside⟩
  · exact .inl (List.forall_mem_cons.2 ⟨hv, h⟩)
  · exact .inr ⟨w, List.mem_cons_of_mem _ hw, hinside⟩

/-- In a layout the columns inside a literal lie in its bytes, and the other ones lie between markers. -/
theorem nested_layout {ps : List Piece} (h : IsLayout ps) (pos : Nat) :
    ∀ c ∈ columnsAt pos ps, c.Nested (valuesAt pos ps) := by
  induction ps generalizing pos with
  | nil => exact fun c hc => (nomatch hc)
  | cons p ps ih =>
    cases p with
    | run s => exact ih h.2.2.2.2 _
    | column name =>
      refine List.forall_mem_cons.2 ⟨.inl fun v hv => .inl ?_, ih h.2 _⟩
      exact ((forward_scanValues (scanValues_written h.2 _)).within v hv).1
    | value literal =>
      rw [columnsAt, valuesAt]
      refine List.forall_mem_append.2 ⟨fun c hc => ?_, fun c hc => ?_⟩
      · have hin := (foundBefore_columnsIn (pos + 1) literal).within c hc
        refine .inr ⟨_, List.mem_cons_self, ?_, ?_⟩
        · show pos < c.start
          omega
        · show c.stop ≤ pos + width literal + 2
          omega
      · have hbehind := ((forward_scanColumns (scanColumns_written h.2 _)).within c hc).1
        exact (ih h.2 _ c hc).cons (.inr hbehind)

/-- Columns and literals that were found side by side. -/
structure FoundInStep (columns values : List Token) : Prop where
  nonempty : ∀ t ∈ columns ++ values, t.start < t.stop
  columns_apart : columns.Pairwise Token.Apart
  values_apart : values.Pairwise Token.Apart
  /-- A column has no byte in common with a literal, or it lies inside a single one. -/
  nested : ∀ c ∈ columns, (∀ v ∈ values, c.Apart v) ∨
    ∃ v ∈ values, c.Inside v ∧ ∀ w ∈ values, w ≠ v → c.Apart w

theorem foundInStep {s : List Char} {columns values : List Token} (hc : scanColumns 0 s = .ok columns)
    (hv : scanValues 0 false s = .ok values) : FoundInStep columns values := by
  have hcolumns := forward_scanColumns hc
  have hvalues := forward_scanValues hv
  have hapart : values.Pairwise Token.Apart := hvalues.apart.imp .inl
  refine ⟨?_, hcolumns.apart.imp .inl, hapart, fun c hmem => ?_⟩
  · exact List.forall_mem_append.2
      ⟨fun t ht => (hcolumns.within t ht).2, fun t ht => (hvalues.within t ht).2⟩
  · obtain ⟨ps, hps, rfl, rfl, rfl⟩ := exists_layout_of_scans hc hv
    refine (nested_layout hps 0 c hmem).imp_right fun ⟨v, hmemv, hinside⟩ => ?_
    -- what lies inside one literal lies away from all others, since they lie apart
    refine ⟨v, hmemv, hinside, fun w hw hne => hinside.apart ?_⟩
    exact hapart.forall hmemv hw (Ne.symm hne)

/-- **The scans for markers.** What the two scans find of one text lies side by side or one inside the
other. The scan for literals only comes to places of the text. Where it takes a brace for part of a column,
the scan for columns, if it succeeds at all, has found that column, and the scan for literals goes on where
that column ends. It fails just if it comes to a brace that nothing closes. -/
theorem marker_scans_in_step (s : List Char) :
    (∀ columns values, scanColumns 0 s = .ok columns → scanValues 0 false s = .ok values →
      FoundInStep columns values) ∧
    (∀ a, LiteralScan.Reaches (.start s) a → a.IsPlaceIn s) ∧
    (∀ columns, scanColumns 0 s = .ok columns → ∀ pos rest,
      LiteralScan.Reaches (.start s) ⟨pos, true, openBrace :: rest⟩ →
        ∃ c ∈ columns, c.start + 1 = pos ∧
          ∃ after, LiteralScan.Step ⟨pos, true, openBrace :: rest⟩ ⟨c.stop, false, after⟩) ∧
    (∀ e, scanValues 0 false s = .error e ↔ ∃ pos hash rest,
      LiteralScan.Reaches (.start s) ⟨pos, hash, openBrace :: rest⟩ ∧ closeBrace ∉ rest ∧
        e = .querySyntax pos .unterminatedValue) := by
  refine ⟨fun columns values => foundInStep, fun a => LiteralScan.Reaches.place, ?_, fun e => ?_⟩
  · intro columns hc pos rest hreach
    have hstart : LiteralScan.AtOnePlace columns (.start s) := .here (List.nil_append _).symm hc
    exact (hstart.run hreach).column
  · exact LiteralScan.scan_eq_error_iff (a := .start s)

/-- A brace in quotes does not end the literal, and the column behind it ends with the literal. -/
theorem marker_scans_in_step_quoted :
    let s := "#\x7ba\x7d \x7b'\x7d', #\x7bb\x7d".toList
    let columns : List Token := [⟨.column, "a", 0, 4⟩, ⟨.column, "b", 11, 15⟩]
    let values : List Token := [⟨.value, "'\x7d', #\x7bb", 5, 15⟩]
    let state : LiteralScan := ⟨1, true, s.drop 1⟩
    scanColumns 0 s = .ok columns ∧ scanValues 0 false s = .ok values ∧ FoundInStep columns values ∧
      LiteralScan.Reaches (.start s) state ∧ state.IsPlaceIn s ∧ ∃ c ∈ columns, c.start + 1 = 1 ∧
        ∃ after, LiteralScan.Step state ⟨c.stop, false, after⟩ := by
  intro s columns values state
  let ps : List Piece := [.column ['a'], .run [' '], .value "'\x7d', #\x7bb".toList]
  have hps : IsLayout ps := by
    refine ⟨by decide, by decide, by decide, fun _ _ => nofun, by decide, ?_, trivial⟩
    decide +kernel
  have hs : s = written ps := by decide +kernel
  have hc : scanColumns 0 s = .ok columns := by
    rw [hs, scanColumns_written hps, show columnsAt 0 ps = columns by decide +kernel]
  have hv : scanValues 0 false s = .ok values := by
    rw [hs, scanValues_written hps, show valuesAt 0 ps = values by decide +kernel]
  have hreach : LiteralScan.Reaches (.start s) state := .single (.plain (by decide))
  obtain ⟨hfound, hplace, hcolumn, _⟩ := marker_scans_in_step s
  exact ⟨hc, hv, hfound columns values hc hv, hreach, hplace state hreach,
    hcolumn columns hc 1 _ hreach⟩

end RowFilter.Query
