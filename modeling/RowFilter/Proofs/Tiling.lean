import RowFilter.Proofs.RoundTrip

/-!
# RowFilter — accepted queries are read whole

The scans for columns and for literals do not know of each other, so a literal may hold column
references that come out as tokens of their own, inside the bytes of the literal. Such a token follows
the token of its literal, where the reader wants a conjunction; so a query that is accepted has none,
and its tokens tile it.

Main results:

* `tiles_of_run` — the tokens that the reader goes through tile the layout they come from.
* `parse_tiles` — nothing of an accepted query is dropped.
-/

namespace RowFilter.Query

open Text (isBlank width)

/-! ## A column never follows a literal -/

namespace Reading

variable {r r' : Reading}

theorem run_cons_eq_ok {t : Token} {ts : List Token} (h : r.run (t :: ts) = .ok r') :
    ∃ r₁, r.step t = .ok r₁ ∧ r₁.run ts = .ok r' := by
  rw [run, List.foldlM_cons] at h
  exact bind_eq_ok h

theorem run_append_eq_ok {s t : List Token} (h : r.run (s ++ t) = .ok r') :
    ∃ r₁, r.run s = .ok r₁ ∧ r₁.run t = .ok r' := by
  rw [run_append] at h
  exact bind_eq_ok h

/-- A literal ends an operand. -/
theorem await_of_value {t : Token} (ht : t.kind = .value) (h : r.step t = .ok r') :
    r'.await = .connective := by
  have hnone := not_conjunction ht (by decide)
  unfold step at h
  split at h
  -- where an operand or an operator is awaited a literal is an error, and so it is behind an operand
  · rcases readOperand_eq_ok h with ⟨hopen, _⟩ | ⟨_, hcolumn, _⟩
    · rw [hnone] at hopen
      cases hopen
    · rw [hcolumn.1] at ht
      cases ht
  · obtain ⟨_, hop, _⟩ := readOperator_eq_ok h
    rw [hop.1] at ht
    cases ht
  · obtain ⟨_, rfl⟩ := readValue_eq_ok h
    rfl
  · rcases readConnective_eq_ok h with ⟨hc, _⟩ | ⟨hc, _⟩ | ⟨hc, _⟩
    all_goals
      rw [hnone] at hc
      cases hc

/-- Behind an operand there is no column. -/
theorem step_column_ne_ok {t : Token} (hr : r.await = .connective) (ht : t.kind = .column) :
    r.step t ≠ .ok r' := by
  intro h
  rw [step, hr] at h
  rcases readConnective_eq_ok h with ⟨hc, _⟩ | ⟨hc, _⟩ | ⟨hc, _⟩
  all_goals
    rw [not_conjunction ht (by decide)] at hc
    cases hc

end Reading

/-- The reader would have to go on with the first column inside a literal. -/
theorem columnsIn_eq_nil_of_run {pos : Nat} {literal : List Char} {t : Token} {us : List Token}
    {r r' : Reading} (ht : t.kind = .value)
    (h : r.run (t :: (columnsIn pos literal ++ us)) = .ok r') : columnsIn pos literal = [] := by
  obtain ⟨r₁, hstep, hrest⟩ := Reading.run_cons_eq_ok h
  cases hin : columnsIn pos literal with
  | nil => rfl
  | cons c cs =>
    have hc : c ∈ columnsIn pos literal := by
      rw [hin]
      exact List.mem_cons_self
    rw [hin] at hrest
    obtain ⟨_, hnext, _⟩ := Reading.run_cons_eq_ok hrest
    have hkind := (foundBefore_columnsIn pos literal).column c hc
    exact absurd hnext (Reading.step_column_ne_ok (Reading.await_of_value ht hstep) hkind)

/-! ## Accepted tokens tile the query -/

/-- A marker in front of a tiled text is a token of its own, with no gap before it. -/
theorem Tiles.cons_marker {pos : Nat} {p : Piece} {t : Token} {rest : List Char} {ts : List Token}
    (hwritten : t.written = p.text) (hne : p.text ≠ []) (hstart : t.start = pos)
    (hstop : t.stop = pos + width p.text) (h : Tiles t.stop rest ts) :
    Tiles pos (p.text ++ rest) (t :: ts) := by
  have hgap : p.text ++ rest = [] ++ (t.written ++ rest) := by
    rw [hwritten]
    rfl
  refine .of_eq hgap rfl hstart ?_ ?_ h
  · rw [hwritten]
    exact hne
  · rw [hstop, hstart, hwritten]

theorem written_column (name : List Char) (start stop : Nat) :
    Token.written ⟨.column, String.ofList name, start, stop⟩ = (Piece.column name).text := by
  rw [Token.written, String.toList_ofList]

theorem written_value (literal : List Char) (start stop : Nat) :
    Token.written ⟨.value, String.ofList literal, start, stop⟩ = (Piece.value literal).text := by
  rw [Token.written, String.toList_ofList]

/-- The induction is on the layout; of the reader it is only used that it goes on. -/
theorem tiles_of_run {ps : List Piece} {pos : Nat} {ts : List Token} {r r' : Reading}
    (h : tokensAt pos ps = .ok ts) (hrun : r.run ts = .ok r') : Tiles pos (written ps) ts := by
  induction ps generalizing pos ts r with
  | nil =>
    cases h
    exact .nil rfl
  | cons p ps ih =>
    cases p with
    | run s =>
      -- the words of a run tile it, whatever the reader makes of them
      obtain ⟨us, vs, hus, hvs, rfl⟩ := tokensAt_run_ok h
      obtain ⟨r₁, _, hrest⟩ := Reading.run_append_eq_ok hrun
      exact (wordTokens_tile hus).append (ih hvs hrest)
    | column name =>
      obtain ⟨us, hus, rfl⟩ := map_eq_ok h
      obtain ⟨r₁, _, hrest⟩ := Reading.run_cons_eq_ok hrun
      refine .cons_marker (written_column name _ _) (by simp [Piece.text]) rfl ?_ (ih hus hrest)
      rw [width_column]
      rfl
    | value literal =>
      obtain ⟨us, hus, rfl⟩ := map_eq_ok h
      have hnone := columnsIn_eq_nil_of_run rfl hrun
      obtain ⟨r₁, _, hrest⟩ := Reading.run_cons_eq_ok hrun
      rw [hnone, List.nil_append] at hrest ⊢
      refine .cons_marker (written_value literal _ _) (by simp [Piece.text]) rfl ?_ (ih hus hrest)
      rw [width_value]
      rfl

/-! ## What a tiling says of single tokens and characters -/

/-- A character of two texts is in the first one or in the second. -/
theorem append_eq_append_cons {a b before after : List Char} {c : Char}
    (h : a ++ b = before ++ c :: after) :
    (∃ a', a = before ++ c :: a') ∨ ∃ b', before = a ++ b' ∧ b = b' ++ c :: after := by
  rcases List.append_eq_append_iff.1 h with ⟨d, hd, hb⟩ | ⟨d, hd, hb⟩
  · exact .inr ⟨d, hd, hb⟩
  · cases d with
    | nil => exact .inr ⟨[], by simpa using hd.symm, hb.symm⟩
    | cons x xs =>
      rw [List.cons_append, List.cons.injEq] at hb
      exact .inl ⟨xs, by rw [hd, hb.1]⟩

namespace Tiles

variable {pos : Nat} {s : List Char} {ts : List Token}

/-- Every token is a slice of the text. -/
theorem slice (h : Tiles pos s ts) : ∀ t ∈ ts, ∃ before after, s = before ++ t.written ++ after ∧
    t.start = pos + width before ∧ t.stop = t.start + width t.written := by
  induction h with
  | nil => exact fun t ht => (nomatch ht)
  | @cons _ gap rest t _ _ hstart _ hstop _ ih =>
    intro u hu
    rcases List.mem_cons.1 hu with rfl | hu
    · exact ⟨gap, rest, by rw [List.append_assoc], hstart, hstop⟩
    · obtain ⟨before, after, hs, hus, hue⟩ := ih u hu
      refine ⟨gap ++ (t.written ++ before), after, ?_, ?_, hue⟩
      · rw [hs]
        simp only [List.append_assoc]
      · rw [hus, hstop, hstart]
        simp only [Text.width_append]
        omega

/-- A character that no token covers is blank. -/
theorem blank_of_uncovered (h : Tiles pos s ts) {before after : List Char} {c : Char}
    (hs : s = before ++ c :: after)
    (hno : ∀ t ∈ ts, ¬ (t.start ≤ pos + width before ∧ pos + width before < t.stop)) :
    isBlank c = true := by
  induction h generalizing before with
  | nil hb =>
    rw [hs, List.all_append, List.all_cons] at hb
    simp only [Bool.and_eq_true] at hb
    exact hb.2.1
  | @cons pos gap rest t ts hgap hstart _ hstop _ ih =>
    -- the character stands in the gap, or in the token, or behind it
    rcases append_eq_append_cons hs with ⟨g, rfl⟩ | ⟨b, rfl, hb⟩
    · rw [List.all_append, List.all_cons] at hgap
      simp only [Bool.and_eq_true] at hgap
      exact hgap.2.1
    · rcases append_eq_append_cons hb with ⟨w, hw⟩ | ⟨d, rfl, hd⟩
      · -- the token covers it
        refine absurd ?_ (hno t List.mem_cons_self)
        have := width_pos (s := c :: w) (by simp)
        rw [hstop, hw, Text.width_append, Text.width_append]
        omega
      · refine ih hd fun u hu hcover => hno u (List.mem_cons_of_mem _ hu) ?_
        have hpos : pos + width (gap ++ (t.written ++ d)) = t.stop + width d := by
          rw [hstop, hstart]
          simp only [Text.width_append]
          omega
        rw [hpos]
        exact hcover

end Tiles

/-! ## Accepted queries -/

theorem tokenize_tiles {query : String} {stream : TokenStream} {f : Formula Clause}
    (h : tokenize query = .ok stream) (hf : readTokens stream query.utf8ByteSize = .ok f) :
    Tiles 0 query.toList stream.merged := by
  obtain ⟨ps, _, hq, hts⟩ := tokenize_eq_ok h
  obtain ⟨r, hrun, _⟩ := readTokens_run hf
  rw [hq]
  exact tiles_of_run hts hrun

/-- The tokens account for every character of a query. -/
structure TokenStream.Exhausts (stream : TokenStream) (query : String) : Prop where
  /-- A token covers its written form, which is not empty, between two characters of the query. -/
  slice : ∀ t ∈ stream.merged, t.start < t.stop ∧ t.stop ≤ query.utf8ByteSize ∧
    ∃ before after, query.toList = before ++ t.written ++ after ∧
      t.start = width before ∧ t.stop = width (before ++ t.written)
  ordered : stream.merged.Pairwise fun a b => a.start < b.start ∧ a.stop ≤ b.start
  blank : ∀ before c after, query.toList = before ++ c :: after →
    (∀ t ∈ stream.merged, ¬ (t.start ≤ width before ∧ width before < t.stop)) → isBlank c = true

/-- **Nothing is dropped.** The tokens of an accepted query are slices of it, in order and without
overlaps, and every character outside of them is blank. -/
theorem parse_tiles {query : String} {f : Formula Clause} (h : parse query = .ok f) :
    ∃ stream, tokenize query = .ok stream ∧ stream.Exhausts query := by
  obtain ⟨stream, htok, hread⟩ := bind_eq_ok h
  have htiles := tokenize_tiles htok hread
  refine ⟨stream, htok, ⟨?_, ?_, ?_⟩⟩
  · intro t ht
    obtain ⟨_, hlt, hle⟩ := htiles.within t ht
    obtain ⟨before, after, hq, hstart, hstop⟩ := htiles.slice t ht
    rw [Text.width_toList, Nat.zero_add] at hle
    rw [Nat.zero_add] at hstart
    exact ⟨hlt, hle, before, after, hq, hstart, by rw [hstop, hstart, Text.width_append]⟩
  · refine htiles.ordered.imp_of_mem fun {a b} ha _ hab => ⟨?_, hab⟩
    have := htiles.within a ha
    omega
  · intro before c after hq hno
    exact htiles.blank_of_uncovered hq fun t ht => by simpa using hno t ht

/-- A brace in quotes, an operator of two words and parentheses. -/
theorem parse_tiles_notIn :
    let query := "#\x7ba b\x7d not in \x7b[1, \"\x7d\"]\x7d and ( #\x7bc\x7d null )"
    parse query = .ok (.all [.leaf ⟨"a b", 0, .notInSet, some "[1, \"\x7d\"]"⟩,
        .group (.leaf ⟨"c", 31, .null, none⟩)]) ∧
      ∃ stream, tokenize query = .ok stream ∧ stream.Exhausts query := by
  intro query
  let f : Formula Clause := .all [.leaf ⟨"a b", 0, .notInSet, some "[1, \"\x7d\"]"⟩,
    .group (.leaf ⟨"c", 31, .null, none⟩)]
  have hquery : query = render f := by decide +kernel
  have h : parse query = .ok f := by
    rw [hquery, parse_render_eq (by decide +kernel) (by decide +kernel)]
    rfl
  exact ⟨h, parse_tiles h⟩

end RowFilter.Query
