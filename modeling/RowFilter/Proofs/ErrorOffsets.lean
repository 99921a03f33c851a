import RowFilter.Proofs.CountFaults
import RowFilter.Proofs.SlicedWords
import RowFilter.Proofs.Tiling

/-!
# RowFilter — where an error points

Every part of the reading of a query reports errors at offsets of its own: the scans where a marker opens, the
scan for operators where a word starts, the count at a token, and the reader at the token at hand, at a
parenthesis that is still open, or at the end. All of these are landmarks of the query: its start, its end, the
start of a marker or the start of a word. A landmark is a place between two characters, so no offset leads into
the middle of one or out of the query.

Main results:

* `Landmark.place` — a landmark is a place in the query.
* `landmark_of_merged` — every token starts at a landmark.
* `Reading.errorAt_run`, `Reading.errorAt_finish` — the reader names tokens that it has come to, or the end.
* `errors_point_into_query` — every error of reading a query points to a landmark, and no slice is missing.
-/

namespace RowFilter.Query

open Text (width IsPlace)

/-! ## Markers -/

/-- A column opens between two texts, or a literal: a brace with no hash mark in front of it. -/
def Opens (before after : List Char) : Prop :=
  ['#', openBrace] <+: after ∨ ([openBrace] <+: after ∧ before.getLast? ≠ some '#')

/-- A place behind a marker is a place in the text that starts with its brace. -/
theorem place_behind {pos n : Nat} {body after : List Char} (h : IsPlace (pos + width body + 2) after n) :
    IsPlace pos (openBrace :: (body ++ closeBrace :: after)) n := by
  have hplace : IsPlace pos ((Piece.value body).text ++ after) n := by
    refine .append_left _ ?_
    rw [width_value]
    exact h
  simpa [Piece.text] using hplace

theorem place_scanColumns {pos : Nat} {s : List Char} {found : List Token}
    (h : scanColumns pos s = .ok found) : ∀ t ∈ found, IsPlace pos s t.start := by
  fun_induction scanColumns pos s generalizing found with
  | case1 | case2 =>
    cases h
    exact List.forall_mem_nil _
  | case3 => cases h
  | case4 pos c d body hcolumn name after hcut hlt stop =>
    rename_i ih
    obtain ⟨rest, hrest, rfl⟩ := map_eq_ok h
    obtain ⟨rfl, _⟩ := cutAt_eq_some_iff.1 hcut
    obtain ⟨rfl, rfl⟩ := hcolumn
    refine List.forall_mem_cons.2 ⟨.start _ _, fun t ht => .append_left ['#'] (place_behind ?_)⟩
    have hstop : pos + width ['#'] + width name + 2 = pos + width name + 3 := by
      rw [show width ['#'] = 1 from rfl]
      omega
    rw [hstop]
    exact ih hrest t ht
  | case5 pos c d body hcolumn ih => exact fun t ht => .append_left [c] (ih h t ht)

theorem place_scanValues {pos : Nat} {hash : Bool} {s : List Char} {found : List Token}
    (h : scanValues pos hash s = .ok found) : ∀ t ∈ found, IsPlace pos s t.start := by
  fun_induction scanValues pos hash s generalizing found with
  | case1 =>
    cases h
    exact List.forall_mem_nil _
  | case2 | case4 => cases h
  | case3 pos rest name after hcut hlt ih =>
    obtain ⟨rfl, _⟩ := cutAt_eq_some_iff.1 hcut
    exact fun t ht => place_behind (ih h t ht)
  | case5 pos hash rest hhash literal after hcut hlt stop =>
    rename_i ih
    obtain ⟨more, hmore, rfl⟩ := map_eq_ok h
    obtain rfl := eq_of_cutLiteral hcut
    exact List.forall_mem_cons.2 ⟨.start _ _, fun t ht => place_behind (ih hmore t ht)⟩
  | case6 pos hash c rest hbrace ih => exact fun t ht => .append_left [c] (ih h t ht)

/-- The scan for columns fails at a column that nothing closes. -/
theorem scanColumns_error {pos : Nat} {s : List Char} {e : FilterError}
    (h : scanColumns pos s = .error e) : ∃ before after, s = before ++ '#' :: openBrace :: after ∧
      closeBrace ∉ after ∧ e = .querySyntax (pos + width before) .unterminatedColumn := by
  fun_induction scanColumns pos s with
  | case1 | case2 => cases h
  | case3 pos c d body hcolumn hcut =>
    cases h
    obtain ⟨rfl, rfl⟩ := hcolumn
    exact ⟨[], body, rfl, cutAt_eq_none_iff.1 hcut, rfl⟩
  | case4 pos c d body hcolumn name after hcut hlt stop ih =>
    obtain ⟨rfl, _⟩ := cutAt_eq_some_iff.1 hcut
    obtain ⟨rfl, rfl⟩ := hcolumn
    obtain ⟨before, rest, rfl, hrest, rfl⟩ := ih (map_eq_error_iff.1 h)
    refine ⟨(Piece.column name).text ++ before, rest, by simp [Piece.text], hrest, ?_⟩
    rw [Text.width_append, width_column, Nat.add_assoc, Nat.add_assoc, Nat.add_assoc]
  | case5 pos c d body hcolumn ih =>
    obtain ⟨before, rest, hs, hrest, rfl⟩ := ih h
    exact ⟨c :: before, rest, by rw [hs]; rfl, hrest, by rw [Text.width_cons, Nat.add_assoc]⟩

/-- A step over an opening brace comes to a closing one. -/
theorem LiteralScan.Step.closed {pos : Nat} {hash : Bool} {rest : List Char} {b : LiteralScan}
    (h : Step ⟨pos, hash, openBrace :: rest⟩ b) : closeBrace ∈ rest := by
  cases h with
  | plain hne => exact absurd rfl hne
  | column hcut =>
    obtain ⟨rfl, _⟩ := cutAt_eq_some_iff.1 hcut
    exact List.mem_append_right _ List.mem_cons_self
  | literal hcut =>
    obtain rfl := eq_of_cutLiteral hcut
    exact List.mem_append_right _ List.mem_cons_self

/-- Where the scan for columns ends well, the scan for literals fails at a literal that nothing closes. -/
theorem scanValues_error {s : List Char} {columns : List Token} {e : FilterError}
    (hc : scanColumns 0 s = .ok columns) (h : scanValues 0 false s = .error e) :
    ∃ before after, s = before ++ openBrace :: after ∧ before.getLast? ≠ some '#' ∧
      closeBrace ∉ after ∧ e = .querySyntax (width before) .unterminatedValue := by
  obtain ⟨pos, hash, rest, hreach, hrest, rfl⟩ := LiteralScan.scan_eq_error_iff (a := .start s).1 h
  obtain ⟨before, hs, rfl, hhash⟩ := hreach.place
  refine ⟨before, rest, hs, fun hlast => ?_, hrest, rfl⟩
  -- behind a hash mark stands the brace of a column, which the other scan has found closed
  obtain rfl := hhash.2 hlast
  have hstart : LiteralScan.AtOnePlace columns (.start s) := .here (List.nil_append _).symm hc
  obtain ⟨_, _, _, _, hstep⟩ := (hstart.run hreach).column
  exact hrest hstep.closed

/-! ## Words -/

/-- The scan for operators fails at a word. -/
theorem operatorTokens_error {ws : List Word} {e : FilterError} (h : operatorTokens ws = .error e) :
    ∃ w ∈ ws, ∃ fault, e = .querySyntax w.start fault := by
  fun_induction operatorTokens ws with
  | case1 => cases h
  | case2 w rest hconjunction ih =>
    obtain ⟨u, hu, he⟩ := ih h
    exact ⟨u, List.mem_cons_of_mem _ hu, he⟩
  | case3 | case5 | case7 =>
    cases h
    exact ⟨_, List.mem_cons_self, _, rfl⟩
  | case4 w hconjunction hnot next more hin ih =>
    obtain ⟨u, hu, he⟩ := ih (map_eq_error_iff.1 h)
    exact ⟨u, List.mem_cons_of_mem _ (List.mem_cons_of_mem _ hu), he⟩
  | case6 w rest hconjunction hnot hop ih =>
    obtain ⟨u, hu, he⟩ := ih (map_eq_error_iff.1 h)
    exact ⟨u, List.mem_cons_of_mem _ hu, he⟩

/-- A token of words starts where a word does. -/
theorem start_of_wordTokens {ws : List Word} {ts : List Token} (h : wordTokens ws = .ok ts) :
    ∀ t ∈ ts, ∃ w ∈ ws, t.start = w.start := by
  replace h := wordTokens_eq_ok_iff.1 h
  induction h with
  | nil => exact fun t ht => (nomatch ht)
  | conjunction _ _ ih | operator _ _ _ _ ih =>
    refine List.forall_mem_cons.2 ⟨⟨_, List.mem_cons_self, rfl⟩, fun t ht => ?_⟩
    obtain ⟨w, hw, hstart⟩ := ih t ht
    exact ⟨w, List.mem_cons_of_mem _ hw, hstart⟩
  | notIn _ _ _ _ ih =>
    refine List.forall_mem_cons.2 ⟨⟨_, List.mem_cons_self, rfl⟩, fun t ht => ?_⟩
    obtain ⟨w, hw, hstart⟩ := ih t ht
    exact ⟨w, List.mem_cons_of_mem _ (List.mem_cons_of_mem _ hw), hstart⟩

/-- A token of a layout is a marker, or starts where a word does. -/
theorem start_of_tokensAt {ps : List Piece} {pos : Nat} {ts : List Token}
    (h : tokensAt pos ps = .ok ts) : ∀ t ∈ ts, t ∈ columnsAt pos ps ∨ t ∈ valuesAt pos ps ∨
      ∃ w ∈ (wordsAt pos ps).flatten, t.start = w.start := by
  induction ps generalizing pos ts with
  | nil =>
    cases h
    exact fun t ht => (nomatch ht)
  | cons p ps ih =>
    cases p with
    | run s =>
      obtain ⟨us, vs, hus, hvs, rfl⟩ := tokensAt_run_ok h
      refine List.forall_mem_append.2 ⟨fun t ht => .inr (.inr ?_), fun t ht => ?_⟩
      · obtain ⟨w, hw, hstart⟩ := start_of_wordTokens hus t ht
        exact ⟨w, List.mem_append_left _ hw, hstart⟩
      · refine (ih hvs t ht).imp_right (.imp_right ?_)
        exact fun ⟨w, hw, hstart⟩ => ⟨w, List.mem_append_right _ hw, hstart⟩
    | column name =>
      obtain ⟨us, hus, rfl⟩ := map_eq_ok h
      refine List.forall_mem_cons.2 ⟨.inl List.mem_cons_self, fun t ht => ?_⟩
      exact (ih hus t ht).imp_left (List.mem_cons_of_mem _)
    | value literal =>
      obtain ⟨us, hus, rfl⟩ := map_eq_ok h
      -- the columns inside the literal come first among all columns
      refine List.forall_mem_cons.2 ⟨.inr (.inl List.mem_cons_self), List.forall_mem_append.2
        ⟨fun t ht => .inl (List.mem_append_left _ ht), fun t ht => ?_⟩⟩
      exact (ih hus t ht).imp (List.mem_append_right _) (.imp_left (List.mem_cons_of_mem _))

/-! ## Landmarks -/

/-- What an error may point to: the two ends of the query, and the starts of its markers and words. A marker
that nothing closes is one, too. Words are only there where all markers are closed, since nothing looks for
them before. -/
inductive Landmark (query : String) : Nat → Prop
  | start : Landmark query 0
  | stop : Landmark query query.utf8ByteSize
  | unclosed {before after : List Char} : query.toList = before ++ after → Opens before after →
      closeBrace ∉ after → Landmark query (width before)
  | marker {columns values : List Token} {t : Token} : scanColumns 0 query.toList = .ok columns →
      scanValues 0 false query.toList = .ok values → t ∈ columns ++ values → Landmark query t.start
  | word {columns values : List Token} {w : Word} : scanColumns 0 query.toList = .ok columns →
      scanValues 0 false query.toList = .ok values →
      w ∈ (plainWords (columns ++ values) query.toList).flatten → Landmark query w.start

/-- A landmark is a place in the query. -/
theorem Landmark.place {query : String} {n : Nat} (h : Landmark query n) :
    IsPlace 0 query.toList n := by
  cases h with
  | start => exact .start _ _
  | stop => exact ⟨query.toList, [], (List.append_nil _).symm, by rw [Text.width_toList, Nat.zero_add]⟩
  | unclosed hq => exact ⟨_, _, hq, (Nat.zero_add _).symm⟩
  | marker hc hv ht =>
    rcases List.mem_append.1 ht with ht | ht
    · exact place_scanColumns hc _ ht
    · exact place_scanValues hv _ ht
  | word hc hv hw =>
    obtain ⟨ps, hps, hq, rfl, rfl⟩ := exists_layout_of_scans hc hv
    rw [hq, plainWords_written hps] at hw
    rw [hq]
    exact place_wordsAt ps 0 _ hw

/-- Every token of a query starts at a landmark. -/
theorem landmark_of_merged {query : String} {stream : TokenStream} (h : scanTokens query = .ok stream) :
    ∀ t ∈ stream.merged, Landmark query t.start := by
  obtain ⟨columns, hc, hvalues⟩ := bind_eq_ok h
  obtain ⟨values, hv, _⟩ := bind_eq_ok hvalues
  obtain ⟨ps, hps, hq, rfl, rfl⟩ := exists_layout_of_scans hc hv
  rw [scanTokens_written hps hq] at h
  obtain ⟨ts, hts, rfl⟩ := map_eq_ok h
  rw [merged_ofTokens (tokensAt_ordered hts).2]
  intro t ht
  rcases start_of_tokensAt hts t ht with hmem | hmem | ⟨w, hmem, hstart⟩
  · exact .marker hc hv (List.mem_append_left _ hmem)
  · exact .marker hc hv (List.mem_append_right _ hmem)
  · rw [hstart]
    rw [← plainWords_written hps, ← hq] at hmem
    exact .word hc hv hmem

/-! ## Errors of the scans and of the count -/

/-- An error at one of the places. -/
def ErrorAt (places : Nat → Prop) (e : FilterError) : Prop :=
  ∃ offset fault, e = .querySyntax offset fault ∧ places offset

theorem errorAt_tokenize {query : String} {e : FilterError} (h : tokenize query = .error e) :
    ErrorAt (Landmark query) e := by
  rw [tokenize_eq_scanTokens] at h
  -- the scans fail in their order, and the count fails only when none of them does
  rcases bind_eq_error h with hscan | ⟨stream, hscan, h⟩
  · rcases bind_eq_error hscan with hcolumns | ⟨columns, hcolumns, hscan⟩
    · obtain ⟨before, after, hq, hafter, rfl⟩ := scanColumns_error hcolumns
      rw [Nat.zero_add]
      have hno : closeBrace ∉ '#' :: openBrace :: after :=
        List.not_mem_cons_of_ne_of_not_mem (by decide)
          (List.not_mem_cons_of_ne_of_not_mem (by decide) hafter)
      exact ⟨_, _, rfl, .unclosed hq (.inl ⟨after, rfl⟩) hno⟩
    rcases bind_eq_error hscan with hvalues | ⟨values, hvalues, hscan⟩
    · obtain ⟨before, after, hq, hlast, hafter, rfl⟩ := scanValues_error hcolumns hvalues
      have hno : closeBrace ∉ openBrace :: after :=
        List.not_mem_cons_of_ne_of_not_mem (by decide) hafter
      exact ⟨_, _, rfl, .unclosed hq (.inr ⟨⟨after, rfl⟩, hlast⟩) hno⟩
    rcases bind_eq_error hscan with hoperators | ⟨operators, _, hscan⟩
    · obtain ⟨run, hrun, hfail⟩ := exists_of_mapM_eq_error hoperators
      obtain ⟨w, hw, fault, rfl⟩ := operatorTokens_error hfail
      exact ⟨_, _, rfl, .word hcolumns hvalues (List.mem_flatten_of_mem hrun hw)⟩
    · cases hscan
  · rcases bind_eq_error h with hcounts | ⟨_, _, h⟩
    · obtain ⟨_, l, t, hexcess, rfl⟩ := exists_isExcess hscan hcounts
      exact ⟨_, _, rfl, landmark_of_merged hscan t hexcess.mem⟩
    · cases h

/-! ## Errors of the reader -/

namespace Reading

variable {r r' : Reading} {t : Token} {e : FilterError} {places : Nat → Prop}

/-- The parentheses that are open stand at some of the places. -/
def OpenedAt (places : Nat → Prop) (r : Reading) : Prop := ∀ p ∈ r.opened, places p.1

theorem OpenedAt.step (hr : r.OpenedAt places) (ht : places t.start) (h : r.step t = .ok r') :
    r'.OpenedAt places := by
  unfold Reading.step at h
  -- only an opening parenthesis adds a place, and that is the start of its token
  split at h
  · rcases readOperand_eq_ok h with ⟨_, _, rfl⟩ | ⟨_, _, rfl⟩
    · exact List.forall_mem_cons.2 ⟨ht, hr⟩
    · exact hr
  · obtain ⟨_, _, ⟨_, rfl⟩ | ⟨_, rfl⟩⟩ := readOperator_eq_ok h
    · exact hr
    · exact hr
  · obtain ⟨_, rfl⟩ := readValue_eq_ok h
    exact hr
  · rcases readConnective_eq_ok h with ⟨_, rfl⟩ | ⟨_, rfl⟩ | ⟨_, pos, outer, opened, heq, rfl⟩
    · exact hr
    · exact hr
    · rw [OpenedAt, heq] at hr
      exact (List.forall_mem_cons.1 hr).2

theorem OpenedAt.run {ts : List Token} (hr : r.OpenedAt places) (hts : ∀ t ∈ ts, places t.start)
    (h : r.run ts = .ok r') : r'.OpenedAt places := by
  induction ts generalizing r with
  | nil =>
    cases h
    exact hr
  | cons t ts ih =>
    obtain ⟨ht, hts⟩ := List.forall_mem_cons.1 hts
    obtain ⟨r₁, hstep, hrun⟩ := run_cons_eq_ok h
    exact ih (hr.step ht hstep) hts hrun

/-- The reader blames the byte it is at, or a parenthesis that is open. -/
theorem OpenedAt.places_of_blamed (hr : r.OpenedAt places) {here offset : Nat} (hhere : places here)
    (h : offset = here ∨ offset ∈ r.opened.map Prod.fst) : places offset := by
  rcases h with rfl | hopened
  · exact hhere
  · obtain ⟨p, hp, rfl⟩ := List.mem_map.1 hopened
    exact hr p hp

theorem errorAt_step (hr : r.OpenedAt places) (ht : places t.start) (h : r.step t = .error e) :
    ErrorAt places e := by
  obtain ⟨offset, fault, rfl, hoffset⟩ := step_error h
  exact ⟨offset, fault, rfl, hr.places_of_blamed ht hoffset⟩

/-- The reader stops at a token it has come to, or blames a parenthesis that it has read. -/
theorem errorAt_run {ts : List Token} (hr : r.OpenedAt places) (hts : ∀ t ∈ ts, places t.start)
    (h : r.run ts = .error e) : ErrorAt places e := by
  induction ts generalizing r with
  | nil => cases h
  | cons t ts ih =>
    obtain ⟨ht, hts⟩ := List.forall_mem_cons.1 hts
    rw [Reading.run, List.foldlM_cons] at h
    rcases bind_eq_error h with hstep | ⟨r₁, hstep, hrun⟩
    · exact errorAt_step hr ht hstep
    · exact ih (hr.step ht hstep) hts hrun

theorem errorAt_finish {stop : Nat} (hr : r.OpenedAt places) (hstop : places stop)
    (h : r.finish stop = .error e) : ErrorAt places e := by
  obtain ⟨offset, fault, rfl, hoffset⟩ := finish_error h
  exact ⟨offset, fault, rfl, hr.places_of_blamed hstop hoffset⟩

end Reading

theorem errorAt_readTokens {s : TokenStream} {stop : Nat} {e : FilterError} {places : Nat → Prop}
    (hstart : places 0) (hts : ∀ t ∈ s.merged, places t.start) (hstop : places stop)
    (h : readTokens s stop = .error e) : ErrorAt places e := by
  unfold readTokens at h
  split at h
  · cases h
    exact ⟨_, _, rfl, hstart⟩
  · -- no parenthesis is open at the start
    have hopened : Reading.start.OpenedAt places := fun p hp => (nomatch hp)
    rcases bind_eq_error h with hrun | ⟨r, hrun, hfinish⟩
    · exact Reading.errorAt_run hopened hts hrun
    · exact Reading.errorAt_finish (hopened.run hts hrun) hstop hfinish

theorem scanTokens_of_tokenize {query : String} {stream : TokenStream} (h : tokenize query = .ok stream) :
    scanTokens query = .ok stream := by
  rw [tokenize_eq_scanTokens] at h
  obtain ⟨stream', hscan, h⟩ := bind_eq_ok h
  obtain ⟨_, _, h⟩ := bind_eq_ok h
  cases h
  exact hscan

/-- Every error of reading a query points to a landmark of it. -/
theorem errorAt_parse {query : String} {e : FilterError} (h : parse query = .error e) :
    ErrorAt (Landmark query) e := by
  rcases bind_eq_error h with htokenize | ⟨stream, htokenize, hread⟩
  · exact errorAt_tokenize htokenize
  · exact errorAt_readTokens .start (landmark_of_merged (scanTokens_of_tokenize htokenize)) .stop hread

/-- **Errors point into the query.** Whatever characters a query consists of, an error of reading it is a syntax
error at one of its landmarks, between two characters and not behind the end. No slice that is taken on the
way is out of range or inside a character: taken by slices, the scans have the same outcome. -/
theorem errors_point_into_query (query : String) :
    (∀ e, parse query = .error e → ∃ offset fault, e = .querySyntax offset fault ∧
      offset ≤ query.utf8ByteSize ∧ String.Pos.Raw.IsValid query ⟨offset⟩ ∧ Landmark query offset) ∧
    (tokenizeBySlices query).run = some (tokenize query) := by
  refine ⟨fun e h => ?_, tokenizeBySlices_eq query⟩
  obtain ⟨offset, fault, rfl, hmark⟩ := errorAt_parse h
  have hvalid := hmark.place.isValid
  exact ⟨offset, fault, rfl, hvalid.le_rawEndPos, hvalid, hmark⟩

/-- A column without an operator, behind characters of two bytes. -/
theorem errors_point_into_query_two_bytes :
    let query := "#\x7bé\x7d = \x7b'ü'\x7d and #\x7bß\x7d"
    let e : FilterError := .querySyntax 19 (.countMismatch 2 1)
    parse query = .error e ∧ (∃ offset fault, e = .querySyntax offset fault ∧
      offset ≤ query.utf8ByteSize ∧ String.Pos.Raw.IsValid query ⟨offset⟩ ∧ Landmark query offset) ∧
      (tokenizeBySlices query).run = some (.error e) := by
  intro query e
  let ps : List Piece := [.column ['é'], .run " = ".toList, .value "'ü'".toList, .run " and ".toList,
    .column ['ß']]
  have hps : IsLayout ps := by decide +kernel
  have hts : tokensAt 0 ps = .ok [⟨.column, "é", 0, 5⟩, ⟨.operator, "=", 6, 7⟩, ⟨.value, "'ü'", 8, 14⟩,
      ⟨.conjunction, "and", 15, 18⟩, ⟨.column, "ß", 19, 24⟩] := by decide +kernel
  have hscan := (scanTokens_eq_ok hps (by decide +kernel : query.toList = written ps) hts).1
  have htokenize : tokenize query = .error e := by
    rw [tokenize_eq_scanTokens, hscan]
    rfl
  have hparse : parse query = .error e := by
    rw [parse, htokenize]
    rfl
  obtain ⟨hpoints, hslices⟩ := errors_point_into_query query
  exact ⟨hparse, hpoints e hparse, by rw [hslices, htokenize]⟩

end RowFilter.Query
