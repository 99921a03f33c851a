import RowFilter.Proofs.RetypedLayouts

/-!
# RowFilter — what is read of queries typed again

Tokens that are alike spell the same formula, but for the places of its clauses. So a query that is typed
again outside its markers is read as the same formula. Each of its clauses is where the column reference that
it was read from stands now: behind what was typed in place of everything in front of it.

Main results:

* `spells_alike` — what tokens spell that are alike.
* `retyped_query_same_formula` — what is read of a query that is typed again.
-/

namespace RowFilter.Query

open Text (width)

/-! ## Spellings -/

theorem exists_append_of_alike {us ts ts' : List Token}
    (h : List.Forall₂ Token.Alike us (ts ++ ts')) :
    ∃ vs vs', us = vs ++ vs' ∧ List.Forall₂ Token.Alike vs ts ∧ List.Forall₂ Token.Alike vs' ts' :=
  ⟨_, _, (List.take_append_drop ts.length us).symm, List.forall₂_take_append us ts ts' h,
    List.forall₂_drop_append us ts ts' h⟩

theorem SpellsValue.alike {v : Option String} {ts us : List Token} (h : SpellsValue v ts)
    (hus : List.Forall₂ Token.Alike us ts) : SpellsValue v us := by
  cases v with
  | none =>
    cases h
    exact List.forall₂_nil_right_iff.1 hus
  | some v =>
    obtain ⟨t, rfl, hkind, rfl⟩ := h
    obtain ⟨u, us, hu, hnil, rfl⟩ := List.forall₂_cons_right_iff.1 hus
    obtain rfl := List.forall₂_nil_right_iff.1 hnil
    exact ⟨u, rfl, hu.kind.trans hkind, hu.text (.inr (hu.kind.trans hkind))⟩

theorem SpellsClause.alike {c : Clause} {ts us : List Token} (h : SpellsClause c ts)
    (hus : List.Forall₂ Token.Alike us ts) : ∃ pos, SpellsClause { c with offset := pos } us := by
  obtain ⟨column, operator, value, rfl, hck, hct, _, hok, hop, hv⟩ := h
  obtain ⟨column', us, hcolumn, hrest, rfl⟩ := List.forall₂_cons_right_iff.1 hus
  obtain ⟨operator', value', hoperator, hvalue, rfl⟩ := List.forall₂_cons_right_iff.1 hrest
  have hck' := hcolumn.kind.trans hck
  refine ⟨column'.start, column', operator', value', rfl, hck', ?_, rfl, hoperator.kind.trans hok,
    hoperator.operator?.trans hop, hv.alike hvalue⟩
  rw [hcolumn.text (.inl hck'), hct]

theorem unplaced_all (fs : List (Formula Clause)) : unplaced (.all fs) = .all (fs.map unplaced) :=
  congrArg Formula.all (Formula.mapOf_eq_map _ fs)

theorem unplaced_any (fs : List (Formula Clause)) : unplaced (.any fs) = .any (fs.map unplaced) :=
  congrArg Formula.any (Formula.mapOf_eq_map _ fs)

mutual
/-- Tokens that are alike spell the same formula, with its clauses in other places. -/
theorem spells_alike : ∀ {f : Formula Clause} {ts us : List Token}, Spells f ts →
    List.Forall₂ Token.Alike us ts → ∃ g, Spells g us ∧ unplaced g = unplaced f
  | .leaf c, _, _, h, hus => by
    obtain ⟨pos, hpos⟩ := SpellsClause.alike h hus
    exact ⟨.leaf { c with offset := pos }, hpos, rfl⟩
  | .all fs, _, _, h, hus => by
    obtain ⟨gs, hgs, hsame⟩ := spellsChain_alike h hus
    exact ⟨.all gs, hgs, by rw [unplaced_all, unplaced_all, hsame]⟩
  | .any fs, _, _, h, hus => by
    obtain ⟨gs, hgs, hsame⟩ := spellsChain_alike h hus
    exact ⟨.any gs, hgs, by rw [unplaced_any, unplaced_any, hsame]⟩
  | .group f, _, _, h, hus => by
    obtain ⟨left, inner, right, rfl, hleft, hinner, hright⟩ := h
    obtain ⟨left', us, hl, hrest, rfl⟩ := List.forall₂_cons_right_iff.1 hus
    obtain ⟨inner', us, rfl, hi, hrest⟩ := exists_append_of_alike hrest
    obtain ⟨right', us, hr, hnil, rfl⟩ := List.forall₂_cons_right_iff.1 hrest
    obtain rfl := List.forall₂_nil_right_iff.1 hnil
    obtain ⟨g, hg, hsame⟩ := spells_alike hinner hi
    exact ⟨.group g, ⟨left', inner', right', rfl, hl.conjunction?.trans hleft, hg,
      hr.conjunction?.trans hright⟩, congrArg Formula.group hsame⟩

theorem spellsChain_alike {k : Conjunction} : ∀ {fs : List (Formula Clause)} {ts us : List Token},
    SpellsChain k fs ts → List.Forall₂ Token.Alike us ts →
    ∃ gs, SpellsChain k gs us ∧ gs.map unplaced = fs.map unplaced
  | [], _, _, h, _ => h.elim
  | [f], _, _, h, hus => by
    obtain ⟨g, hg, hsame⟩ := spells_alike (f := f) h hus
    exact ⟨[g], hg, congrArg (fun g => [g]) hsame⟩
  | f :: f' :: fs, _, _, h, hus => by
    obtain ⟨first, between, rest, rfl, hfirst, hbetween, hrest⟩ := h
    obtain ⟨first', us, rfl, hf, hus⟩ := exists_append_of_alike hus
    obtain ⟨between', rest', hb, hr, rfl⟩ := List.forall₂_cons_right_iff.1 hus
    obtain ⟨g, hg, hsame⟩ := spells_alike hfirst hf
    obtain ⟨gs, hgs, hsames⟩ := spellsChain_alike hrest hr
    match gs, hgs with
    | g' :: gs, hgs =>
      exact ⟨g :: g' :: gs, ⟨first', between', rest', rfl, hg, hb.conjunction?.trans hbetween, hgs⟩, by
        rw [List.map_cons, hsame, hsames]
        rfl⟩
end

/-! ## Markers of a query -/

/-- Is a byte of a query inside a column reference or a literal? -/
def inMarkers (query : String) (byte : Nat) : Bool :=
  match tokenize query with
  | .ok stream => covered (stream.columns ++ stream.values) byte
  | .error _ => false

namespace ReadAs

variable {query : String} {f : Formula Clause} {ps : List Piece} {ts : List Token}

theorem inMarkers_eq (h : ReadAs query f ps ts) (byte : Nat) :
    inMarkers query byte = inMarker 0 ps byte := by
  obtain ⟨hcolumns, hvalues, _⟩ := ofKind_tokensAt h.tokens
  rw [inMarkers, h.tokenize_eq, ← covered_layout, ← hcolumns, ← hvalues]
  rfl

/-- The clauses of a formula stand where the column references start. -/
theorem map_offset (h : ReadAs query f ps ts) :
    f.leaves.map Clause.offset = (columnsAt 0 ps).map Token.start := by
  rw [h.spells.records.offsets, (ofKind_tokensAt h.tokens).1]

end ReadAs

/-! ## Queries -/

/-- The same column reference opens at a byte of a query and at a byte of what is typed in its place: in
front of it stands what is typed in place of all that stood in front of it. -/
def OpensAlike (q q' : String) (pos pos' : Nat) : Prop :=
  ∃ before rest before' rest', q.toList = before ++ '#' :: openBrace :: rest ∧
    q'.toList = before' ++ '#' :: openBrace :: rest' ∧
    RetypedOutside (inMarkers q) 0 before before' ∧ pos = width before ∧ pos' = width before'

theorem SameReference.opensAlike {q q' : String} {ps ps' : List Piece} {t t' : Token}
    (hq : q.toList = written ps) (hq' : q'.toList = written ps')
    (hm : ∀ byte, inMarkers q byte = inMarker 0 ps byte) (h : SameReference 0 0 ps ps' t t') :
    OpensAlike q q' t.start t'.start := by
  obtain ⟨front, name, back, front', back', rfl, rfl, hfront, hstart, hstart'⟩ := h
  rw [Nat.zero_add] at hstart hstart'
  refine ⟨written front, name ++ closeBrace :: written back, written front',
    name ++ closeBrace :: written back', ?_, ?_, ?_, hstart, hstart'⟩
  · rw [hq, written_append]
    simp [Piece.text]
  · rw [hq', written_append]
    simp [Piece.text]
  · refine retypedOutside_written hfront fun byte _ hlt => ?_
    rw [hm, inMarker_append, inMarker_of_lt hlt, Bool.or_false]

/-- **Typed again.** A query that is read is read as the same formula when, outside its column references
and literals, letters change their case and blanks stand where there were blanks. Every clause of the new
formula is at the byte where its column reference opens in the new query. -/
theorem retyped_query_same_formula {q q' : String} {f : Formula Clause} (h : parse q = .ok f)
    (hq : RetypedOutside (inMarkers q) 0 q.toList q'.toList) :
    ∃ g, parse q' = .ok g ∧ unplaced g = unplaced f ∧
      List.Forall₂ (fun c d => OpensAlike q q' c.offset d.offset) f.leaves g.leaves := by
  obtain ⟨ps, ts, hread⟩ := exists_readAs_of_parse h
  -- what is typed has a layout with the same markers, and tokens that are alike
  rw [hread.toList_eq] at hq
  obtain ⟨ps', hps', hwritten⟩ := hq.exists_written hread.layout fun byte _ => hread.inMarkers_eq byte
  obtain ⟨ts', htokens, halike⟩ := tokensAt_retyped hps' hread.hashless hread.tokens 0
  obtain ⟨g, hspells, hsame⟩ := spells_alike hread.spells halike
  have hread' : ReadAs q' g ps' ts' :=
    ⟨hread.layout.retyped hps' (closeBrace_notMem_of_tokensAt hread.tokens), hwritten, htokens,
      hread.wellFormed.of_unplaced hsame, hspells⟩
  refine ⟨g, hread'.parse_eq_ok, hsame, ?_⟩
  -- the clauses stand where the column references of the layouts start
  have hreferences : List.Forall₂ (OpensAlike q q') ((columnsAt 0 ps).map Token.start)
      ((columnsAt 0 ps').map Token.start) :=
    List.forall₂_map_left_iff.2 (List.forall₂_map_right_iff.2
      ((columnsAt_retyped hps' hread.hashless 0 0).imp fun _ _ =>
        SameReference.opensAlike hread.toList_eq hwritten hread.inMarkers_eq))
  rw [← hread.map_offset, ← hread'.map_offset] at hreferences
  exact List.forall₂_map_right_iff.1 (List.forall₂_map_left_iff.1 hreferences)

/-- An operator of two words with other blanks between them, behind it a literal whose quotes do not balance,
so that the scan for its end goes on to the end of the query. -/
theorem retyped_query_same_formula_notIn :
    let q := "#\x7ba\x7d not  In \x7b'x\x7d OR #\x7bb\x7d null"
    let q' := "#\x7ba\x7d\u3000NOT\tin\n\x7b'x\x7d  or #\x7bb\x7d\u00a0Null"
    let f : Formula Clause := .any [.leaf ⟨"a", 0, .notInSet, some "'x"⟩, .leaf ⟨"b", 21, .null, none⟩]
    parse q = .ok f ∧ RetypedOutside (inMarkers q) 0 q.toList q'.toList ∧
      ∃ g, parse q' = .ok g ∧ unplaced g = unplaced f ∧
        List.Forall₂ (fun c d => OpensAlike q q' c.offset d.offset) f.leaves g.leaves := by
  intro q q' f
  let ps : List Piece := [.column ['a'], .run [' ', 'n', 'o', 't', ' ', ' ', 'I', 'n', ' '],
    .value ['\'', 'x'], .run [' ', 'O', 'R', ' '], .column ['b'], .run [' ', 'n', 'u', 'l', 'l']]
  let ps' : List Piece := [.column ['a'], .run ['\u3000', 'N', 'O', 'T', '\t', 'i', 'n', '\n'],
    .value ['\'', 'x'], .run [' ', ' ', 'o', 'r', ' '], .column ['b'],
    .run ['\u00a0', 'N', 'u', 'l', 'l']]
  -- from word to word: blanks for blanks, and the same letters
  have hnot : Retyped [' ', 'n', 'o', 't', ' ', ' ', 'I', 'n', ' ']
      ['\u3000', 'N', 'O', 'T', '\t', 'i', 'n', '\n'] := by
    have hfirst : Retyped [' '] ['\u3000'] := .of_blanks (by simp) (by simp) (by decide) (by decide)
    have hword : Retyped ['n', 'o', 't'] ['N', 'O', 'T'] := .of_letters (by decide)
    have hgap : Retyped [' ', ' '] ['\t'] := .of_blanks (by simp) (by simp) (by decide) (by decide)
    have hword' : Retyped ['I', 'n'] ['i', 'n'] := .of_letters (by decide)
    have hlast : Retyped [' '] ['\n'] := .of_blanks (by simp) (by simp) (by decide) (by decide)
    exact hfirst.append (hword.append (hgap.append (hword'.append hlast)))
  have hor : Retyped [' ', 'O', 'R', ' '] [' ', ' ', 'o', 'r', ' '] := by
    have hfirst : Retyped [' '] [' ', ' '] := .of_blanks (by simp) (by simp) (by decide) (by decide)
    have hword : Retyped ['O', 'R', ' '] ['o', 'r', ' '] := .of_letters (by decide)
    exact hfirst.append hword
  have hnull : Retyped [' ', 'n', 'u', 'l', 'l'] ['\u00a0', 'N', 'u', 'l', 'l'] := by
    have hfirst : Retyped [' '] ['\u00a0'] := .of_blanks (by simp) (by simp) (by decide) (by decide)
    have hword : Retyped ['n', 'u', 'l', 'l'] ['N', 'u', 'l', 'l'] := .of_letters (by decide)
    exact hfirst.append hword
  have hps : LayoutRetyped ps ps' := .cons (.column _) (.cons (.run hnot) (.cons (.value _)
    (.cons (.run hor) (.cons (.column _) (.cons (.run hnull) .nil)))))
  have hread : ReadAs q f ps [⟨.column, "a", 0, 4⟩, ⟨.operator, "not  In", 5, 12⟩, ⟨.value, "'x", 13, 17⟩,
      ⟨.conjunction, "OR", 18, 20⟩, ⟨.column, "b", 21, 25⟩, ⟨.operator, "null", 26, 30⟩] := by
    refine ⟨?_, by decide +kernel, by decide +kernel, by decide +kernel, ?_⟩
    · exact ⟨by decide, by decide, by decide, by simp, by decide, by decide +kernel, by decide, by decide,
        by simp, by decide, by decide, by decide, by decide, by simp, by decide, trivial⟩
    · exact ⟨[_, _, _], _, [_, _], rfl,
        ⟨_, _, _, rfl, rfl, by decide +kernel, rfl, rfl, by decide +kernel, _, rfl, rfl, rfl⟩,
        by decide +kernel, ⟨_, _, _, rfl, rfl, by decide +kernel, rfl, rfl, by decide +kernel, rfl⟩⟩
  have hwritten : q'.toList = written ps' := by decide +kernel
  have hq : RetypedOutside (inMarkers q) 0 q.toList q'.toList := by
    rw [hread.toList_eq, hwritten]
    exact retypedOutside_written hps fun byte _ _ => hread.inMarkers_eq byte
  exact ⟨hread.parse_eq_ok, hq, retyped_query_same_formula hread.parse_eq_ok hq⟩

end RowFilter.Query
