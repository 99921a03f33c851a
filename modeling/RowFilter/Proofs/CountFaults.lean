import Mathlib.Data.List.Nodup
import Mathlib.Data.List.Perm.Subperm
import RowFilter.Proofs.Keywords
import RowFilter.Proofs.TokenCounts

/-!
# RowFilter — what a failed count names

When the tokens of a query do not fit in number, the count names one of them: the first one that is left when
the lists are paired from their starts. In the query the partner of a token is the one that stands directly
behind it or in front of it, and the lists know nothing of that. So a token with a partner of its own may be
named for an earlier one without, and then the offset leads to the wrong place. It never leads too far to
the front: among the tokens up to the one that is named there is always one whose partner is missing.

Main results:

* `Lack.exists_lacks` — one of the tokens up to the first one in excess has no partner.
* `TokenStream.checkCounts_error` — the count names the first token in excess.
* `count_names_excess` — what an error of the count says about the query.
* `count_names_paired_token` — the token that is named may have its partner.
-/

namespace RowFilter.Query

/-! ## Tokens that stand next to each other -/

/-- Nothing starts between two neighbours. -/
theorem start_of_neighbours {ts : List Token} (hts : ts.Pairwise fun a b => a.start < b.start)
    {a b : Token} (h : [a, b] <:+: ts) :
    a.start < b.start ∧ ∀ t ∈ ts, t.start ≤ a.start ∨ b.start ≤ t.start := by
  obtain ⟨before, after, rfl⟩ := h
  rw [List.append_assoc, List.pairwise_append, List.cons_append, List.cons_append, List.nil_append,
    List.pairwise_cons, List.pairwise_cons] at hts
  obtain ⟨_, ⟨ha, hb, _⟩, hbefore⟩ := hts
  refine ⟨ha b List.mem_cons_self, fun t ht => ?_⟩
  simp only [List.mem_append, List.mem_cons, List.not_mem_nil, or_false] at ht
  rcases ht with (ht | rfl | rfl) | ht
  · exact .inl (Nat.le_of_lt (hbefore t ht a List.mem_cons_self))
  · exact .inl (Nat.le_refl _)
  · exact .inr (Nat.le_refl _)
  · exact .inr (Nat.le_of_lt (hb t ht))

/-! ## Partners -/

/-- What a token wants of the token next to it. -/
inductive Lack
  /-- A column wants an operator behind it. -/
  | operator
  /-- An operator wants a column in front of it. -/
  | column
  /-- An operator that takes a literal wants one behind it. -/
  | value
  /-- A literal wants an operator that takes one in front of it. -/
  | taker
deriving DecidableEq, Repr

/-- An operator that takes a literal. -/
def Token.isTaker (t : Token) : Bool := t.kind = .operator && takesLiteral t

namespace Lack

/-- The tokens with this want. -/
def concerns : Lack → Token → Bool
  | .operator, t => t.kind = .column
  | .column, t => t.kind = .operator
  | .value, t => t.isTaker
  | .taker, t => t.kind = .value

/-- The tokens that they want. -/
def supplies : Lack → Token → Bool
  | .operator, t => t.kind = .operator
  | .column, t => t.kind = .column
  | .value, t => t.kind = .value
  | .taker, t => t.isTaker

/-- The second token stands where the first one wants its partner. -/
def Beside (l : Lack) (ts : List Token) (t u : Token) : Prop :=
  match l with
  | .operator | .value => [t, u] <:+: ts
  | .column | .taker => [u, t] <:+: ts

/-- The token has no partner. -/
def Lacks (l : Lack) (ts : List Token) (t : Token) : Prop :=
  ∀ u, l.supplies u = true → ¬ l.Beside ts t u

/-- The first token in excess: before it stand as many with this want as there are partners in all. -/
def IsExcess (l : Lack) (ts : List Token) (t : Token) : Prop :=
  (ts.filter l.concerns)[(ts.filter l.supplies).length]? = some t

/-- The fault that is reported for the token in excess. -/
def fault (l : Lack) (s : TokenStream) (t : Token) : SyntaxFault :=
  match l with
  | .operator | .column => .countMismatch s.columns.length s.operators.length
  | .value => .operatorWithoutValue t.text
  | .taker => .valueWithoutOperator t.text

variable {l : Lack} {ts : List Token} {t : Token}

theorem IsExcess.mem (h : l.IsExcess ts t) : t ∈ ts :=
  (List.mem_filter.1 (List.mem_of_getElem? h)).1

theorem mem_of_beside {u : Token} (h : l.Beside ts t u) : u ∈ ts := by
  cases l with
  | operator | value => exact h.subset (by simp)
  | column | taker => exact h.subset (by simp)

/-- A token is the partner of one token only. -/
theorem eq_of_beside (hts : ts.Pairwise fun a b => a.start < b.start) {a b u : Token}
    (ha : l.Beside ts a u) (hb : l.Beside ts b u) (hta : a ∈ ts) (htb : b ∈ ts) : a = b := by
  refine eq_of_start_eq hts hta htb ?_
  -- neither can start between the other one and their partner
  cases l with
  | operator | value =>
    obtain ⟨halt, hgap⟩ := start_of_neighbours hts ha
    obtain ⟨hblt, hgap'⟩ := start_of_neighbours hts hb
    have := hgap b htb
    have := hgap' a hta
    omega
  | column | taker =>
    obtain ⟨halt, hgap⟩ := start_of_neighbours hts ha
    obtain ⟨hblt, hgap'⟩ := start_of_neighbours hts hb
    have := hgap b htb
    have := hgap' a hta
    omega

/-- Tokens with partners are no more than the tokens that supply them. -/
theorem length_le_of_beside (hts : ts.Pairwise fun a b => a.start < b.start) {as : List Token}
    (hsub : ∀ a ∈ as, a ∈ ts) (hnodup : as.Nodup) (h : ∀ a ∈ as, ¬ l.Lacks ts a) :
    as.length ≤ (ts.filter l.supplies).length := by
  have hpartner : ∀ a, ∃ u, a ∈ as → l.supplies u = true ∧ l.Beside ts a u := by
    intro a
    by_cases ha : a ∈ as
    · have hserved := h a ha
      simp only [Lacks, not_forall, not_not] at hserved
      obtain ⟨u, hu, hbeside⟩ := hserved
      exact ⟨u, fun _ => ⟨hu, hbeside⟩⟩
    · exact ⟨a, fun ha' => absurd ha' ha⟩
  choose partner hpartner using hpartner
  -- different tokens have different partners
  have hmap : (as.map partner).Nodup := by
    refine hnodup.map_on fun a ha b hb heq => ?_
    have hbeside := (hpartner b hb).2
    rw [← heq] at hbeside
    exact eq_of_beside hts (hpartner a ha).2 hbeside (hsub a ha) (hsub b hb)
  have hsubset : as.map partner ⊆ ts.filter l.supplies := by
    intro u hu
    obtain ⟨a, ha, rfl⟩ := List.mem_map.1 hu
    exact List.mem_filter.2 ⟨mem_of_beside (hpartner a ha).2, (hpartner a ha).1⟩
  have hle := (List.subperm_of_subset hmap hsubset).length_le
  rwa [List.length_map] at hle

theorem nodup_of_ordered (hts : ts.Pairwise fun a b => a.start < b.start) : ts.Nodup :=
  hts.imp fun hab heq => by
    rw [heq] at hab
    exact Nat.lt_irrefl _ hab

/-- The first token in excess, or one with the same want in front of it, has no partner. -/
theorem exists_lacks (hts : ts.Pairwise fun a b => a.start < b.start) (h : l.IsExcess ts t) :
    l.Lacks ts t ∨ ∃ u ∈ ts, l.concerns u = true ∧ u.start < t.start ∧ l.Lacks ts u := by
  obtain ⟨hlt, hget⟩ := List.getElem?_eq_some_iff.1 h
  -- the tokens with the want up to the one in excess
  have hupto := List.take_succ_eq_append_getElem hlt
  rw [hget] at hupto
  have hsub := List.take_sublist ((ts.filter l.supplies).length + 1) (ts.filter l.concerns)
  have hordered := hts.sublist (hsub.trans List.filter_sublist)
  have hlength : ((ts.filter l.concerns).take ((ts.filter l.supplies).length + 1)).length =
      (ts.filter l.supplies).length + 1 := by
    rw [List.length_take, Nat.min_eq_left hlt]
  rw [hupto] at hsub hordered hlength
  have hmem : ∀ a ∈ (ts.filter l.concerns).take (ts.filter l.supplies).length ++ [t],
      a ∈ ts ∧ l.concerns a = true := fun a ha => List.mem_filter.1 (hsub.subset ha)
  by_contra hall
  rw [not_or, not_exists] at hall
  -- if all of them had partners, there would be more of them than partners in all
  have hle := length_le_of_beside hts (fun a ha => (hmem a ha).1) (nodup_of_ordered hordered)
    fun a ha hlacks => by
      rcases List.mem_append.1 ha with hfront | hlast
      · have hbefore := (List.pairwise_append.1 hordered).2.2 a hfront t List.mem_cons_self
        exact hall.2 a ⟨(hmem a ha).1, (hmem a ha).2, hbefore, hlacks⟩
      · rw [List.mem_singleton.1 hlast] at hlacks
        exact hall.1 hlacks
  omega

end Lack

/-! ## What the count reports -/

namespace TokenStream

theorem getElem?_of_drop_eq_cons {α : Type} {xs ys : List α} {n : Nat} {x : α}
    (h : xs.drop n = x :: ys) : xs[n]? = some x := by
  rw [← List.head?_drop, h, List.head?_cons]

/-- Either the operators or the literals go on when the others have come to their end. -/
theorem checkValues_error {os vs : List Token} {e : FilterError} (h : checkValues os vs = .error e) :
    (∃ o, (os.filter fun o => wantedBy o = 1)[vs.length]? = some o ∧
      e = .querySyntax o.start (.operatorWithoutValue o.text)) ∨
    (∃ v, vs[(os.filter fun o => wantedBy o = 1).length]? = some v ∧
      e = .querySyntax v.start (.valueWithoutOperator v.text)) := by
  -- an operator that takes a literal uses one up, so both places move on together
  fun_induction checkValues os vs with
  | case1 => cases h
  | case2 v vs =>
    cases h
    exact .inr ⟨v, rfl, rfl⟩
  | case3 o os hwanted =>
    cases h
    rw [List.filter_cons_of_pos (by simpa using hwanted)]
    exact .inl ⟨o, rfl, rfl⟩
  | case4 o os hwanted v vs ih =>
    rw [List.filter_cons_of_pos (by simpa using hwanted)]
    exact ih h
  | case5 vs o os hwanted ih =>
    rw [List.filter_cons_of_neg (by simpa using hwanted)]
    exact ih h

/-- Every operator is one of the known ones. -/
def Known (ts : List Token) : Prop :=
  ∀ o ∈ ts, o.kind = .operator → (Operator.ofKeyword? o.text.toList).isSome = true

/-- Known operators want a literal just if they take one. -/
theorem filter_wantedBy {ts : List Token} (h : Known ts) :
    (ofKind .operator ts).filter (fun o => wantedBy o = 1) = ts.filter Token.isTaker := by
  rw [ofKind, List.filter_filter]
  refine List.filter_congr fun o ho => ?_
  rw [Token.isTaker, Bool.and_comm]
  cases hk : decide (o.kind = .operator) with
  | false => rfl
  | true =>
    obtain ⟨op, hop⟩ := Option.isSome_iff_exists.1 (h o ho (of_decide_eq_true hk))
    rw [takesLiteral, wantedBy, hop]
    rfl

/-- A count that fails names the first token in excess. -/
theorem checkCounts_error {ts : List Token} (hknown : Known ts) {e : FilterError}
    (h : (ofTokens ts).checkCounts = .error e) :
    ∃ l t, Lack.IsExcess l ts t ∧ e = .querySyntax t.start (l.fault (.ofTokens ts) t) := by
  unfold checkCounts at h
  simp only at h
  split at h
  · rename_i c _ hc
    cases h
    exact ⟨.operator, c, getElem?_of_drop_eq_cons hc, rfl⟩
  · rename_i o _ _ ho
    cases h
    exact ⟨.column, o, getElem?_of_drop_eq_cons ho, rfl⟩
  · have htakers : (ofTokens ts).operators.filter (fun o => wantedBy o = 1) = ts.filter Token.isTaker :=
      filter_wantedBy hknown
    rcases checkValues_error h with ⟨o, ho, rfl⟩ | ⟨v, hv, rfl⟩
    · rw [htakers] at ho
      exact ⟨.value, o, ho, rfl⟩
    · rw [htakers] at hv
      exact ⟨.taker, v, hv, rfl⟩

end TokenStream

/-! ## Operators of a query -/

/-- The words of a run give known operators only. -/
theorem Cover.known {pos : Nat} {s : List Char} {ws : List Word} {ts : List Token}
    (hcover : Cover pos s ws) (h : wordTokens ws = .ok ts) : TokenStream.Known ts := by
  replace h := wordTokens_eq_ok_iff.1 h
  induction h generalizing pos s with
  | nil => exact fun o ho => (nomatch ho)
  | conjunction _ _ ih =>
    cases hcover with
    | cons _ _ _ hrest => exact List.forall_mem_cons.2 ⟨fun hk => (nomatch hk), ih hrest⟩
  | @operator w _ _ _ _ hop _ ih =>
    cases hcover with
    | cons _ _ _ hrest =>
      refine List.forall_mem_cons.2 ⟨fun _ => ?_, ih hrest⟩
      rw [Word.token, String.toList_ofList]
      exact hop
  | @notIn w next _ _ _ hnot hin _ ih =>
    cases hcover with
    | cons _ _ _ hrest =>
      cases hrest with
      | cons hgap _ _ hrest =>
        refine List.forall_mem_cons.2 ⟨fun _ => ?_, ih hrest⟩
        rw [Word.tokenTo, String.toList_ofList, Operator.ofKeyword?_notIn hnot hin hgap]
        rfl

theorem known_tokensAt {ps : List Piece} {pos : Nat} {ts : List Token} (h : tokensAt pos ps = .ok ts) :
    TokenStream.Known ts := by
  induction ps generalizing pos ts with
  | nil =>
    cases h
    exact fun o ho => (nomatch ho)
  | cons p ps ih =>
    cases p with
    | run s =>
      obtain ⟨us, vs, hus, hvs, rfl⟩ := tokensAt_run_ok h
      exact List.forall_mem_append.2 ⟨(wordsFrom_covers s [] pos rfl).known hus, ih hvs⟩
    | column name =>
      obtain ⟨us, hus, rfl⟩ := map_eq_ok h
      exact List.forall_mem_cons.2 ⟨fun hk => (nomatch hk), ih hus⟩
    | value literal =>
      obtain ⟨us, hus, rfl⟩ := map_eq_ok h
      refine List.forall_mem_cons.2 ⟨fun hk => (nomatch hk), List.forall_mem_append.2 ⟨?_, ih hus⟩⟩
      intro o ho hk
      rw [(foundBefore_columnsIn (pos + 1) literal).column o ho] at hk
      cases hk

/-- The tokens of a query before they are counted are those of one pass over a layout of it. -/
theorem exists_of_scanTokens {query : String} {stream : TokenStream}
    (h : scanTokens query = .ok stream) :
    ∃ ps, tokensAt 0 ps = .ok stream.merged ∧ stream = .ofTokens stream.merged := by
  obtain ⟨columns, _, hvalues⟩ := bind_eq_ok h
  obtain ⟨values, hscan, _⟩ := bind_eq_ok hvalues
  obtain ⟨ps, hps, hw⟩ := exists_layout hscan
  rw [scanTokens_written hps hw.symm] at h
  obtain ⟨ts, hts, rfl⟩ := map_eq_ok h
  rw [merged_ofTokens (tokensAt_ordered hts).2]
  exact ⟨ps, hts, rfl⟩

/-- The tokens of a query that are counted are in source order, and a count that fails names one of them. -/
theorem exists_isExcess {query : String} {stream : TokenStream} {e : FilterError}
    (hscan : scanTokens query = .ok stream) (h : stream.checkCounts = .error e) :
    (stream.merged.Pairwise fun a b => a.start < b.start) ∧
      ∃ l t, Lack.IsExcess l stream.merged t ∧ e = .querySyntax t.start (l.fault stream t) := by
  obtain ⟨ps, hts, hstream⟩ := exists_of_scanTokens hscan
  rw [hstream] at h
  obtain ⟨l, t, hexcess, he⟩ := TokenStream.checkCounts_error (known_tokensAt hts) h
  rw [← hstream] at he
  exact ⟨(tokensAt_ordered hts).2, l, t, hexcess, he⟩

/-- **A count that fails.** The error names a token of the query by its offset: the first one in excess of
its partners. That token has no partner next to it, or else a token of the same want in front of it has
none, and that one should have been named. -/
theorem count_names_excess {query : String} {stream : TokenStream} {e : FilterError}
    (hscan : scanTokens query = .ok stream) (h : stream.checkCounts = .error e) :
    tokenize query = .error e ∧
      ∃ l t, Lack.IsExcess l stream.merged t ∧ e = .querySyntax t.start (l.fault stream t) ∧
        (∀ u ∈ stream.merged, u.start = t.start → u = t) ∧
        (l.Lacks stream.merged t ∨
          ∃ u ∈ stream.merged, l.concerns u = true ∧ u.start < t.start ∧ l.Lacks stream.merged u) := by
  refine ⟨by rw [tokenize_eq_scanTokens, hscan, ok_bind, h]; rfl, ?_⟩
  obtain ⟨hordered, l, t, hexcess, he⟩ := exists_isExcess hscan h
  -- the starts grow strictly, so the offset is that of this token only
  exact ⟨l, t, hexcess, he, fun u hu heq => eq_of_start_eq hordered hu hexcess.mem heq,
    Lack.exists_lacks hordered hexcess⟩

/-- The counts of a query are those of the tokens of its layout. -/
theorem scanTokens_eq_ok {ps : List Piece} (hps : IsLayout ps) {query : String}
    (hq : query.toList = written ps) {ts : List Token} (hts : tokensAt 0 ps = .ok ts) :
    scanTokens query = .ok (.ofTokens ts) ∧ (TokenStream.ofTokens ts).merged = ts := by
  rw [scanTokens_written hps hq, hts]
  exact ⟨rfl, merged_ofTokens (tokensAt_ordered hts).2⟩

/-- The last column has no operator, and the ones before it have theirs. -/
theorem count_names_excess_last :
    let query := "#\x7ba\x7d null and #\x7bb\x7d"
    let stream : TokenStream := ⟨[⟨.column, "a", 0, 4⟩, ⟨.column, "b", 14, 18⟩],
      [⟨.operator, "null", 5, 9⟩], [], [⟨.conjunction, "and", 10, 13⟩]⟩
    let e : FilterError := .querySyntax 14 (.countMismatch 2 1)
    scanTokens query = .ok stream ∧ stream.checkCounts = .error e ∧ tokenize query = .error e ∧
      ∃ l t, Lack.IsExcess l stream.merged t ∧ e = .querySyntax t.start (l.fault stream t) ∧
        (∀ u ∈ stream.merged, u.start = t.start → u = t) ∧
        (l.Lacks stream.merged t ∨
          ∃ u ∈ stream.merged, l.concerns u = true ∧ u.start < t.start ∧ l.Lacks stream.merged u) := by
  intro query stream e
  let ps : List Piece := [.column ['a'], .run " null and ".toList, .column ['b']]
  have hps : IsLayout ps := by
    refine ⟨by decide, by decide, by decide, fun _ _ => nofun, by decide, by decide, trivial⟩
  have hts : tokensAt 0 ps = .ok [⟨.column, "a", 0, 4⟩, ⟨.operator, "null", 5, 9⟩,
      ⟨.conjunction, "and", 10, 13⟩, ⟨.column, "b", 14, 18⟩] := by decide +kernel
  have hscan : scanTokens query = .ok stream := (scanTokens_eq_ok hps (by decide +kernel) hts).1
  have hcounts : stream.checkCounts = .error e := rfl
  exact ⟨hscan, hcounts, count_names_excess hscan hcounts⟩

/-- The count of a query names a token that has its partner. -/
def Lack.NamesPaired (l : Lack) (query : String) (t u : Token) (e : FilterError) : Prop :=
  ∃ stream, scanTokens query = .ok stream ∧ tokenize query = .error e ∧
    e = .querySyntax t.start (l.fault stream t) ∧ l.concerns t = true ∧ l.supplies u = true ∧
    l.Beside stream.merged t u

theorem Lack.namesPaired {l : Lack} {query : String} {t u : Token} {e : FilterError} {ps : List Piece}
    {ts : List Token} (hps : IsLayout ps) (hq : query.toList = written ps) (hts : tokensAt 0 ps = .ok ts)
    (hcounts : (TokenStream.ofTokens ts).checkCounts = .error e)
    (he : e = .querySyntax t.start (l.fault (.ofTokens ts) t)) (ht : l.concerns t = true)
    (hu : l.supplies u = true) (hbeside : l.Beside ts t u) : l.NamesPaired query t u e := by
  obtain ⟨hscan, hmerged⟩ := scanTokens_eq_ok hps hq hts
  refine ⟨_, hscan, ?_, he, ht, hu, by rwa [hmerged]⟩
  rw [tokenize_eq_scanTokens, hscan, ok_bind, hcounts]
  rfl

/-- Each want can be blamed on a token that has its partner: a token of the same want before it is the one
that has none. -/
theorem count_names_paired_token :
    Lack.operator.NamesPaired "#\x7ba\x7d and #\x7bb\x7d = \x7b1\x7d" ⟨.column, "b", 9, 13⟩
      ⟨.operator, "=", 14, 15⟩ (.querySyntax 9 (.countMismatch 2 1)) ∧
    Lack.column.NamesPaired "= \x7b1\x7d and #\x7bb\x7d = \x7b2\x7d" ⟨.operator, "=", 15, 16⟩
      ⟨.column, "b", 10, 14⟩ (.querySyntax 15 (.countMismatch 1 2)) ∧
    Lack.value.NamesPaired "#\x7ba\x7d = and #\x7bb\x7d = \x7b1\x7d" ⟨.operator, "=", 16, 17⟩
      ⟨.value, "1", 18, 21⟩ (.querySyntax 16 (.operatorWithoutValue "=")) ∧
    Lack.taker.NamesPaired "#\x7ba\x7d null \x7b1\x7d and #\x7bb\x7d = \x7b2\x7d" ⟨.value, "2", 25, 28⟩
      ⟨.operator, "=", 23, 24⟩ (.querySyntax 25 (.valueWithoutOperator "2")) := by
  have heq : Operator.ofKeyword? ['='] = some .eq := by decide +kernel
  have hnull : Operator.ofKeyword? ['n', 'u', 'l', 'l'] = some .null := by decide +kernel
  refine ⟨?_, ?_, ?_, ?_⟩
  · let ps : List Piece := [.column ['a'], .run " and ".toList, .column ['b'], .run " = ".toList,
      .value ['1']]
    have hts : tokensAt 0 ps = .ok [⟨.column, "a", 0, 4⟩, ⟨.conjunction, "and", 5, 8⟩,
        ⟨.column, "b", 9, 13⟩, ⟨.operator, "=", 14, 15⟩, ⟨.value, "1", 16, 19⟩] := by decide +kernel
    exact Lack.namesPaired (by decide +kernel : IsLayout ps) (by decide +kernel) hts rfl rfl rfl rfl
      ⟨[_, _], [_], rfl⟩
  · let ps : List Piece := [.run "= ".toList, .value ['1'], .run " and ".toList, .column ['b'],
      .run " = ".toList, .value ['2']]
    have hts : tokensAt 0 ps = .ok [⟨.operator, "=", 0, 1⟩, ⟨.value, "1", 2, 5⟩,
        ⟨.conjunction, "and", 6, 9⟩, ⟨.column, "b", 10, 14⟩, ⟨.operator, "=", 15, 16⟩,
        ⟨.value, "2", 17, 20⟩] := by decide +kernel
    exact Lack.namesPaired (by decide +kernel : IsLayout ps) (by decide +kernel) hts rfl rfl rfl rfl
      ⟨[_, _, _], [_], rfl⟩
  · let ps : List Piece := [.column ['a'], .run " = and ".toList, .column ['b'], .run " = ".toList,
      .value ['1']]
    have hts : tokensAt 0 ps = .ok [⟨.column, "a", 0, 4⟩, ⟨.operator, "=", 5, 6⟩,
        ⟨.conjunction, "and", 7, 10⟩, ⟨.column, "b", 11, 15⟩, ⟨.operator, "=", 16, 17⟩,
        ⟨.value, "1", 18, 21⟩] := by decide +kernel
    refine Lack.namesPaired (by decide +kernel : IsLayout ps) (by decide +kernel) hts ?_ rfl
      (by decide +kernel) rfl ⟨[_, _, _, _], [], rfl⟩
    simp [TokenStream.checkCounts, TokenStream.checkValues, TokenStream.ofTokens, ofKind,
      TokenStream.wantedBy, heq, Operator.arity]
  · let ps : List Piece := [.column ['a'], .run " null ".toList, .value ['1'], .run " and ".toList,
      .column ['b'], .run " = ".toList, .value ['2']]
    have hts : tokensAt 0 ps = .ok [⟨.column, "a", 0, 4⟩, ⟨.operator, "null", 5, 9⟩,
        ⟨.value, "1", 10, 13⟩, ⟨.conjunction, "and", 14, 17⟩, ⟨.column, "b", 18, 22⟩,
        ⟨.operator, "=", 23, 24⟩, ⟨.value, "2", 25, 28⟩] := by decide +kernel
    refine Lack.namesPaired (by decide +kernel : IsLayout ps) (by decide +kernel) hts ?_ rfl rfl
      (by decide +kernel) ⟨[_, _, _, _, _], [], rfl⟩
    simp [TokenStream.checkCounts, TokenStream.checkValues, TokenStream.ofTokens, ofKind,
      TokenStream.wantedBy, heq, hnull, Operator.arity]

end RowFilter.Query
