import RowFilter.Proofs.Grammar
import RowFilter.Proofs.SourceOrder

/-!
# RowFilter — clauses and the tokens that spell them

A spelling of a formula *records* its clauses: the columns of the tokens are those of the clauses in their
order, and so are the operators and the literals. Conjunctions record nothing. So a spelling is *balanced*:
it has as many columns as operators, and as many literals as its operators want. That is what the count
check looks for before a query is read. It is not enough for a spelling, since the tokens may stand in any
order, but it is necessary.

Main results:

* `Spells.records` — a spelling records the clauses of the formula.
* `FitsIn.balanced` — a spelling is balanced.
* `checkCounts_of_balanced` — balanced tokens pass the count check.
-/

namespace RowFilter.Query

/-! ## Tokens by kind -/

theorem kind_of_conjunction? {t : Token} {k : Conjunction} (h : t.conjunction? = some k) :
    t.kind = .conjunction := by
  unfold Token.conjunction? at h
  split at h
  · assumption
  · cases h

theorem ofKind_cons_conjunction {t : Token} {k : Conjunction} (h : t.conjunction? = some k)
    (ts : List Token) {kind : TokenKind} (hkind : kind ≠ .conjunction) :
    ofKind kind (t :: ts) = ofKind kind ts := by
  refine ofKind_cons_of_ne ?_ ts
  rw [kind_of_conjunction? h]
  exact Ne.symm hkind

/-- A column, an operator and literals, kind by kind. -/
theorem ofKind_clause {column operator : Token} {values : List Token} (hc : column.kind = .column)
    (ho : operator.kind = .operator) (hv : ∀ t ∈ values, t.kind = .value) :
    ofKind .column (column :: operator :: values) = [column] ∧
      ofKind .operator (column :: operator :: values) = [operator] ∧
      ofKind .value (column :: operator :: values) = values := by
  refine ⟨?_, ?_, ?_⟩
  · rw [ofKind_cons_self hc, ofKind_cons_of_ne (by rw [ho]; decide),
      ofKind_eq_nil_of_kind hv (by decide)]
  · rw [ofKind_cons_of_ne (by rw [hc]; decide), ofKind_cons_self ho,
      ofKind_eq_nil_of_kind hv (by decide)]
  · rw [ofKind_cons_of_ne (by rw [hc]; decide), ofKind_cons_of_ne (by rw [ho]; decide),
      ofKind_eq_self hv]

/-! ## What a spelling records -/

/-- The columns, operators and literals of tokens are those of clauses. -/
structure Records (ts : List Token) (cs : List Clause) : Prop where
  columns : (ofKind .column ts).map (fun t => (Text.trim t.text.toList, t.start)) =
    cs.map fun c => (c.column.toList, c.offset)
  operators : (ofKind .operator ts).map (fun t => Operator.ofKeyword? t.text.toList) =
    cs.map fun c => some c.operator
  values : (ofKind .value ts).map Token.text = cs.filterMap Clause.value

namespace Records

theorem append {a b : List Token} {cs ds : List Clause} (ha : Records a cs) (hb : Records b ds) :
    Records (a ++ b) (cs ++ ds) where
  columns := by rw [ofKind_append, List.map_append, List.map_append, ha.columns, hb.columns]
  operators := by rw [ofKind_append, List.map_append, List.map_append, ha.operators, hb.operators]
  values := by rw [ofKind_append, List.map_append, List.filterMap_append, ha.values, hb.values]

theorem cons_conjunction {t : Token} {k : Conjunction} {ts : List Token} {cs : List Clause}
    (ht : t.conjunction? = some k) (h : Records ts cs) : Records (t :: ts) cs where
  columns := by rw [ofKind_cons_conjunction ht ts (by decide), h.columns]
  operators := by rw [ofKind_cons_conjunction ht ts (by decide), h.operators]
  values := by rw [ofKind_cons_conjunction ht ts (by decide), h.values]

theorem of_clause {c : Clause} {ts : List Token} (h : SpellsClause c ts) : Records ts [c] := by
  obtain ⟨column, operator, value, rfl, hck, hct, hcs, hok, hop, hv⟩ := h
  have hvalue : (∀ t ∈ value, t.kind = .value) ∧ value.map Token.text = [c].filterMap Clause.value := by
    cases hval : c.value with
    | none =>
      rw [hval] at hv
      cases hv
      exact ⟨fun t ht => (nomatch ht), by simp [hval]⟩
    | some v =>
      rw [hval] at hv
      obtain ⟨t, rfl, htk, rfl⟩ := hv
      exact ⟨fun u hu => by rw [List.mem_singleton.1 hu, htk], by simp [hval]⟩
  obtain ⟨hcolumns, hoperators, hvalues⟩ := ofKind_clause hck hok hvalue.1
  refine ⟨?_, ?_, ?_⟩
  · rw [hcolumns, List.map_singleton, List.map_singleton, hct, hcs]
  · rw [hoperators, List.map_singleton, List.map_singleton, hop]
  · rw [hvalues, hvalue.2]

/-- The clauses stand where the columns start. -/
theorem offsets {ts : List Token} {cs : List Clause} (h : Records ts cs) :
    cs.map Clause.offset = (ofKind .column ts).map Token.start := by
  have hplaces := congrArg (List.map Prod.snd) h.columns
  rw [List.map_map, List.map_map] at hplaces
  exact hplaces.symm

end Records

mutual
/-- A spelling records the clauses of the formula, from left to right. -/
theorem Spells.records : ∀ {f : Formula Clause} {ts : List Token}, Spells f ts → Records ts f.leaves
  | .leaf _, _, h => .of_clause h
  | .all _, _, h => SpellsChain.records h
  | .any _, _, h => SpellsChain.records h
  | .group f, _, h => by
    obtain ⟨left, inner, right, rfl, hleft, hinner, hright⟩ := h
    -- the parentheses are conjunctions, so only what stands between them is recorded
    have hclosing : Records [right] [] := .cons_conjunction hright ⟨rfl, rfl, rfl⟩
    have hinside := (Spells.records hinner).append hclosing
    rw [List.append_nil] at hinside
    exact .cons_conjunction hleft hinside

theorem SpellsChain.records : ∀ {k : Conjunction} {fs : List (Formula Clause)} {ts : List Token},
    SpellsChain k fs ts → Records ts (Formula.leavesOf fs)
  | _, [], _, h => h.elim
  | _, [f], _, h => by
    rw [Formula.leavesOf, Formula.leavesOf, List.append_nil]
    exact Spells.records h
  | _, f :: g :: fs, _, h => by
    obtain ⟨first, between, rest, rfl, hfirst, hb, hrest⟩ := h
    exact (Spells.records hfirst).append (.cons_conjunction hb (SpellsChain.records hrest))
end

/-! ## Balance -/

/-- As many operators as columns, and as many literals as the operators want. -/
structure Balanced (ts : List Token) : Prop where
  columns : (ofKind .column ts).length = (ofKind .operator ts).length
  values : (ofKind .value ts).length =
    ((ofKind .operator ts).filter fun o => TokenStream.wantedBy o = 1).length

theorem FitsIn.leaves_wellFormed {n : Nat} {f : Formula Clause} (h : FitsIn n f) :
    ∀ c ∈ f.leaves, c.WellFormed := by
  have hof : ∀ fs : List (Formula Clause), (∀ f ∈ fs, ∀ c ∈ f.leaves, c.WellFormed) →
      ∀ c ∈ Formula.leavesOf fs, c.WellFormed := by
    intro fs hfs
    induction fs with
    | nil => exact fun c hc => (nomatch hc)
    | cons f fs ih =>
      obtain ⟨hf, hfs⟩ := List.forall_mem_cons.1 hfs
      exact List.forall_mem_append.2 ⟨hf, ih hfs⟩
  induction h with
  | leaf hc =>
    intro c hmem
    rw [List.mem_singleton.1 hmem]
    exact hc
  | all _ _ _ ih => exact hof _ ih
  | any _ _ _ ih => exact hof _ ih
  | group _ ih => exact ih

/-- The number of literals among well-formed clauses is that of the operators that take one. -/
theorem length_filterMap_value {cs : List Clause} (h : ∀ c ∈ cs, c.WellFormed) :
    (cs.filterMap Clause.value).length = (cs.filter fun c => c.operator.arity = 1).length := by
  induction cs with
  | nil => rfl
  | cons c cs ih =>
    obtain ⟨hc, hcs⟩ := List.forall_mem_cons.1 h
    cases hval : c.value with
    | none =>
      have harity := hc.arity_of_none hval
      rw [List.filterMap_cons_none hval, List.filter_cons_of_neg (by simpa using harity), ih hcs]
    | some v =>
      have harity := hc.arity_of_some hval
      rw [List.filterMap_cons_some hval, List.filter_cons_of_pos (by simpa using harity),
        List.length_cons, List.length_cons, ih hcs]

/-- What the operators of the tokens want is what those of the clauses take. -/
theorem length_filter_wantedBy {os : List Token} {cs : List Clause}
    (h : os.map (fun t => Operator.ofKeyword? t.text.toList) = cs.map fun c => some c.operator) :
    (os.filter fun o => TokenStream.wantedBy o = 1).length =
      (cs.filter fun c => c.operator.arity = 1).length := by
  induction os generalizing cs with
  | nil =>
    cases cs with
    | nil => rfl
    | cons c cs => cases h
  | cons o os ih =>
    cases cs with
    | nil => cases h
    | cons c cs =>
      obtain ⟨ho, hos⟩ := List.cons.inj h
      have hop : Operator.ofKeyword? o.text.toList = some c.operator := ho
      -- the operator is a known one, so the token does not fall back on one literal
      have hwanted : TokenStream.wantedBy o = c.operator.arity := by
        rw [TokenStream.wantedBy, hop]
      rw [List.filter_cons, List.filter_cons, hwanted]
      split
      · rw [List.length_cons, List.length_cons, ih hos]
      · exact ih hos

/-- Tokens that record well-formed clauses are balanced. -/
theorem Records.balanced {ts : List Token} {cs : List Clause} (h : Records ts cs)
    (hcs : ∀ c ∈ cs, c.WellFormed) : Balanced ts where
  columns := by
    have hcolumns := congrArg List.length h.columns
    have hoperators := congrArg List.length h.operators
    rw [List.length_map, List.length_map] at hcolumns hoperators
    rw [hcolumns, hoperators]
  values := by
    have hvalues := congrArg List.length h.values
    rw [List.length_map] at hvalues
    rw [hvalues, length_filter_wantedBy h.operators, length_filterMap_value hcs]

/-- A spelling of a well-formed formula is balanced. -/
theorem FitsIn.balanced {n : Nat} {f : Formula Clause} (h : FitsIn n f) {ts : List Token}
    (hs : Spells f ts) : Balanced ts :=
  hs.records.balanced h.leaves_wellFormed

theorem TokenStream.checkCounts_eq_ok {s : TokenStream}
    (hcolumns : s.columns.length = s.operators.length)
    (hvalues : s.values.length = (s.operators.filter fun o => wantedBy o = 1).length) :
    s.checkCounts = .ok () := by
  rw [checkCounts, List.drop_of_length_le (Nat.le_of_eq hcolumns),
    List.drop_of_length_le (Nat.le_of_eq hcolumns.symm)]
  exact (checkValues_ok_iff _ _).2 hvalues

/-- Balanced tokens pass the count check. -/
theorem checkCounts_of_balanced {ts : List Token} (h : Balanced ts) :
    (TokenStream.ofTokens ts).checkCounts = .ok () :=
  TokenStream.checkCounts_eq_ok h.columns h.values

end RowFilter.Query
