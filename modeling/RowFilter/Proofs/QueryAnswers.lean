import RowFilter.Proofs.CompiledShape

/-!
# RowFilter — the answer of a query for a row

What a query says of a row is the answer of the filter that it is compiled to, whatever text it was read
from and whatever the evaluator has noticed before. There is at most one such answer, so queries can be
compared by their answers, row by row. A query of one clause that takes no named list is compiled to a
single test, and its answer is that of the test for the cell.

Main results:

* `Compile.Gives.unique` — a query has one answer for a row.
* `Compile.gives_leaf` — the answer of a clause without a named list.
* `Compile.outcome_formula_unknown` — a clause on a column that the schema lacks is refused.
* `Predicate.answer_membership`, `Predicate.answer_equation` — sets and equations have an answer for every
  cell.
-/

namespace RowFilter

open Query (Clause)
open Literal (NamedLists)

/-! ## Answers of tests -/

namespace Predicate

variable {p q : Predicate} {v : Value} {vs : List Value}

theorem answer_of_positive (h : p.operator.negates? = none) (cell : Value) :
    p.answer cell = p.apply p.operator cell := by
  simp [answer, positive, h]

theorem equals_congr (h : p.type = q.type) : p.equals = q.equals := by
  funext cell v
  rw [equals, equals, order?_congr h]

/-- A missing cell equals nothing. -/
theorem apply_eq (hp : p.operand = .scalar v) (cell : Value) :
    p.apply .eq cell = .ok (!cell.isNull && p.equals cell v) := by
  cases hc : cell.isNull with
  | true => simp [apply, hc]
  | false => simp [apply, hc, hp]

/-- A missing cell is in no set and in no list. -/
theorem apply_membership (hp : p.operand = .set vs) {op : Operator} (hop : op = .inSet ∨ op = .inUserList)
    (cell : Value) : p.apply op cell = .ok (!cell.isNull && vs.any (p.equals cell)) := by
  cases hc : cell.isNull with
  | true => rcases hop with rfl | rfl <;> simp [apply, hc]
  | false => rw [apply_set hp hc hop, Bool.not_false, Bool.true_and]

/-- The answer of an equation, or of its negation. -/
theorem answer_equation (negated : Bool) (hop : p.operator = if negated then .ne else .eq)
    (hp : p.operand = .scalar v) (cell : Value) :
    p.answer cell = .ok (negated ^^ (!cell.isNull && p.equals cell v)) := by
  cases negated with
  | false =>
    have heq : p.operator = .eq := hop
    rw [answer_of_positive (by rw [heq]; rfl), heq, apply_eq hp, Bool.false_xor]
  | true =>
    have hneg : p.operator.negates? = some .eq := by rw [hop]; rfl
    rw [answer_of_negates hneg, apply_eq hp, Bool.true_xor]
    rfl

/-- The answer of a set, or of its complement. -/
theorem answer_membership (negated : Bool) (hop : p.operator = if negated then .notInSet else .inSet)
    (hp : p.operand = .set vs) (cell : Value) :
    p.answer cell = .ok (negated ^^ (!cell.isNull && vs.any (p.equals cell))) := by
  cases negated with
  | false =>
    have hin : p.operator = .inSet := hop
    rw [answer_of_positive (by rw [hin]; rfl), hin, apply_membership hp (.inl rfl), Bool.false_xor]
  | true =>
    have hneg : p.operator.negates? = some .inSet := by rw [hop]; rfl
    rw [answer_of_negates hneg, apply_membership hp (.inl rfl), Bool.true_xor]
    rfl

end Predicate

/-! ## Answers of queries -/

namespace Compile

variable {schema : Schema} {lists : NamedLists} {user source : String} {places : Places} {c : Clause}
  {type : LogicalType} {row : Row} {query : Formula Clause}

/-- The filter that a query is compiled to, from any text, has this answer for a row of a table with columns
at these places. -/
def Gives (schema : Schema) (lists : NamedLists) (user : String) (places : Places)
    (query : Formula Clause) (row : Row) (x : Except FilterError Bool) : Prop :=
  ∀ source, ∃ filter e, (formula schema lists user source query).outcome = .ok filter ∧
    Evaluator.new places filter = .ok e ∧ (e.holds row).Answers x

/-- An evaluator of the query has the answer that the query gives. -/
theorem Gives.verdict {x : Except FilterError Bool} (h : Gives schema lists user places query row x)
    {filter : Compiled} {e : Evaluator}
    (hfilter : (formula schema lists user source query).outcome = .ok filter)
    (he : Evaluator.new places filter = .ok e) : e.verdict row = x := by
  obtain ⟨filter', e', hfilter', he', hx⟩ := h source
  -- the same text is compiled to the same filter, and that has the same evaluator
  rw [hfilter] at hfilter'
  cases hfilter'
  rw [he] at he'
  cases he'
  exact Evaluator.answers_holds_iff.1 hx

/-- A query has one answer for a row. -/
theorem Gives.unique {x y : Except FilterError Bool} (hx : Gives schema lists user places query row x)
    (hy : Gives schema lists user places query row y) : x = y := by
  obtain ⟨filter, e, hfilter, he, hx⟩ := hx ""
  exact (Evaluator.answers_holds_iff.1 hx).symm.trans (hy.verdict hfilter he)

theorem Gives.ok_iff {b b' : Bool} (h : Gives schema lists user places query row (.ok b)) :
    Gives schema lists user places query row (.ok b') ↔ b = b' := by
  constructor
  · intro h'
    exact Except.ok.inj (h.unique h')
  · rintro rfl
    exact h

/-- A clause on a column that the schema does not have. -/
theorem checkClause_unknown (h : schema.find? c.column = none) :
    checkClause schema c = .error (.unknownColumn c.column c.offset) := by
  rw [checkClause, h]

theorem outcome_formula_unknown (h : schema.find? c.column = none) :
    (formula schema lists user source (.leaf c)).outcome =
      .error (.unknownColumn c.column c.offset) := by
  rw [outcome_formula_leaf, checkClause_unknown h]
  rfl

/-- The answer of a clause is the answer for the cell of the one predicate that it is compiled to. -/
theorem gives_predicate {p : Predicate} (h : ∀ source,
      (formula schema lists user source (.leaf c)).outcome = .ok ⟨source, .leaf p⟩)
    {cell : Value} (hcell : cellOf places p.column row = .ok cell) :
    Gives schema lists user places (.leaf c) row (p.answer cell) := by
  intro source
  refine ⟨_, _, h source, Compiled.new_leaf (contains_of_cellOf hcell) source, ?_⟩
  refine Evaluator.answers_holds_iff.2 ?_
  show Evaluator.answer places p row = _
  rw [Evaluator.answer, hcell]
  rfl

/-! ### Clauses without named lists -/

/-- A clause that compares with one literal. -/
theorem plainPredicate_scalar {found : Resolved} (hshape : c.operator.shape = .scalar)
    (his : c.operator ≠ .is) : plainPredicate user found (c, type) =
      .ok ⟨c.column, type, c.operator, .scalar (Literal.cast (rawOf c) type), c.value, c.offset⟩ := by
  rw [plainPredicate, if_neg fun h => his h.1, plainOperand, hshape]
  rfl

/-- A clause on a set that is written out. -/
theorem plainPredicate_elements {found : Resolved} (hshape : c.operator.shape = .set)
    (hlist : takesList c.operator = false) : plainPredicate user found (c, type) =
      .ok ⟨c.column, type, c.operator, .set (Literal.castElements (rawOf c) type), c.value,
        c.offset⟩ := by
  have his : c.operator ≠ .is := by
    intro his
    rw [his] at hshape
    cases hshape
  rw [plainPredicate, if_neg fun h => his h.1, plainOperand, hshape]
  simp only [hlist, Bool.false_eq_true, if_false]
  rfl

/-- A clause on a range with two bounds. -/
theorem plainPredicate_range {found : Resolved} {low high : List Char}
    (hshape : c.operator.shape = .range) (hbounds : Literal.bounds (rawOf c) = .ok (low, high)) :
    plainPredicate user found (c, type) = .ok ⟨c.column, type, c.operator,
      .range (Literal.cast low type) (Literal.cast high type), c.value, c.offset⟩ := by
  have his : c.operator ≠ .is := by
    intro his
    rw [his] at hshape
    cases hshape
  rw [plainPredicate, if_neg fun h => his h.1, plainOperand, hshape, hbounds]
  rfl

/-- A clause that takes no named list is compiled to its predicate. -/
theorem outcome_formula_listless {p : Predicate} (hcheck : checkClause schema c = .ok (c, type))
    (hlist : takesList c.operator = false) (h : plainPredicate user [] (c, type) = .ok p)
    (source : String) :
    (formula schema lists user source (.leaf c)).outcome = .ok ⟨source, .leaf p⟩ := by
  have hresolve : (resolveClause lists user [] (c, type)).outcome = .ok [] := by
    rw [outcome_resolveClause, if_neg (by simp [hlist])]
  rw [outcome_formula_leaf, hcheck, ok_bind, hresolve, ok_bind, h]
  rfl

/-- The answer of a clause that takes no named list is the answer of its predicate for the cell. -/
theorem gives_leaf {p : Predicate} (hcheck : checkClause schema c = .ok (c, type))
    (hlist : takesList c.operator = false) (h : plainPredicate user [] (c, type) = .ok p)
    {cell : Value} (hcell : cellOf places p.column row = .ok cell) :
    Gives schema lists user places (.leaf c) row (p.answer cell) :=
  gives_predicate (outcome_formula_listless hcheck hlist h) hcell

/-- Two such clauses that are joined by `and` are tested one behind the other. -/
theorem gives_both {c' : Clause} {type' : LogicalType} {p p' : Predicate}
    (hcheck : checkClause schema c = .ok (c, type)) (hcheck' : checkClause schema c' = .ok (c', type'))
    (hlist : takesList c.operator = false) (hlist' : takesList c'.operator = false)
    (h : plainPredicate user [] (c, type) = .ok p) (h' : plainPredicate user [] (c', type') = .ok p')
    {cell cell' : Value} (hcell : cellOf places p.column row = .ok cell)
    (hcell' : cellOf places p'.column row = .ok cell') :
    Gives schema lists user places (.all [.leaf c, .leaf c']) row (do
      let b ← p.answer cell
      if b then p'.answer cell' else pure false) := by
  intro source
  have hchecked : (Formula.all [.leaf c, .leaf c']).traverse (checkClause schema) =
      .ok (.all [.leaf (c, type), .leaf (c', type')]) := by
    simp only [Formula.traverse, Formula.traverseOf, hcheck, hcheck']
    rfl
  have hfound : (resolveAll lists user [(c, type), (c', type')]).outcome = .ok [] := by
    rw [resolveAll, Traced.outcome_foldlM]
    simp only [List.foldlM_cons, List.foldlM_nil, outcome_resolveClause, hlist, hlist',
      Bool.false_eq_true, false_and, if_false]
    rfl
  have hroot : ((Formula.all [.leaf (c, type), .leaf (c', type')]).traverse
      (predicateTraced user [])).outcome = .ok (.all [.leaf p, .leaf p']) := by
    simp only [Formula.traverse, Formula.traverseOf, Traced.outcome_bind, outcome_predicateTraced,
      h, h']
    rfl
  have hcolumns : ∀ name ∈ (⟨source, .all [.leaf p, .leaf p']⟩ : Compiled).columns,
      places.contains name = true := by
    intro name hname
    obtain ⟨r, hr, rfl⟩ := Compiled.mem_columns.1 hname
    have hleaf : r = p ∨ r = p' := by
      simpa [Compiled.predicates, Formula.leaves, Formula.leavesOf] using hr
    rcases hleaf with rfl | rfl
    · exact contains_of_cellOf hcell
    · exact contains_of_cellOf hcell'
  refine ⟨_, _, outcome_formula_of_passes hchecked hfound hroot, Evaluator.new_of_columns hcolumns,
    Evaluator.answers_holds_iff.2 ?_⟩
  show (do
    let b ← Evaluator.answer places p row
    if b then (do
      let b' ← Evaluator.answer places p' row
      if b' then pure true else pure false) else pure false) = _
  rw [Evaluator.answer, hcell, Evaluator.answer, hcell']
  show (do
    let b ← p.answer cell
    if b then (do
      let b' ← p'.answer cell'
      if b' then pure true else pure false) else pure false) = _
  -- behind the last operand an `and` chain has the answer of that operand
  congr 1
  funext b
  cases p'.answer cell' with
  | error err => rfl
  | ok b' => cases b' <;> rfl

end Compile

end RowFilter
