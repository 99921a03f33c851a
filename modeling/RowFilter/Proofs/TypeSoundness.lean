import RowFilter.Evaluate
import RowFilter.Proofs.Operands
import RowFilter.Proofs.RoundTrip
import RowFilter.Table

/-!
# RowFilter — type soundness of compiled filters

The literal of a clause is compiled to an operand whose shape is that of the operator, and no literal is
ever missing. So a predicate of a compiled filter never meets an operand that does not fit, and on a
table that has its columns it fails in one way only: an ordering operator, on a column that does not
compare as text, finds a cell that has no order with its literal.

Main results:

* `wellTyped_of_text` — the predicates of a compiled filter are well typed.
* `WellTyped.answer_eq_error_iff` — when a well-typed predicate has no answer for a cell.
* `testLeaf_error_iff` — when a predicate of a compiled filter fails on a row.
-/

namespace RowFilter

/-! ## Well-typed predicates -/

namespace Operand

/-- The literals that a cell is ordered against. -/
def bounds : Operand → List Value
  | scalar v => [v]
  | range low high => [low, high]
  | none | set _ => []

/-- The first literal that a cell would have to be ordered against and cannot be; the upper bound of a
range counts only for a cell that is not below the lower one. -/
def unordered? (cell : Value) : Operand → Option Value
  | scalar v => if cell.compare? v = Option.none then some v else Option.none
  | range low high =>
    match cell.compare? low with
    | Option.none => some low
    | some o =>
      if o ≠ .lt ∧ cell.compare? high = Option.none then some high else Option.none
  | none | set _ => Option.none

end Operand

namespace Predicate

/-- The operand fits the operator, and nothing is missing that a cell could be ordered against. -/
structure WellTyped (p : Predicate) : Prop where
  shape : p.operand.shape = p.operator.shape
  bounds : ∀ v ∈ p.operand.bounds, v.isNull = false

variable {p : Predicate} {cell v : Value} {e : FilterError}

/-! ### The operator whose answer counts -/

theorem positive_of_none (h : p.operator.shape = .none) :
    p.positive = .null ∧ p.operator.isOrdering = false := by
  unfold positive
  revert h
  cases p.operator <;> decide

theorem positive_of_set (h : p.operator.shape = .set) :
    (p.positive = .inSet ∨ p.positive = .inUserList) ∧ p.operator.isOrdering = false := by
  unfold positive
  revert h
  cases p.operator <;> decide

theorem positive_of_range (h : p.operator.shape = .range) :
    p.positive = .between ∧ p.operator.isOrdering = true := by
  unfold positive
  revert h
  cases p.operator <;> decide

theorem positive_of_scalar (h : p.operator.shape = .scalar) :
    (p.positive ∈ [.lt, .le, .gt, .ge] ∧ p.operator.isOrdering = true) ∨
      (p.positive ∈ [.eq, .is, .contains, .beginsWith, .endsWith] ∧
        p.operator.isOrdering = false) := by
  unfold positive
  revert h
  cases p.operator <;> decide

/-! ### Orders -/

theorem order_of_isTextual (hv : v.isNull = false) (ht : p.type.isTextual = true) :
    p.order cell v = .ok (compare cell.toText v.toText) := by
  rw [order, order?, hv, ht]
  rfl

theorem order_of_compare? (hv : v.isNull = false) (ht : p.type.isTextual = false) {o : Ordering}
    (h : cell.compare? v = some o) : p.order cell v = .ok o := by
  rw [order, order?, hv, ht, if_neg (by decide), if_neg (by decide), h]

theorem order_of_compare?_none (hv : v.isNull = false) (ht : p.type.isTextual = false)
    (h : cell.compare? v = none) : p.order cell v = .error (.evaluation p (.unordered cell v)) := by
  rw [order, order?, hv, ht, if_neg (by decide), if_neg (by decide), h]

/-- A range is tested against its lower bound first. -/
theorem isWithin_of_order {low high : Value} (hlow : low.isNull = false)
    (hhigh : high.isNull = false) : p.isWithin cell low high = (do
      let o ← p.order cell low
      if o = .lt then return false
      let o' ← p.order cell high
      return o' ≠ .gt) := by
  rw [isWithin, hlow, hhigh, if_neg (by decide)]

/-! ### Answers -/

/-- The cell cannot be ordered against a literal, though the operator wants it. -/
def IsUnordered (p : Predicate) (cell literal : Value) : Prop :=
  p.operator.isOrdering = true ∧ p.type.isTextual = false ∧ cell.isNull = false ∧
    p.operand.unordered? cell = some literal

instance (p : Predicate) (cell literal : Value) : Decidable (p.IsUnordered cell literal) :=
  inferInstanceAs (Decidable (_ ∧ _ ∧ _ ∧ _))

theorem answer_eq_error_iff_apply :
    p.answer cell = .error e ↔ p.apply p.positive cell = .error e := by
  unfold answer
  split
  · exact map_eq_error_iff
  · rfl

theorem apply_null (cell : Value) : p.apply .null cell = .ok cell.isNull := by
  unfold apply
  rw [if_pos rfl]

/-- A missing cell has an answer for every operator. -/
theorem apply_of_isNull (hc : cell.isNull = true) (op : Operator) :
    ∃ b, p.apply op cell = .ok b := by
  unfold apply
  by_cases hop : op = .null
  · exact ⟨_, by rw [if_pos hop]⟩
  · exact ⟨_, by rw [if_neg hop, if_pos hc]⟩

theorem apply_set {vs : List Value} (hp : p.operand = .set vs) (hc : cell.isNull = false)
    {op : Operator} (hop : op = .inSet ∨ op = .inUserList) :
    p.apply op cell = .ok (vs.any (p.equals cell)) := by
  rcases hop with rfl | rfl
  all_goals simp only [apply, hp, hc, reduceCtorEq, Bool.false_eq_true, if_false]

theorem apply_range {low high : Value} (hp : p.operand = .range low high)
    (hc : cell.isNull = false) : p.apply .between cell = p.isWithin cell low high := by
  simp only [apply, hp, hc, reduceCtorEq, Bool.false_eq_true, if_false]

/-- Equality and tests of text have an answer for every cell. -/
theorem apply_scalar_ok (hp : p.operand = .scalar v) (hc : cell.isNull = false) {op : Operator}
    (hop : op ∈ [.eq, .is, .contains, .beginsWith, .endsWith]) :
    ∃ b, p.apply op cell = .ok b := by
  simp only [List.mem_cons, List.not_mem_nil, or_false] at hop
  rcases hop with rfl | rfl | rfl | rfl | rfl
  all_goals
    simp only [apply, hp, hc, reduceCtorEq, Bool.false_eq_true, if_false]
    exact ⟨_, rfl⟩

/-- The other tests of a single literal look at the order. -/
theorem apply_scalar_order (hp : p.operand = .scalar v) (hc : cell.isNull = false) {op : Operator}
    (hop : op ∈ [.lt, .le, .gt, .ge]) :
    ∃ test : Ordering → Bool, p.apply op cell = (p.order cell v).map test := by
  simp only [List.mem_cons, List.not_mem_nil, or_false] at hop
  rcases hop with rfl | rfl | rfl | rfl
  all_goals
    simp only [apply, hp, hc, reduceCtorEq, Bool.false_eq_true, if_false]
    exact ⟨_, rfl⟩

theorem order_eq_error_iff (hv : v.isNull = false) : p.order cell v = .error e ↔
    p.type.isTextual = false ∧ cell.compare? v = none ∧ e = .evaluation p (.unordered cell v) := by
  cases ht : p.type.isTextual with
  | true => simp [order_of_isTextual hv ht]
  | false =>
    cases hcmp : cell.compare? v with
    | none => simp [order_of_compare?_none hv ht hcmp, eq_comm]
    | some o => simp [order_of_compare? hv ht hcmp]

theorem isWithin_eq_error_iff {low high : Value} (hlow : low.isNull = false)
    (hhigh : high.isNull = false) : p.isWithin cell low high = .error e ↔
      p.type.isTextual = false ∧ ∃ literal, (Operand.range low high).unordered? cell = some literal ∧
        e = .evaluation p (.unordered cell literal) := by
  rw [isWithin_of_order hlow hhigh]
  cases ht : p.type.isTextual with
  | true =>
    rw [order_of_isTextual hlow ht, order_of_isTextual hhigh ht]
    by_cases ho : compare cell.toText low.toText = .lt
    all_goals simp [ho, pure, Except.pure, bind, Except.bind]
  | false =>
    cases hl : cell.compare? low with
    | none =>
      rw [order_of_compare?_none hlow ht hl]
      simp [Operand.unordered?, hl, bind, Except.bind, eq_comm]
    | some o =>
      rw [order_of_compare? hlow ht hl]
      by_cases ho : o = .lt
      · simp [Operand.unordered?, hl, ho, pure, Except.pure, bind, Except.bind]
      · -- the cell has reached the lower bound, so the upper one decides
        cases hh : cell.compare? high with
        | none =>
          rw [order_of_compare?_none hhigh ht hh]
          simp [Operand.unordered?, hl, hh, ho, bind, Except.bind, eq_comm]
        | some o' =>
          rw [order_of_compare? hhigh ht hh]
          simp [Operand.unordered?, hl, hh, ho, pure, Except.pure, bind, Except.bind]

/-- A well-typed predicate has no answer for a cell exactly if it cannot order the cell, and the error
says so. -/
theorem WellTyped.answer_eq_error_iff (h : p.WellTyped) : p.answer cell = .error e ↔
    ∃ literal, p.IsUnordered cell literal ∧ e = .evaluation p (.unordered cell literal) := by
  rw [answer_eq_error_iff_apply]
  -- where there is an answer, it is enough that the cell is not unordered
  have answered {op : Operator} (hok : ∃ b, p.apply op cell = .ok b)
      (hno : ∀ literal, ¬ p.IsUnordered cell literal) : p.apply op cell = .error e ↔
      ∃ literal, p.IsUnordered cell literal ∧ e = .evaluation p (.unordered cell literal) := by
    obtain ⟨b, hb⟩ := hok
    rw [hb]
    constructor
    · intro he
      cases he
    · rintro ⟨literal, hu, -⟩
      exact absurd hu (hno literal)
  cases hc : cell.isNull with
  | true =>
    refine answered (apply_of_isNull hc _) ?_
    intro literal hu
    rw [hu.2.2.1] at hc
    cases hc
  | false =>
    have hshape := h.shape
    have hbounds := h.bounds
    cases hp : p.operand with
    | none =>
      rw [hp] at hshape
      obtain ⟨hpos, hord⟩ := positive_of_none hshape.symm
      rw [hpos]
      refine answered ⟨_, apply_null cell⟩ ?_
      intro literal hu
      rw [hu.1] at hord
      cases hord
    | set vs =>
      rw [hp] at hshape
      obtain ⟨hpos, hord⟩ := positive_of_set hshape.symm
      refine answered ⟨_, apply_set hp hc hpos⟩ ?_
      intro literal hu
      rw [hu.1] at hord
      cases hord
    | range low high =>
      rw [hp] at hshape hbounds
      obtain ⟨hpos, hord⟩ := positive_of_range hshape.symm
      rw [hpos, apply_range hp hc, isWithin_eq_error_iff (hbounds low (by simp [Operand.bounds]))
        (hbounds high (by simp [Operand.bounds]))]
      simp [IsUnordered, hord, hc, hp, and_assoc]
    | scalar v =>
      rw [hp] at hshape hbounds
      have hv : v.isNull = false := hbounds v (by simp [Operand.bounds])
      rcases positive_of_scalar hshape.symm with ⟨hpos, hord⟩ | ⟨hpos, hord⟩
      · -- the answer is a test of the order, which decides whether there is one
        obtain ⟨test, happly⟩ := apply_scalar_order hp hc hpos
        rw [happly, map_eq_error_iff, order_eq_error_iff hv]
        simp [IsUnordered, hord, hc, hp, Operand.unordered?, and_assoc]
      · refine answered (apply_scalar_ok hp hc hpos) ?_
        intro literal hu
        rw [hu.1] at hord
        cases hord

end Predicate

/-! ## Compiled predicates -/

theorem Literal.isNull_of_read? {type : LogicalType} {s : List Char} {v : Value}
    (h : Literal.read? type s = some v) : v.isNull = false := by
  have hmap {α : Type} {f : α → Value} (hf : ∀ a, (f a).isNull = false) {o : Option α}
      (ho : o.map f = some v) : v.isNull = false := by
    obtain ⟨a, _, rfl⟩ := Option.map_eq_some_iff.1 ho
    exact hf a
  cases type with
  | integer =>
    -- a whole number, or else a decimal one
    rcases Option.or_eq_some_iff.1 h with h | ⟨_, h⟩
    · exact hmap (fun _ => rfl) h
    · exact hmap (fun _ => rfl) h
  | float => exact hmap (fun _ => rfl) h
  | boolean => exact hmap (fun _ => rfl) h
  | string | datetime | date | time | unknown =>
    cases h
    rfl

/-- A literal that was written is never missing. -/
theorem Literal.isNull_cast (raw : List Char) (type : LogicalType) :
    (Literal.cast raw type).isNull = false := by
  rw [Literal.cast]
  cases h : Literal.read? type (Literal.unquote raw) with
  | none => rfl
  | some v => exact Literal.isNull_of_read? h

namespace Compile

open Query (Clause)

variable {user : String} {found : Resolved}

/-- A compiled operand fits its operator. -/
theorem fits_of_plainOperand {c : Clause} {type : LogicalType} {operand : Operand}
    (h : plainOperand user found c type = .ok operand) :
    operand.shape = c.operator.shape ∧ ∀ v ∈ operand.bounds, v.isNull = false := by
  unfold plainOperand at h
  cases hshape : c.operator.shape with
  | none =>
    rw [hshape] at h
    cases h
    exact ⟨rfl, fun v hv => (nomatch hv)⟩
  | scalar =>
    rw [hshape] at h
    cases h
    exact ⟨rfl, List.forall_mem_singleton.2 (Literal.isNull_cast _ _)⟩
  | range =>
    rw [hshape] at h
    obtain ⟨b, _, rfl⟩ := map_eq_ok h
    exact ⟨rfl, List.forall_mem_cons.2 ⟨Literal.isNull_cast _ _,
      List.forall_mem_singleton.2 (Literal.isNull_cast _ _)⟩⟩
  | set =>
    rw [hshape] at h
    -- both kinds of sets are sets, and a list that was not looked up is no operand
    have hset : ∃ vs, operand = .set vs := by
      simp only at h
      split at h
      · split at h
        · cases h
          exact ⟨_, rfl⟩
        · cases h
      · cases h
        exact ⟨_, rfl⟩
    obtain ⟨vs, rfl⟩ := hset
    exact ⟨rfl, fun v hv => (nomatch hv)⟩

theorem wellTyped_of_plainPredicate {c : Clause × LogicalType} {p : Predicate}
    (h : plainPredicate user found c = .ok p) : p.WellTyped := by
  unfold plainPredicate at h
  split at h
  · -- a test against the word `null` has become one without a literal
    cases h
    exact ⟨rfl, fun v hv => (nomatch hv)⟩
  · obtain ⟨operand, hoperand, rfl⟩ := map_eq_ok h
    obtain ⟨hshape, hbounds⟩ := fits_of_plainOperand hoperand
    exact ⟨hshape, hbounds⟩

/-- The predicates of a compiled filter are well typed. -/
theorem wellTyped_of_text {schema : Schema} {lists : Literal.NamedLists} {user source : String}
    {e : Compiled} (h : (text schema lists user source).outcome = .ok e) :
    ∀ p ∈ e.predicates, p.WellTyped := by
  obtain ⟨query, _, h⟩ := text_eq_ok h
  obtain ⟨checked, found, _, _, hmap⟩ := formula_eq_ok h
  intro p hp
  obtain ⟨c, _, hc⟩ := exists_of_mapM_eq_ok hmap p hp
  exact wellTyped_of_plainPredicate hc

end Compile

/-! ## Rows -/

/-- A row that is as wide as the columns of a table has a cell under each of them. -/
theorem Table.InStep.cellOf_of_mem {t : Table} (ht : t.InStep) {name : String} {row : Row}
    (h : name ∈ t.columns) (hrow : row.length = t.columns.length) :
    ∃ cell, cellOf t.places name row = .ok cell := by
  obtain ⟨i, hi⟩ := List.mem_iff_getElem?.1 h
  have hplace : t.places.find? name = some i := ht.columnIndex?_eq_some_iff.2 hi
  have hlt : i < row.length := hrow ▸ (List.getElem?_eq_some_iff.1 hi).1
  refine ⟨row[i], ?_⟩
  rw [cellOf, hplace, Option.bind_some, List.getElem?_eq_getElem hlt]

theorem Evaluator.new_of_columns {places : Places} {e : Compiled}
    (h : ∀ name ∈ e.columns, places.contains name = true) :
    Evaluator.new places e = .ok ⟨places, e.root.number⟩ := by
  have hnone : (e.columns.find? fun name => !places.contains name) = none := by
    rw [List.find?_eq_none]
    intro name hname
    simpa using h name hname
  rw [Evaluator.new, hnone]

/-- **Type soundness.** On a table that has the columns of a compiled filter, a predicate of the filter
fails on a row exactly if it is an ordering test of a column that does not compare as text and finds a
cell that is not missing and has no order with the literal; the error names both. -/
theorem testLeaf_error_iff {schema : Schema} {lists : Literal.NamedLists} {user source : String}
    {e : Compiled} (h : (Compile.text schema lists user source).outcome = .ok e) {t : Table} (ht : t.IsValid)
    (hcolumns : ∀ name ∈ e.columns, name ∈ t.columns) :
    ∃ ev, Evaluator.new t.places e = .ok ev ∧ ev.leaves.map Prod.snd = e.predicates ∧
      ∀ leaf ∈ ev.leaves, ∀ row : Row, row.length = t.columns.length →
        ∃ cell, cellOf t.places leaf.2.column row = .ok cell ∧
          ∀ seen err, ((ev.testLeaf row leaf).run.run seen).1 = .error err ↔
            ∃ literal, leaf.2.IsUnordered cell literal ∧
              err = .evaluation leaf.2 (.unordered cell literal) := by
  have hleaves := Formula.map_snd_leaves_number e.root
  have hplaces : ∀ name ∈ e.columns, t.places.contains name = true :=
    fun name hname => ht.contains_iff.2 (hcolumns name hname)
  refine ⟨_, Evaluator.new_of_columns hplaces, hleaves, ?_⟩
  intro leaf hleaf row hrow
  have hp : leaf.2 ∈ e.predicates := by
    rw [Compiled.predicates, ← hleaves]
    exact List.mem_map_of_mem hleaf
  have hcolumn := hcolumns _ (Compiled.mem_columns.2 ⟨leaf.2, hp, rfl⟩)
  obtain ⟨cell, hcell⟩ := ht.cellOf_of_mem hcolumn hrow
  refine ⟨cell, hcell, ?_⟩
  intro seen err
  -- noticing what is compared does not change the answer
  rw [Evaluator.testLeaf_result, Evaluator.answer, hcell]
  exact (Compile.wellTyped_of_text h _ hp).answer_eq_error_iff

/-- A cell that has reached the lower bound of a range cannot be ordered against a bound that is no
number. -/
theorem testLeaf_error_iff_notBetween :
    let source := "#\x7bage\x7d notBetween \x7b1, x\x7d"
    let p : Predicate :=
      ⟨"age", .integer, .notBetween, .range (.int 1) (.text "x"), some "1, x", 0⟩
    let t : Table := .of ["age"] [[.int 3]]
    (Compile.text ⟨[("age", .integer)]⟩ .empty "u" source).outcome = .ok ⟨source, .leaf p⟩ ∧
      t.IsValid ∧ (∀ name ∈ (⟨source, .leaf p⟩ : Compiled).columns, name ∈ t.columns) ∧
      ∃ ev, Evaluator.new t.places ⟨source, .leaf p⟩ = .ok ev ∧ ∀ leaf ∈ ev.leaves, ∀ seen,
        ((ev.testLeaf [.int 3] leaf).run.run seen).1 =
          .error (.evaluation p (.unordered (.int 3) (.text "x"))) := by
  intro source p t
  have hparse : Query.parse source = .ok (.leaf ⟨"age", 0, .notBetween, some "1, x"⟩) := by
    have hsource : source = Query.render (.leaf ⟨"age", 0, .notBetween, some "1, x"⟩) := by
      decide +kernel
    rw [hsource, Query.parse_render_eq (by decide +kernel) (by decide +kernel)]
    rfl
  have h : (Compile.text ⟨[("age", .integer)]⟩ .empty "u" source).outcome =
      .ok ⟨source, .leaf p⟩ := by
    rw [Compile.text, hparse]
    rfl
  have ht : t.IsValid := Table.isValid_of (by decide) (by decide)
  have hcolumns : ∀ name ∈ (⟨source, .leaf p⟩ : Compiled).columns, name ∈ t.columns := by decide
  refine ⟨h, ht, hcolumns, ?_⟩
  obtain ⟨ev, hev, hleaves, hall⟩ := testLeaf_error_iff h ht hcolumns
  refine ⟨ev, hev, fun leaf hleaf seen => ?_⟩
  have hp : leaf.2 = p := by
    have hmem := List.mem_map_of_mem (f := Prod.snd) hleaf
    rw [hleaves] at hmem
    exact List.mem_singleton.1 hmem
  obtain ⟨cell, hcell, hiff⟩ := hall leaf hleaf [.int 3] rfl
  rw [hp] at hcell hiff
  obtain rfl : Value.int 3 = cell := Except.ok.inj hcell
  exact (hiff seen _).2 ⟨.text "x", by decide +kernel, rfl⟩

end RowFilter
