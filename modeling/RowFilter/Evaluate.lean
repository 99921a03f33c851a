import RowFilter.Table
import RowFilter.Text.Search
import RowFilter.Traced

/-!
# RowFilter — applying predicates to rows

A predicate is tested on one cell of a row. A negated operator gives the opposite answer of the
operator that it negates, so a missing cell fails every positive test but the one for missing values.
Cells of textual columns compare as text. An equality test of a cell and a literal without a common
order is no match; an ordering test of such a pair is an error.

An evaluator applies a whole filter to rows, one after the other. For each of its predicates it
remembers the first equality test without an order, which is worth a warning; the answers never depend
on what it remembers.

Main results:

* `Predicate.answer_of_negates` — a negated operator gives the opposite answer.
* `Evaluator.answers_holds` — what an evaluator has noticed never changes its answers.
-/

namespace RowFilter

/-! ## One predicate -/

namespace Predicate

/-- The order of a cell that is not missing and a literal. -/
def order? (p : Predicate) (cell literal : Value) : Option Ordering :=
  if literal.isNull then none
  else if p.type.isTextual then some (compare cell.toText literal.toText)
  else cell.compare? literal

/-- Equality; no order is no match. -/
def equals (p : Predicate) (cell literal : Value) : Bool := p.order? cell literal == some .eq

/-- The order of a cell and a literal, or an error. -/
def order (p : Predicate) (cell literal : Value) : Except FilterError Ordering :=
  match p.order? cell literal with
  | some o => .ok o
  | none => .error (.evaluation p (.unordered cell literal))

/-- The cell lies between two bounds. A missing bound lets nothing through, and the upper bound is
looked at only for a cell that has reached the lower one. -/
def isWithin (p : Predicate) (cell low high : Value) : Except FilterError Bool :=
  if low.isNull || high.isNull then .ok false
  else do
    -- a cell below the range never meets the upper bound
    let lowOrder ← p.order cell low
    if lowOrder = .lt then return false
    let highOrder ← p.order cell high
    return highOrder ≠ .gt

/-- Tests a part of the text of a cell, in any case. -/
def testText (test : List Char → List Char → Bool) (cell literal : Value) : Bool :=
  test (Text.lowercase literal.toText.toList) (Text.lowercase cell.toText.toList)

/-- The answer of a positive operator. -/
def apply (p : Predicate) (op : Operator) (cell : Value) : Except FilterError Bool :=
  if op = .null then .ok cell.isNull
  else if cell.isNull then .ok false
  else match op, p.operand with
    | .eq, .scalar v => .ok (p.equals cell v)
    | .is, .scalar v => .ok (p.equals cell v)
    | .lt, .scalar v => (p.order cell v).map (· == .lt)
    | .le, .scalar v => (p.order cell v).map (· != .gt)
    | .gt, .scalar v => (p.order cell v).map (· == .gt)
    | .ge, .scalar v => (p.order cell v).map (· != .lt)
    | .inSet, .set vs => .ok (vs.any (p.equals cell))
    | .inUserList, .set vs => .ok (vs.any (p.equals cell))
    | .between, .range low high => p.isWithin cell low high
    | .contains, .scalar v => .ok (testText Text.occursIn cell v)
    | .beginsWith, .scalar v => .ok (testText List.isPrefixOf cell v)
    | .endsWith, .scalar v => .ok (testText List.isSuffixOf cell v)
    | _, operand => .error (.evaluation p (.misfit operand op))

/-- The operator whose answer counts: the one that is negated, or the operator itself. -/
def positive (p : Predicate) : Operator := p.operator.negates?.getD p.operator

/-- The answer for a cell. -/
def answer (p : Predicate) (cell : Value) : Except FilterError Bool :=
  if p.operator.negates?.isSome then (p.apply p.positive cell).map not
  else p.apply p.positive cell

theorem answer_of_negates {p : Predicate} {op : Operator} (h : p.operator.negates? = some op)
    (cell : Value) : p.answer cell = (p.apply op cell).map not := by
  simp [answer, positive, h]

end Predicate

/-! ## Noticing clashes -/

/-- A clash that was noticed, with the position of its predicate. -/
structure Clash where
  position : Nat
  predicate : Predicate
  cell : Value
  literal : Value
deriving DecidableEq, Repr

/-- The event of a clash. -/
def Clash.event (c : Clash) : Event := .typeClash c.predicate c.cell c.literal

/-- Work that notices clashes. -/
abbrev Noticing := Stateful (List Clash) FilterError

namespace Noticing

variable {α β : Type}

/-- An outcome with the clashes that were noticed on the way, starting from none. -/
def traced (x : Noticing α) : Traced α :=
  let (outcome, seen) := x.run.run []
  ⟨seen.map Clash.event, outcome⟩

/-- A piece of work answers like `y` whatever was noticed before. -/
def Answers (x : Noticing α) (y : Except FilterError α) : Prop := ∀ seen, (x.run.run seen).1 = y

theorem outcome_traced {x : Noticing α} {y : Except FilterError α} (h : x.Answers y) :
    x.traced.outcome = y := h []

theorem answers_pure (a : α) : Answers (pure a) (.ok a) := fun _ => rfl

theorem answers_ofExcept (x : Except FilterError α) : Answers (.ofExcept x) x := fun _ => rfl

theorem answers_bind {x : Noticing α} {y : Except FilterError α} {f : α → Noticing β}
    {g : α → Except FilterError β} (hx : x.Answers y) (hf : ∀ a, (f a).Answers (g a)) :
    (x >>= f).Answers (y >>= g) := by
  intro seen
  rw [Stateful.run_bind, ← hx seen]
  rcases x.run.run seen with ⟨r, seen'⟩
  cases r with
  | error e => rfl
  | ok a => exact hf a seen'

theorem answers_map {x : Noticing α} {y : Except FilterError α} (f : α → β) (hx : x.Answers y) :
    Answers (f <$> x) (y.map f) := by
  intro seen
  rw [Stateful.run_map, hx seen]

theorem answers_evalM {test : α → Noticing Bool} {answer : α → Except FilterError Bool}
    (h : ∀ a, (test a).Answers (answer a)) (f : Formula α) :
    Answers (f.evalM test) (f.evalM answer) :=
  Formula.evalM_related answers_pure (fun _ _ _ _ => answers_bind) f fun a _ => h a

theorem answers_mapM {f : α → Noticing β} {g : α → Except FilterError β}
    (h : ∀ a, (f a).Answers (g a)) (xs : List α) : Answers (xs.mapM f) (xs.mapM g) := by
  induction xs with
  | nil => exact answers_pure []
  | cons x xs ih =>
    rw [List.mapM_cons, List.mapM_cons]
    exact answers_bind (h x) fun y => answers_bind ih fun ys => answers_pure (y :: ys)

/-- A search for an element that passes a test, where the test notices clashes. -/
theorem answers_anyM {f : α → Noticing Bool} {g : α → Bool} (h : ∀ a, (f a).Answers (.ok (g a)))
    (xs : List α) : Answers (xs.anyM f) (.ok (xs.any g)) := by
  induction xs with
  | nil => exact answers_pure false
  | cons x xs ih =>
    rw [List.anyM_cons, List.any_cons]
    -- the search goes on just behind an element that fails the test
    have hrest : ∀ b : Bool, Answers (if b then pure true else xs.anyM f)
        (if b then .ok true else .ok (xs.any g)) := by
      intro b
      cases b with
      | true => exact answers_pure true
      | false => exact ih
    have hbind := answers_bind (h x) hrest
    cases hx : g x with
    | true =>
      rw [hx] at hbind
      exact hbind
    | false =>
      rw [hx] at hbind
      exact hbind

end Noticing

/-! ## Rows -/

/-- The cell of a row under a column. -/
def cellOf (places : Places) (name : String) (row : Row) : Except FilterError Value :=
  match (places.find? name).bind fun i => row[i]? with
  | some v => .ok v
  | none => .error (.columnNotFound name)

theorem cellOf_eq_ok {places : Places} {name : String} {row : Row} {cell : Value}
    (h : cellOf places name row = .ok cell) :
    ∃ i, places.find? name = some i ∧ row[i]? = some cell := by
  unfold cellOf at h
  split at h
  · rename_i v hv
    cases h
    exact Option.bind_eq_some_iff.1 hv
  · cases h

theorem contains_of_cellOf {places : Places} {name : String} {row : Row} {cell : Value}
    (h : cellOf places name row = .ok cell) : places.contains name = true := by
  obtain ⟨i, hi, _⟩ := cellOf_eq_ok h
  exact Option.isSome_of_eq_some hi

/-- A filter with numbered predicates, for rows of a table with these columns. -/
structure Evaluator where
  places : Places
  root : Formula (Nat × Predicate)

namespace Evaluator

/-- An evaluator for rows of a table with these columns. The first column of the filter that is not there
is an error. -/
def new (places : Places) (c : Compiled) : Except FilterError Evaluator :=
  match c.columns.find? fun name => !places.contains name with
  | some name => .error (.columnNotFound name)
  | none => .ok ⟨places, c.root.number⟩

/-- Notices a clash, unless its predicate had one before. -/
def notice (clash : Clash) (seen : List Clash) : List Clash :=
  if seen.any fun c => c.position == clash.position then seen else seen ++ [clash]

/-- Tests for equality. Two values without an order are no match, and a clash unless the literal is
missing. -/
def equals (leaf : Nat × Predicate) (cell literal : Value) : Noticing Bool :=
  match leaf.2.order? cell literal with
  | some o => return o == .eq
  | none => do
    unless literal.isNull do
      modify (notice ⟨leaf.1, leaf.2, cell, literal⟩)
    return false

/-- The answer of a positive operator. The search of a list ends with the first match, and no test but that
for equality notices anything. -/
def apply (leaf : Nat × Predicate) (op : Operator) (cell : Value) : Noticing Bool :=
  if cell.isNull then .ofExcept (leaf.2.apply op cell)
  else match op, leaf.2.operand with
    | .eq, .scalar v => equals leaf cell v
    | .is, .scalar v => equals leaf cell v
    | .inSet, .set vs => vs.anyM (equals leaf cell)
    | .inUserList, .set vs => vs.anyM (equals leaf cell)
    | _, _ => .ofExcept (leaf.2.apply op cell)

/-- Tests one predicate on a row. -/
def testLeaf (e : Evaluator) (row : Row) (leaf : Nat × Predicate) : Noticing Bool := do
  let cell ← .ofExcept (cellOf e.places leaf.2.column row)
  if leaf.2.operator.negates?.isSome then not <$> apply leaf leaf.2.positive cell
  else apply leaf leaf.2.positive cell

/-- Tests the whole filter on a row. -/
def holds (e : Evaluator) (row : Row) : Noticing Bool := e.root.evalM (e.testLeaf row)

/-- The leaves of the filter from left to right. -/
def leaves (e : Evaluator) : List (Nat × Predicate) := e.root.leaves

/-! ## What is noticed does not count -/

/-- The answer of a predicate for a row. -/
def answer (places : Places) (p : Predicate) (row : Row) : Except FilterError Bool := do
  p.answer (← cellOf places p.column row)

/-- The answer of the whole filter for a row, with nothing noticed. -/
def verdict (e : Evaluator) (row : Row) : Except FilterError Bool :=
  e.root.evalM fun leaf => answer e.places leaf.2 row

theorem answers_equals (leaf : Nat × Predicate) (cell v : Value) :
    (equals leaf cell v).Answers (.ok (leaf.2.equals cell v)) := by
  intro seen
  unfold equals Predicate.equals
  cases leaf.2.order? cell v with
  | some o => cases o <;> rfl
  | none => cases v.isNull <;> rfl

theorem answers_apply (leaf : Nat × Predicate) (op : Operator) (cell : Value) :
    (apply leaf op cell).Answers (leaf.2.apply op cell) := by
  unfold apply
  split
  · exact Noticing.answers_ofExcept _
  · rename_i hcell
    have hnull : cell.isNull = false := eq_false_of_ne_true hcell
    have hset : ∀ vs : List Value, (vs.anyM (equals leaf cell)).Answers (.ok (vs.any (leaf.2.equals cell))) :=
      Noticing.answers_anyM (answers_equals leaf cell)
    split
    · rename_i v hoperand
      simpa [Predicate.apply, hnull, hoperand] using answers_equals leaf cell v
    · rename_i v hoperand
      simpa [Predicate.apply, hnull, hoperand] using answers_equals leaf cell v
    · rename_i vs hoperand
      simpa [Predicate.apply, hnull, hoperand] using hset vs
    · rename_i vs hoperand
      simpa [Predicate.apply, hnull, hoperand] using hset vs
    · exact Noticing.answers_ofExcept _

theorem answers_testLeaf (e : Evaluator) (row : Row) (leaf : Nat × Predicate) :
    (e.testLeaf row leaf).Answers (answer e.places leaf.2 row) := by
  refine Noticing.answers_bind (Noticing.answers_ofExcept _) fun cell => ?_
  unfold Predicate.answer
  split
  · exact Noticing.answers_map not (answers_apply _ _ _)
  · exact answers_apply _ _ _

theorem testLeaf_result (e : Evaluator) (row : Row) (leaf : Nat × Predicate) (seen : List Clash) :
    ((e.testLeaf row leaf).run.run seen).1 = answer e.places leaf.2 row :=
  e.answers_testLeaf row leaf seen

theorem answers_holds (e : Evaluator) (row : Row) : (e.holds row).Answers (e.verdict row) :=
  Noticing.answers_evalM (e.answers_testLeaf row) e.root

end Evaluator

end RowFilter
