import RowFilter.Proofs.Passes

/-!
# RowFilter — operands of clauses

Casts report what they fall back on, but they never fail, and what they report does not count. Here the
passes of the compiler that build operands are brought down to plain functions of the literal: each
operator takes operands of one shape, and the shape decides how the literal is read.

Main results:

* `Compile.outcome_operandTraced` — the operand of a clause, by the shape that its operator takes.
* `Compile.outcome_predicateTraced` — the predicate of a clause.
* `Compile.formula_eq_ok` — the passes that a compiled filter has gone through.
-/

namespace RowFilter

/-! ## Shapes -/

namespace Operand

/-- What an operand consists of. -/
inductive Shape
  | none
  | scalar
  | set
  | range
deriving DecidableEq, Repr

/-- The shape of an operand. -/
def shape : Operand → Shape
  | none => .none
  | scalar _ => .scalar
  | set _ => .set
  | range _ _ => .range

end Operand

/-- The shape of the operands that an operator takes. -/
def Operator.shape : Operator → Operand.Shape
  | null | notNull => .none
  | inSet | notInSet | inUserList | notInUserList => .set
  | between | notBetween => .range
  | _ => .scalar

/-! ## Literals -/

namespace Literal

theorem outcome_castAllTraced (raws : List (List Char)) (type : LogicalType) :
    (castAllTraced raws type).outcome = .ok (raws.map fun raw => cast raw type) := by
  rw [castAllTraced, Traced.outcome_mapM]
  simp only [outcome_castTraced]
  exact List.mapM_pure

theorem outcome_rangeTraced (raw : List Char) (type : LogicalType) :
    (rangeTraced raw type).outcome =
      (bounds raw).map fun b => (cast b.1 type, cast b.2 type) := by
  rw [rangeTraced, Traced.outcome_bind, Traced.outcome_ofExcept]
  cases bounds raw with
  | error e => rfl
  | ok b =>
    rw [ok_bind, Traced.outcome_bind_ok (outcome_castTraced b.1 type),
      Traced.outcome_bind_ok (outcome_castTraced b.2 type)]
    rfl

/-- An item of a named list as a value of a type, without what its cast reports. -/
def castItem (type : LogicalType) (item : Value) : Value :=
  if item.isNull then .null else cast item.toText.toList type

theorem outcome_castItemTraced (type : LogicalType) (item : Value) :
    (castItemTraced type item).outcome = .ok (castItem type item) := by
  unfold castItemTraced castItem
  split
  · rfl
  · exact outcome_castTraced _ _

/-- A named list that is there gives a value for each of its items. -/
theorem outcome_resolveTraced (lists : NamedLists) (user : String) (name : List Char)
    (type : LogicalType) : (resolveTraced lists user name type).outcome =
      (namedList lists user (String.ofList (unquote name))).map fun items =>
        items.map (castItem type) := by
  rw [resolveTraced, Traced.outcome_bind, Traced.outcome_ofExcept]
  cases namedList lists user (String.ofList (unquote name)) with
  | error e => rfl
  | ok items =>
    -- the look-up is reported, and then the items are cast one by one
    show (items.mapM (castItemTraced type)).outcome = _
    rw [Traced.outcome_mapM]
    simp only [outcome_castItemTraced]
    exact List.mapM_pure

end Literal

/-! ## Clauses -/

namespace Compile

open Query (Clause)

/-- The operand of a clause, without what its casts report. -/
def plainOperand (user : String) (found : Resolved) (c : Clause) (type : LogicalType) :
    Except FilterError Operand :=
  match c.operator.shape with
  | .none => .ok .none
  | .scalar => .ok (.scalar (Literal.cast (rawOf c) type))
  | .range => (Literal.bounds (rawOf c)).map fun b =>
      .range (Literal.cast b.1 type) (Literal.cast b.2 type)
  | .set =>
    if takesList c.operator then
      match found.lookup (listKey c type) with
      | some items => .ok (.set items)
      | none => .error (.listNotFound user (listKey c type).1)
    else .ok (.set (Literal.castElements (rawOf c) type))

theorem outcome_operandTraced (user : String) (found : Resolved) (c : Clause) (type : LogicalType) :
    (operandTraced user found c type).outcome = plainOperand user found c type := by
  have hscalar : (do return Operand.scalar (← Literal.castTraced (rawOf c) type) :
      Traced Operand).outcome = .ok (.scalar (Literal.cast (rawOf c) type)) := by
    rw [Traced.outcome_bind, Literal.outcome_castTraced]
    rfl
  have hset : (do return Operand.set (← Literal.castAllTraced (Literal.elements (rawOf c)) type) :
      Traced Operand).outcome = .ok (.set (Literal.castElements (rawOf c) type)) := by
    rw [Traced.outcome_bind, Literal.outcome_castAllTraced]
    rfl
  have hrange : (do
      let b ← Literal.rangeTraced (rawOf c) type
      return Operand.range b.1 b.2 : Traced Operand).outcome =
      (Literal.bounds (rawOf c)).map fun b =>
        .range (Literal.cast b.1 type) (Literal.cast b.2 type) := by
    rw [Traced.outcome_bind, Literal.outcome_rangeTraced]
    cases Literal.bounds (rawOf c) <;> rfl
  unfold operandTraced plainOperand
  -- the names of lists are looked up, so there is nothing to cast for them
  cases hop : c.operator with
  | null | notNull => rfl
  | inSet | notInSet => exact hset
  | inUserList | notInUserList => cases found.lookup (listKey c type) <;> rfl
  | between | notBetween => exact hrange
  | eq | ne | lt | le | gt | ge | is | contains | doesNotContain | beginsWith | endsWith =>
    exact hscalar

/-- The predicate of a checked clause, without what its casts report. -/
def plainPredicate (user : String) (found : Resolved) (c : Clause × LogicalType) :
    Except FilterError Predicate :=
  if c.1.operator = .is ∧ isNullWord (rawOf c.1) then
    .ok ⟨c.1.column, c.2, .null, .none, c.1.value, c.1.offset⟩
  else (plainOperand user found c.1 c.2).map fun operand =>
    ⟨c.1.column, c.2, c.1.operator, operand, c.1.value, c.1.offset⟩

theorem outcome_predicateTraced (user : String) (found : Resolved) (c : Clause × LogicalType) :
    (predicateTraced user found c).outcome = plainPredicate user found c := by
  unfold predicateTraced plainPredicate
  simp only
  split
  · rfl
  · rw [Traced.outcome_bind, outcome_operandTraced]
    cases plainOperand user found c.1 c.2 <;> rfl

/-- The predicates of a checked query are those of its clauses, in the order of the leaves. -/
theorem outcome_traverse_predicateTraced (user : String) (found : Resolved)
    (checked : Formula (Clause × LogicalType)) :
    (checked.traverse (predicateTraced user found)).outcome.map Formula.leaves =
      checked.leaves.mapM (plainPredicate user found) := by
  rw [← Traced.outcome_map, Formula.leaves_traverse, Traced.outcome_mapM]
  simp only [outcome_predicateTraced]

/-- A compiled filter has gone through all three passes, and its predicates are those of the checked
clauses. -/
theorem formula_eq_ok {schema : Schema} {lists : Literal.NamedLists} {user source : String}
    {query : Formula Clause} {e : Compiled}
    (h : (formula schema lists user source query).outcome = .ok e) :
    ∃ checked found, query.traverse (checkClause schema) = .ok checked ∧
      (resolveAll lists user checked.leaves).outcome = .ok found ∧
      checked.leaves.mapM (plainPredicate user found) = .ok e.predicates := by
  rw [formula_eq] at h
  obtain ⟨checked, hchecked, h⟩ := Traced.outcome_bind_eq_ok h
  obtain ⟨found, hfound, h⟩ := Traced.outcome_bind_eq_ok h
  obtain ⟨root, hroot, h⟩ := Traced.outcome_bind_eq_ok h
  have he : e = ⟨source, root⟩ := by
    rw [Traced.outcome_bind, Traced.outcome_report] at h
    cases h
    rfl
  refine ⟨checked, found, hchecked, hfound, ?_⟩
  rw [← outcome_traverse_predicateTraced, hroot, he]
  rfl

/-- A text that compiles is a query that was read. -/
theorem text_eq_ok {schema : Schema} {lists : Literal.NamedLists} {user source : String}
    {e : Compiled} (h : (text schema lists user source).outcome = .ok e) :
    ∃ query, Query.parse source = .ok query ∧
      (formula schema lists user source query).outcome = .ok e :=
  Traced.outcome_bind_eq_ok h

end Compile

end RowFilter
