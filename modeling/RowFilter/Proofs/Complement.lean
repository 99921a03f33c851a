import RowFilter.Proofs.Matches
import RowFilter.Proofs.TypeSoundness

/-!
# RowFilter — negated operators

A negated operator is compiled like the operator that it negates: both pass the same checks, look the
same list up and get the same operand. Their predicates differ in the operator alone, so on each row they
have opposite answers, or none.

Main results:

* `Compile.Pair.plainPredicate` — the two predicates differ in the operator and in where they stand.
* `Predicate.SameTest.answer_negated` — their answers for a cell are opposite.
* `mapM_corresponding` — tests that correspond on some values fail first at the same one, or have results that
  correspond.
* `negated_complements` — the filters of two such clauses share out the rows of a table.
-/

namespace RowFilter

/-! ## Opposite tests -/

/-- The first value at which a sequence of tests fails, and with it the whole sequence. -/
structure FailsFirst {ε α β : Type} (f : α → Except ε β) (xs : List α) (i : Nat) : Prop where
  lt : i < xs.length
  before : ∃ ys, (xs.take i).mapM f = .ok ys
  fails : ∃ err, (xs.take (i + 1)).mapM f = .error err ∧ xs.mapM f = .error err

variable {ε α : Type} {f g : α → Except ε Bool}

theorem FailsFirst.head {x : α} {xs : List α} {err : ε} (h : f x = .error err) :
    FailsFirst f (x :: xs) 0 := by
  have hfails : ∀ rest, (x :: rest).mapM f = .error err := by
    intro rest
    rw [List.mapM_cons, h]
    rfl
  exact ⟨Nat.zero_lt_succ _, ⟨[], rfl⟩, err, hfails _, hfails _⟩

theorem FailsFirst.tail {x : α} {xs : List α} {i : Nat} {b : Bool} (hx : f x = .ok b)
    (h : FailsFirst f xs i) : FailsFirst f (x :: xs) (i + 1) := by
  have hcons : ∀ rest, (x :: rest).mapM f = (rest.mapM f).map (b :: ·) := by
    intro rest
    rw [List.mapM_cons, hx]
    show (rest.mapM f >>= fun bs => pure (b :: bs)) = _
    cases rest.mapM f <;> rfl
  obtain ⟨hlt, ⟨ys, hys⟩, err, hfails, hall⟩ := h
  refine ⟨Nat.succ_lt_succ hlt, ⟨b :: ys, ?_⟩, err, ?_, ?_⟩
  · rw [List.take_succ_cons, hcons, hys]
    rfl
  · rw [List.take_succ_cons, hcons, hfails]
    rfl
  · rw [hcons, hall]
    rfl

/-- Tests whose results correspond on each of some values fail first at the same value, or have results that
correspond one by one. -/
theorem mapM_corresponding (turn : Bool → Bool) (xs : List α)
    (h : ∀ x ∈ xs, (g x).toOption = (f x).toOption.map turn) :
    (∃ i, FailsFirst f xs i ∧ FailsFirst g xs i) ∨
      ∃ bs, xs.mapM f = .ok bs ∧ xs.mapM g = .ok (bs.map turn) := by
  induction xs with
  | nil => exact .inr ⟨[], rfl, rfl⟩
  | cons x xs ih =>
    have hx := h x List.mem_cons_self
    have hrest := ih fun y hy => h y (List.mem_cons_of_mem x hy)
    cases hf : f x with
    | error err =>
      cases hg : g x with
      | error err' => exact .inl ⟨0, .head hf, .head hg⟩
      | ok b => rw [hf, hg] at hx; cases hx
    | ok b =>
      cases hg : g x with
      | error err => rw [hf, hg] at hx; cases hx
      | ok b' =>
        obtain rfl : b' = turn b := by
          rw [hf, hg] at hx
          exact Option.some.inj hx
        rcases hrest with ⟨i, hfi, hgi⟩ | ⟨bs, hfs, hgs⟩
        · exact .inl ⟨i + 1, hfi.tail hf, hgi.tail hg⟩
        · refine .inr ⟨b :: bs, ?_, ?_⟩
          · rw [List.mapM_cons, hf, hfs]
            rfl
          · rw [List.mapM_cons, hg, hgs]
            rfl

/-! ## Operators -/

namespace Operator

/-- What a negated operator has in common with the one that it negates. -/
structure Negates (neg op : Operator) : Prop where
  negates : neg.negates? = some op
  positive : op.negates? = none
  shape : neg.shape = op.shape
  supports : ∀ type, neg.supports type = op.supports type
  range : Compile.takesRange neg = Compile.takesRange op
  list : Compile.takesList neg = Compile.takesList op
  ne_is : neg ≠ .is ∧ op ≠ .is

theorem negates_of_eq {neg op : Operator} (h : neg.negates? = some op) : neg.Negates op := by
  cases neg <;> cases h
  all_goals exact ⟨rfl, rfl, rfl, fun _ => rfl, rfl, rfl, by decide, by decide⟩

end Operator

/-! ## Predicates -/

namespace Predicate

variable {p q : Predicate}

/-- A predicate with the same type and operand as another one. -/
structure SameTest (p q : Predicate) : Prop where
  column : p.column = q.column
  type : p.type = q.type
  operand : p.operand = q.operand

theorem order?_congr (h : p.type = q.type) (cell v : Value) : p.order? cell v = q.order? cell v := by
  rw [order?, order?, h]

theorem SameTest.order? (h : p.SameTest q) (cell v : Value) : p.order? cell v = q.order? cell v :=
  order?_congr h.type cell v

theorem SameTest.order (h : p.SameTest q) (cell v : Value) :
    (p.order cell v).toOption = (q.order cell v).toOption := by
  rw [Predicate.order, Predicate.order, h.order?]
  cases q.order? cell v <;> rfl

theorem SameTest.isWithin (h : p.SameTest q) (cell low high : Value) :
    (p.isWithin cell low high).toOption = (q.isWithin cell low high).toOption := by
  unfold Predicate.isWithin
  split
  · rfl
  · rw [toOption_bind, toOption_bind, h.order cell low]
    congr 1
    funext o
    split
    · rfl
    · rw [toOption_bind, toOption_bind, h.order cell high]

/-- The answer of an operator depends on the type and the operand alone. -/
theorem SameTest.apply (h : p.SameTest q) (op : Operator) (cell : Value) :
    (p.apply op cell).toOption = (q.apply op cell).toOption := by
  have hequals : p.equals cell = q.equals cell := by
    funext v
    rw [equals, equals, h.order?]
  unfold Predicate.apply
  rw [h.operand]
  split
  · rfl
  · split
    · rfl
    · generalize q.operand = operand
      split
      -- an equality test has an answer in any case, and an ordering test looks at the order
      case h_1 | h_2 | h_7 | h_8 => rw [hequals]
      case h_3 | h_4 | h_5 | h_6 => rw [toOption_map, toOption_map, h.order]
      case h_9 => exact h.isWithin cell _ _
      all_goals rfl

/-- The answers of an operator and of the one that negates it are opposite. -/
theorem SameTest.answer_negated (h : p.SameTest q) (hop : q.operator.Negates p.operator)
    (cell : Value) : (q.answer cell).toOption = (p.answer cell).toOption.map not := by
  have hp : p.answer cell = p.apply p.operator cell := by
    simp [answer, positive, hop.positive]
  rw [answer_of_negates hop.negates, hp, toOption_map, h.apply]

end Predicate

theorem Evaluator.answer_negated {p q : Predicate} (h : p.SameTest q)
    (hop : q.operator.Negates p.operator) (places : Places) (row : Row) :
    (answer places q row).toOption = (answer places p row).toOption.map not := by
  rw [answer, answer, h.column]
  cases cellOf places q.column row with
  | error err => rfl
  | ok cell => exact h.answer_negated hop cell

/-! ## Masks -/

/-- The first rows of a table. -/
def Table.firstRows (t : Table) (n : Nat) : Table := { t with rows := t.rows.take n }

namespace Compiled

/-- The first row of a table for which a filter has no answer. It fails the whole mask. -/
structure FailsAt (c : Compiled) (t : Table) (i : Nat) : Prop where
  lt : i < t.rows.length
  before : ∃ bs, (c.mask (t.firstRows i)).outcome = .ok bs
  fails : ∃ err, (c.mask (t.firstRows (i + 1))).outcome = .error err ∧
    (c.mask t).outcome = .error err

/-- Two filters fail at the same row of a table, or each row matches just one of them. -/
inductive Opposite (t : Table) (c c' : Compiled) : Prop
  | fails (i : Nat) (first : c.FailsAt t i) (second : c'.FailsAt t i)
  | shares (bs : List Bool) (found found' : List Nat)
    (mask : (c.mask t).outcome = .ok bs) (mask' : (c'.mask t).outcome = .ok (bs.map not))
    (length : bs.length = t.rows.length)
    (rows : (c.matchingRows t).outcome = .ok found)
    (rows' : (c'.matchingRows t).outcome = .ok found')
    (all : (found ++ found').Perm (List.range t.rows.length))

theorem new_leaf {places : Places} {p : Predicate} (h : places.contains p.column = true) (source : String) :
    Evaluator.new places ⟨source, .leaf p⟩ = .ok ⟨places, .leaf (0, p)⟩ := by
  refine Evaluator.new_of_columns ?_
  intro name hname
  obtain ⟨p', hp', hname'⟩ := mem_columns.1 hname
  obtain rfl : p' = p := List.mem_singleton.1 hp'
  rw [← hname']
  exact h

/-- A mask fails at the first row for which the evaluator has no answer. -/
theorem failsAt_of_verdict {c : Compiled} {t : Table} {e : Evaluator} {i : Nat}
    (hnew : Evaluator.new t.places c = .ok e) (hfails : FailsFirst e.verdict t.rows i) :
    c.FailsAt t i := by
  -- the first rows of the table are tested by the same evaluator
  have hmask : ∀ rows, (c.mask { t with rows := rows }).outcome = rows.mapM e.verdict := by
    intro rows
    rw [outcome_mask, hnew]
    rfl
  obtain ⟨bs, hbs⟩ := hfails.before
  obtain ⟨err, herr, hall⟩ := hfails.fails
  exact ⟨hfails.lt, ⟨bs, (hmask _).trans hbs⟩, err, (hmask _).trans herr, (hmask _).trans hall⟩

/-- Filters of one predicate with opposite tests are opposite on every table with the column. -/
theorem opposite_leaf {p q : Predicate} (h : p.SameTest q) (hop : q.operator.Negates p.operator)
    {t : Table} (ht : t.places.contains p.column = true) (source source' : String) :
    Opposite t ⟨source, .leaf p⟩ ⟨source', .leaf q⟩ := by
  have hnew := new_leaf ht source
  have hnew' := new_leaf (h.column ▸ ht : t.places.contains q.column = true) source'
  rcases mapM_corresponding not t.rows fun row _ => Evaluator.answer_negated h hop t.places row with
    ⟨i, hp, hq⟩ | ⟨bs, hp, hq⟩
  · exact .fails i (failsAt_of_verdict hnew hp) (failsAt_of_verdict hnew' hq)
  · have hmask : ((⟨source, .leaf p⟩ : Compiled).mask t).outcome = .ok bs := by
      rw [outcome_mask, hnew]
      exact hp
    have hmask' : ((⟨source', .leaf q⟩ : Compiled).mask t).outcome = .ok (bs.map not) := by
      rw [outcome_mask, hnew']
      exact hq
    have hlength := length_mask hmask
    refine .shares bs _ _ hmask hmask' hlength (by rw [outcome_matchingRows, hmask]; rfl)
      (by rw [outcome_matchingRows, hmask']; rfl) ?_
    rw [List.range_eq_range', ← hlength]
    exact matchingFrom_not_perm 0 bs

end Compiled

/-! ## Clauses -/

namespace Compile

open Query (Clause)

/-- Two attempts to compile a filter fail in the same way, or give opposite filters. -/
inductive Opposite (t : Table) : Except FilterError Compiled → Except FilterError Compiled → Prop
  | refused {err err' : FilterError} (same : err.kind = err'.kind) :
    Opposite t (.error err) (.error err')
  | compiled {c c' : Compiled} (filters : c.Opposite t c') : Opposite t (.ok c) (.ok c')

variable {schema : Schema} {lists : Literal.NamedLists} {user source : String}

theorem outcome_formula_leaf (c : Clause) :
    (formula schema lists user source (.leaf c)).outcome = (do
      let checked ← checkClause schema c
      let found ← (resolveClause lists user [] checked).outcome
      let p ← plainPredicate user found checked
      return ⟨source, .leaf p⟩) := by
  rw [formula_eq, Traced.outcome_bind, Traced.outcome_ofExcept, Formula.traverse]
  cases checkClause schema c with
  | error err => rfl
  | ok checked =>
    have hresolve : resolveAll lists user [checked] = resolveClause lists user [] checked := by
      rw [resolveAll, List.foldlM_cons]
      exact bind_pure _
    rw [ok_bind, ok_bind, pure_bind, Formula.leaves, hresolve, Traced.outcome_bind]
    congr 1
    funext found
    rw [Traced.outcome_bind, Formula.traverse, Traced.outcome_bind, outcome_predicateTraced]
    cases plainPredicate user found checked <;> rfl

/-- Two clauses on one column with one literal, the second with the negation of the operator of the
first. -/
structure Pair (c c' : Clause) : Prop where
  column : c'.column = c.column
  value : c'.value = c.value
  operator : c'.operator.Negates c.operator

variable {c c' : Clause}

theorem Pair.rawOf (h : Pair c c') : Compile.rawOf c' = Compile.rawOf c := by
  rw [Compile.rawOf, Compile.rawOf, h.value]

/-- The clauses of a pair fail their checks in the same way, or have the same type. -/
theorem Pair.checkClause (h : Pair c c') (schema : Schema) :
    (∃ err err', Compile.checkClause schema c = .error err ∧
      Compile.checkClause schema c' = .error err' ∧ err.kind = err'.kind) ∨
      ∃ type, Compile.checkClause schema c = .ok (c, type) ∧
        Compile.checkClause schema c' = .ok (c', type) := by
  unfold Compile.checkClause
  rw [h.column, h.rawOf, h.operator.range]
  cases schema.find? c.column with
  | none => exact .inl ⟨_, _, rfl, rfl, rfl⟩
  | some type =>
    simp only [h.operator.supports]
    split
    · split
      · -- both have the same bounds
        cases Literal.bounds (Compile.rawOf c) with
        | error err => exact .inl ⟨err, err, rfl, rfl, rfl⟩
        | ok b => exact .inr ⟨type, rfl, rfl⟩
      · exact .inr ⟨type, rfl, rfl⟩
    · exact .inl ⟨_, _, rfl, rfl, rfl⟩

/-- The clauses of a pair look the same list up. -/
theorem Pair.resolveClause (h : Pair c c') (found : Resolved) (type : LogicalType) :
    Compile.resolveClause lists user found (c', type) =
      Compile.resolveClause lists user found (c, type) := by
  unfold Compile.resolveClause Compile.resolveList listKey
  rw [h.operator.list, h.rawOf]

/-- The clauses of a pair get the same operand. -/
theorem Pair.plainOperand (h : Pair c c') (found : Resolved) (type : LogicalType) :
    Compile.plainOperand user found c' type = Compile.plainOperand user found c type := by
  unfold Compile.plainOperand listKey
  rw [h.operator.shape, h.operator.list, h.rawOf]

/-- The predicates of a pair of clauses make opposite tests. -/
theorem Pair.plainPredicate (h : Pair c c') (user : String) (found : Resolved) (type : LogicalType) :
    (∃ err, Compile.plainPredicate user found (c, type) = .error err ∧
      Compile.plainPredicate user found (c', type) = .error err) ∨
      ∃ p q, Compile.plainPredicate user found (c, type) = .ok p ∧
        Compile.plainPredicate user found (c', type) = .ok q ∧ p.SameTest q ∧
        q.operator.Negates p.operator ∧ p.column = c.column := by
  unfold Compile.plainPredicate
  rw [if_neg fun his => h.operator.ne_is.2 his.1, if_neg fun his => h.operator.ne_is.1 his.1,
    h.plainOperand]
  cases Compile.plainOperand user found c type with
  | error err => exact .inl ⟨err, rfl, rfl⟩
  | ok operand =>
    exact .inr ⟨_, _, rfl, rfl, ⟨h.column.symm, rfl, rfl⟩, h.operator, rfl⟩

/-- Filters of a pair of clauses are opposite on every table with the column. -/
theorem Pair.formula (h : Pair c c') {t : Table} (ht : t.places.contains c.column = true)
    (schema : Schema) (lists : Literal.NamedLists) (user source source' : String) :
    Opposite t (Compile.formula schema lists user source (.leaf c)).outcome
      (Compile.formula schema lists user source' (.leaf c')).outcome := by
  rw [outcome_formula_leaf, outcome_formula_leaf]
  rcases h.checkClause schema with ⟨err, err', hc, hc', hkind⟩ | ⟨type, hc, hc'⟩
  · rw [hc, hc']
    exact .refused hkind
  · rw [hc, hc']
    show Opposite t ((Compile.resolveClause lists user [] (c, type)).outcome >>= _)
      ((Compile.resolveClause lists user [] (c', type)).outcome >>= _)
    rw [h.resolveClause]
    cases (Compile.resolveClause lists user [] (c, type)).outcome with
    | error err => exact .refused rfl
    | ok found =>
      show Opposite t (Compile.plainPredicate user found (c, type) >>= _)
        (Compile.plainPredicate user found (c', type) >>= _)
      rcases h.plainPredicate user found type with
        ⟨err, hp, hq⟩ | ⟨p, q, hp, hq, htest, hop, hcolumn⟩
      · rw [hp, hq]
        exact .refused rfl
      · rw [hp, hq]
        exact .compiled (Compiled.opposite_leaf htest hop (hcolumn ▸ ht) source source')

end Compile

/-- **Negated operators complement.** Two clauses on a column of a table that differ only in the
operator, a negated one and the one that it negates, fail to compile in the same way, or both compile.
Their filters then fail at the same row of the table, or have opposite masks, and each row matches just
one of them. The same holds of the texts that are read as these clauses. -/
theorem negated_complements {op neg : Operator} (h : neg.negates? = some op) {t : Table}
    {column : String} (ht : t.places.contains column = true) (schema : Schema) (lists : Literal.NamedLists)
    (user : String) (raw : Option String) (offset offset' : Nat) (source source' : String) :
    Compile.Opposite t
      (Compile.formula schema lists user source (.leaf ⟨column, offset, op, raw⟩)).outcome
      (Compile.formula schema lists user source' (.leaf ⟨column, offset', neg, raw⟩)).outcome ∧
    (Query.parse source = .ok (.leaf ⟨column, offset, op, raw⟩) →
      Query.parse source' = .ok (.leaf ⟨column, offset', neg, raw⟩) →
      Compile.Opposite t (Compile.text schema lists user source).outcome
        (Compile.text schema lists user source').outcome) := by
  have hpair : Compile.Pair ⟨column, offset, op, raw⟩ ⟨column, offset', neg, raw⟩ :=
    ⟨rfl, rfl, Operator.negates_of_eq h⟩
  have hformula := hpair.formula ht schema lists user source source'
  refine ⟨hformula, ?_⟩
  intro hsource hsource'
  -- a text that is read as a clause compiles as the clause does
  rw [Compile.text, Compile.text, hsource, hsource']
  exact hformula

/-- A range whose upper bound is no number: one cell is missing, one lies below the range, and one has
reached it. -/
theorem negated_complements_between :
    let source := Query.render (.leaf ⟨"age", 0, .between, some "1, x"⟩)
    let source' := Query.render (.leaf ⟨"age", 0, .notBetween, some "1, x"⟩)
    let t : Table := .of ["age"] [[.null], [.int 0], [.int 3]]
    Operator.negates? .notBetween = some .between ∧ t.places.contains "age" = true ∧
      Query.parse source = .ok (.leaf ⟨"age", 0, .between, some "1, x"⟩) ∧
      Query.parse source' = .ok (.leaf ⟨"age", 0, .notBetween, some "1, x"⟩) ∧
      Compile.Opposite t (Compile.text ⟨[("age", .integer)]⟩ .empty "u" source).outcome
        (Compile.text ⟨[("age", .integer)]⟩ .empty "u" source').outcome := by
  intro source source' t
  have hsource : Query.parse source = .ok (.leaf ⟨"age", 0, .between, some "1, x"⟩) :=
    Query.parse_render_eq (by decide +kernel) (by decide +kernel)
  have hsource' : Query.parse source' = .ok (.leaf ⟨"age", 0, .notBetween, some "1, x"⟩) :=
    Query.parse_render_eq (by decide +kernel) (by decide +kernel)
  have ht : t.places.contains "age" = true := rfl
  have hneg : Operator.negates? .notBetween = some .between := rfl
  obtain ⟨_, htext⟩ := negated_complements hneg ht ⟨[("age", .integer)]⟩ .empty "u" (some "1, x") 0 0
    source source'
  exact ⟨hneg, ht, hsource, hsource', htext hsource hsource'⟩

end RowFilter
