import RowFilter.Proofs.QueryAnswers

/-!
# RowFilter — ranges and sets as simpler tests

A range is tested like its two bounds joined by `and`: the lower bound comes first, and a cell below it never
meets the upper one. A set is tested like the equations with its elements joined by `or`. Both take the
elements of their literal as they are written, so it makes no difference whether an element stands in a list
or is a literal of its own.

Main results:

* `Predicate.sameAnswer_between` — a range against the tests of its bounds, cell by cell.
* `Compile.sameMask_of_gives` — queries with the same answers have the same mask, or fail at the same row.
* `between_is_conjunction` — a range is the conjunction of its bounds.
* `exists_element_test` — equations and sets ask the same of their literals and elements.
* `membership_is_disjunction` — a set is the disjunction of its elements, and `not in` is its complement.
-/

namespace RowFilter

open Query (Clause)
open Literal (NamedLists)

/-! ## The same answers -/

/-- Two answers are the same truth value, or both are errors of an evaluation. -/
inductive SameAnswer : Except FilterError Bool → Except FilterError Bool → Prop
  | truth (b : Bool) : SameAnswer (.ok b) (.ok b)
  | fails {err err' : FilterError} (first : err.kind = .evaluation) (second : err'.kind = .evaluation) :
    SameAnswer (.error err) (.error err')

theorem SameAnswer.toOption {x y : Except FilterError Bool} (h : SameAnswer x y) :
    y.toOption = x.toOption.map id := by
  cases h <;> rfl

/-- Two filters have the same mask on a table, or fail first at the same row of it. -/
inductive Compiled.SameMask (t : Table) (c c' : Compiled) : Prop
  | fails (i : Nat) (first : c.FailsAt t i) (second : c'.FailsAt t i)
  | answers (bs : List Bool) (mask : (c.mask t).outcome = .ok bs) (mask' : (c'.mask t).outcome = .ok bs)

theorem Compiled.sameMask_of_verdict {t : Table} {c c' : Compiled} {e e' : Evaluator}
    (hnew : Evaluator.new t.places c = .ok e) (hnew' : Evaluator.new t.places c' = .ok e')
    (h : ∀ row ∈ t.rows, SameAnswer (e.verdict row) (e'.verdict row)) : c.SameMask t c' := by
  rcases mapM_corresponding id t.rows fun row hrow => (h row hrow).toOption with
    ⟨i, hfirst, hsecond⟩ | ⟨bs, hbs, hbs'⟩
  · exact .fails i (failsAt_of_verdict hnew hfirst) (failsAt_of_verdict hnew' hsecond)
  · refine .answers bs ?_ ?_
    · rw [outcome_mask, hnew]
      exact hbs
    · rw [outcome_mask, hnew']
      exact hbs'.trans (by rw [List.map_id])

namespace Compile

variable {schema : Schema} {lists : NamedLists} {user : String} {t : Table} {query query' : Formula Clause}

/-- Queries with the same answer for each row have filters with the same mask, or with the same first row
that they fail at. -/
theorem sameMask_of_gives (ht : t.IsValid)
    (h : ∀ row : Row, row.length = t.columns.length → ∃ x y,
      Gives schema lists user t.places query row x ∧ Gives schema lists user t.places query' row y ∧
        SameAnswer x y) (source source' : String) :
    ∃ c c', (formula schema lists user source query).outcome = .ok c ∧
      (formula schema lists user source' query').outcome = .ok c' ∧ c.SameMask t c' := by
  -- any row shows that both compile, also if the table has none
  obtain ⟨x, y, hx, hy, _⟩ := h (List.replicate t.columns.length .null) List.length_replicate
  obtain ⟨c, e, hc, hnew, _⟩ := hx source
  obtain ⟨c', e', hc', hnew', _⟩ := hy source'
  refine ⟨c, c', hc, hc', Compiled.sameMask_of_verdict hnew hnew' ?_⟩
  intro row hrow
  obtain ⟨x, y, hx, hy, hsame⟩ := h row (ht.width row hrow)
  rw [hx.verdict hc hnew, hy.verdict hc' hnew']
  exact hsame

end Compile

/-! ## Ranges -/

namespace Predicate

/-- Inside a range means not below its lower bound, and then not above its upper one. -/
theorem sameAnswer_isWithin {p lower upper : Predicate} (hlower : lower.type = p.type)
    (hupper : upper.type = p.type) {low high : Value} (hlow : low.isNull = false)
    (hhigh : high.isNull = false) (cell : Value) :
    SameAnswer (p.isWithin cell low high) (do
      let reached ← (lower.order cell low).map (· != .lt)
      if reached then (upper.order cell high).map (· != .gt) else pure false) := by
  rw [isWithin_of_order hlow hhigh, order, order, order, order, order?_congr hlower,
    order?_congr hupper]
  cases p.order? cell low with
  | none => exact .fails rfl rfl
  | some o =>
    cases o with
    | lt => exact .truth false
    | eq | gt =>
      -- the cell has reached the lower bound, so the upper one decides
      cases p.order? cell high with
      | none => exact .fails rfl rfl
      | some o' => cases o' <;> exact .truth _

theorem sameAnswer_between {p lower upper : Predicate} {low high : Value} (hlow : low.isNull = false)
    (hhigh : high.isNull = false) (hp : p.operator = .between) (hrange : p.operand = .range low high)
    (hlower : lower.operator = .ge ∧ lower.operand = .scalar low ∧ lower.type = p.type)
    (hupper : upper.operator = .le ∧ upper.operand = .scalar high ∧ upper.type = p.type)
    (cell : Value) :
    SameAnswer (p.answer cell) (do
      let reached ← lower.answer cell
      if reached then upper.answer cell else pure false) := by
  rw [answer_of_positive (by rw [hp]; rfl), answer_of_positive (by rw [hlower.1]; rfl),
    answer_of_positive (by rw [hupper.1]; rfl), hp, hlower.1, hupper.1]
  cases hc : cell.isNull with
  | true =>
    -- a missing cell is in no range and has reached no bound
    simp only [apply, hc, reduceCtorEq, if_false, if_true]
    exact .truth false
  | false =>
    have hge : lower.apply .ge cell = (lower.order cell low).map (· != .lt) := by
      simp [apply, hc, hlower.2.1]
    have hle : upper.apply .le cell = (upper.order cell high).map (· != .gt) := by
      simp [apply, hc, hupper.2.1]
    rw [apply_range hrange hc, hge, hle]
    exact sameAnswer_isWithin hlower.2.2 hupper.2.2 hlow hhigh cell

end Predicate

open Compile

section Ranges

variable {schema : Schema} {lists : NamedLists} {user column raw : String} {low high : List Char}
  {type : LogicalType} {places : Places} {row : Row} {cell : Value}

/-- On each row a range has the answer of its bounds. -/
theorem exists_sameAnswer_between (hschema : schema.find? column = some type)
    (h : Literal.bounds raw.toList = .ok (low, high)) (hcell : cellOf places column row = .ok cell)
    (offset lower upper : Nat) :
    ∃ x y, Gives schema lists user places (.leaf ⟨column, offset, .between, some raw⟩) row x ∧
      Gives schema lists user places (.all [.leaf ⟨column, lower, .ge, some (String.ofList low)⟩,
        .leaf ⟨column, upper, .le, some (String.ofList high)⟩]) row y ∧ SameAnswer x y := by
  have hraw : rawOf ⟨column, lower, .ge, some (String.ofList low)⟩ = low := String.toList_ofList
  have hraw' : rawOf ⟨column, upper, .le, some (String.ofList high)⟩ = high := String.toList_ofList
  have hrange : checkClause schema ⟨column, offset, .between, some raw⟩ =
      .ok (⟨column, offset, .between, some raw⟩, type) := by
    rw [checkClause, hschema]
    show (Literal.bounds raw.toList).map _ = _
    rw [h]
    rfl
  have hcheck (op : Operator) (hop : op = .ge ∨ op = .le) (place : Nat) (bound : String) :
      checkClause schema ⟨column, place, op, some bound⟩ =
        .ok (⟨column, place, op, some bound⟩, type) := by
    rcases hop with rfl | rfl
    all_goals
      rw [checkClause, hschema]
      rfl
  have hge : Operator.ge ≠ .is := by decide
  have hle : Operator.le ≠ .is := by decide
  refine ⟨_, _, gives_leaf hrange rfl (plainPredicate_range rfl h) hcell,
    gives_both (hcheck .ge (.inl rfl) lower _) (hcheck .le (.inr rfl) upper _) rfl rfl
      (plainPredicate_scalar rfl hge) (plainPredicate_scalar rfl hle) hcell hcell, ?_⟩
  -- the bounds are cast in the same way, in a list or on their own
  rw [hraw, hraw']
  refine Predicate.sameAnswer_between (Literal.isNull_cast low type) (Literal.isNull_cast high type) rfl
    rfl ?_ ?_ cell
  · exact ⟨rfl, rfl, rfl⟩
  · exact ⟨rfl, rfl, rfl⟩

end Ranges

/-- **A range is the conjunction of its bounds.** Take the two bounds of a range literal as they are written
there, and compare the column with each of them. If the schema does not have the column, both queries are
refused; else both compile, and on each row of a table with the column they have the same truth value or both
fail with an evaluation error. So their masks are the same, or both fail first at the same row. -/
theorem between_is_conjunction {raw : String} {low high : List Char}
    (h : Literal.bounds raw.toList = .ok (low, high)) {t : Table} (ht : t.IsValid) {column : String}
    (hcolumn : column ∈ t.columns) (schema : Schema) (lists : NamedLists) (user : String)
    (offset lower upper : Nat) :
    let range : Formula Clause := .leaf ⟨column, offset, .between, some raw⟩
    let both : Formula Clause := .all [.leaf ⟨column, lower, .ge, some (String.ofList low)⟩,
      .leaf ⟨column, upper, .le, some (String.ofList high)⟩]
    (schema.find? column = none → ∀ source,
      (formula schema lists user source range).outcome = .error (.unknownColumn column offset) ∧
      (formula schema lists user source both).outcome = .error (.unknownColumn column lower)) ∧
    ∀ type, schema.find? column = some type →
      (∀ row : Row, row.length = t.columns.length → ∃ x y,
        Gives schema lists user t.places range row x ∧ Gives schema lists user t.places both row y ∧
          SameAnswer x y) ∧
      ∀ source source', ∃ c c', (formula schema lists user source range).outcome = .ok c ∧
        (formula schema lists user source' both).outcome = .ok c' ∧ c.SameMask t c' := by
  intro range both
  constructor
  · intro hunknown source
    refine ⟨outcome_formula_unknown hunknown, ?_⟩
    -- the first bound is checked first
    have hfirst := checkClause_unknown (c := ⟨column, lower, .ge, some (String.ofList low)⟩) hunknown
    rw [formula_eq, Traced.outcome_bind, Traced.outcome_ofExcept, Formula.traverse, Formula.traverseOf,
      Formula.traverse, hfirst]
    rfl
  · intro type hschema
    have hrows : ∀ row : Row, row.length = t.columns.length → ∃ x y,
        Gives schema lists user t.places range row x ∧
          Gives schema lists user t.places both row y ∧ SameAnswer x y := by
      intro row hrow
      obtain ⟨cell, hcell⟩ := ht.cellOf_of_mem hcolumn hrow
      exact exists_sameAnswer_between hschema h hcell offset lower upper
    exact ⟨hrows, sameMask_of_gives ht hrows⟩

/-- The upper bound is no number: a missing cell and one below the range never meet it, and the third cell
does. -/
theorem between_is_conjunction_unordered :
    let raw := "[3, 'x']"
    let t : Table := .of ["age"] [[.null], [.int 0], [.int 3]]
    let schema : Schema := ⟨[("age", .integer)]⟩
    let range : Formula Clause := .leaf ⟨"age", 0, .between, some raw⟩
    let both : Formula Clause := .all [.leaf ⟨"age", 0, .ge, some "3"⟩,
      .leaf ⟨"age", 20, .le, some " 'x'"⟩]
    Literal.bounds raw.toList = .ok ("3".toList, " 'x'".toList) ∧ t.IsValid ∧ "age" ∈ t.columns ∧
      schema.find? "age" = some .integer ∧
      (∀ row : Row, row.length = 1 → ∃ x y, Gives schema .empty "u" t.places range row x ∧
        Gives schema .empty "u" t.places both row y ∧ SameAnswer x y) ∧
      ∃ c c', (formula schema .empty "u" "" range).outcome = .ok c ∧
        (formula schema .empty "u" "" both).outcome = .ok c' ∧ c.SameMask t c' := by
  intro raw t schema range both
  have hbounds : Literal.bounds raw.toList = .ok ("3".toList, " 'x'".toList) := by
    have helements : Literal.elements raw.toList = ["3".toList, " 'x'".toList] := by decide +kernel
    rw [Literal.bounds, helements]
  have ht : t.IsValid := Table.isValid_of (by decide) (by decide)
  have hcolumn : "age" ∈ t.columns := List.mem_singleton.2 rfl
  have hschema : schema.find? "age" = some .integer := rfl
  obtain ⟨_, hboth⟩ := between_is_conjunction hbounds ht hcolumn schema .empty "u" 0 0 20
  rw [String.ofList_toList, String.ofList_toList] at hboth
  obtain ⟨hrows, hmasks⟩ := hboth .integer hschema
  exact ⟨hbounds, ht, hcolumn, hschema, hrows, hmasks "" ""⟩

/-! ## Sets -/

section Sets

variable {schema : Schema} {lists : NamedLists} {user : String} {type : LogicalType}
  {places : Places} {row : Row} {cell : Value} {c : Clause}

/-- Every type has equality, and no literal is wrong for it. -/
theorem checkClause_equality (hschema : schema.find? c.column = some type)
    (hop : c.operator ∈ [.eq, .ne, .inSet, .notInSet]) : checkClause schema c = .ok (c, type) := by
  rw [checkClause, hschema]
  simp only [List.mem_cons, List.not_mem_nil, or_false] at hop
  rcases hop with hop | hop | hop | hop <;> rw [hop] <;> rfl

/-- An equation compares the cell with its literal, and its negation has the opposite answer. A missing cell
equals nothing. -/
theorem gives_equation (negated : Bool) (hop : c.operator = if negated then .ne else .eq)
    (hschema : schema.find? c.column = some type) (hcell : cellOf places c.column row = .ok cell)
    {p : Predicate} (hp : p.type = type) :
    Gives schema lists user places (.leaf c) row
      (.ok (negated ^^ (!cell.isNull && p.equals cell (Literal.cast (rawOf c) type)))) := by
  let own : Predicate :=
    ⟨c.column, type, c.operator, .scalar (Literal.cast (rawOf c) type), c.value, c.offset⟩
  have hcheck : checkClause schema c = .ok (c, type) :=
    checkClause_equality hschema (by rw [hop]; cases negated <;> decide)
  have hplain : plainPredicate user [] (c, type) = .ok own :=
    plainPredicate_scalar (by rw [hop]; cases negated <;> rfl) (by rw [hop]; cases negated <;> decide)
  have hgives : Gives schema lists user places (.leaf c) row (own.answer cell) :=
    gives_leaf hcheck (by rw [hop]; cases negated <;> rfl) hplain hcell
  rw [Predicate.answer_equation negated hop rfl] at hgives
  -- which clause the comparison belongs to makes no difference
  rw [Predicate.equals_congr (q := own) hp]
  exact hgives

/-- A set looks for the cell among its elements, and its complement has the opposite answer. A missing cell is
no element. -/
theorem gives_membership (negated : Bool) (hop : c.operator = if negated then .notInSet else .inSet)
    (hschema : schema.find? c.column = some type) (hcell : cellOf places c.column row = .ok cell)
    {p : Predicate} (hp : p.type = type) :
    Gives schema lists user places (.leaf c) row
      (.ok (negated ^^ (!cell.isNull && (Literal.castElements (rawOf c) type).any (p.equals cell)))) := by
  let own : Predicate :=
    ⟨c.column, type, c.operator, .set (Literal.castElements (rawOf c) type), c.value, c.offset⟩
  have hcheck : checkClause schema c = .ok (c, type) :=
    checkClause_equality hschema (by rw [hop]; cases negated <;> decide)
  have hlist : takesList c.operator = false := by rw [hop]; cases negated <;> rfl
  have hplain : plainPredicate user [] (c, type) = .ok own :=
    plainPredicate_elements (by rw [hop]; cases negated <;> rfl) hlist
  have hgives : Gives schema lists user places (.leaf c) row (own.answer cell) :=
    gives_leaf hcheck hlist hplain hcell
  rw [Predicate.answer_membership negated hop rfl] at hgives
  rw [Predicate.equals_congr (q := own) hp]
  exact hgives

/-- On each row the equations and the sets have their answers from one test, which is asked for the texts of
their literals and elements, without the blanks and quotes around them. -/
theorem exists_element_test {column : String} (hschema : schema.find? column = some type)
    (hcell : cellOf places column row = .ok cell) (offset place : Nat) :
    ∃ test : List Char → Bool,
      (∀ e, Gives schema lists user places (.leaf ⟨column, place, .eq, some e⟩) row
        (.ok (test (Literal.unquote e.toList)))) ∧
      (∀ e, Gives schema lists user places (.leaf ⟨column, place, .ne, some e⟩) row
        (.ok (!test (Literal.unquote e.toList)))) ∧
      (∀ raw, Gives schema lists user places (.leaf ⟨column, offset, .inSet, some raw⟩) row
        (.ok (((Literal.elements raw.toList).map Literal.unquote).any test))) ∧
      ∀ raw, Gives schema lists user places (.leaf ⟨column, offset, .notInSet, some raw⟩) row
        (.ok (!((Literal.elements raw.toList).map Literal.unquote).any test)) := by
  let p : Predicate := ⟨column, type, .eq, .none, none, place⟩
  let test (s : List Char) : Bool :=
    !cell.isNull && p.equals cell ((Literal.read? type s).getD (.text (String.ofList s)))
  have hany (raw : String) : ((Literal.elements raw.toList).map Literal.unquote).any test =
      (!cell.isNull && (Literal.castElements raw.toList type).any (p.equals cell)) := by
    rw [List.any_map, Literal.castElements, List.any_map, List.and_any_distrib_left]
    rfl
  refine ⟨test, ?_, ?_, ?_, ?_⟩
  · intro e
    rw [← Bool.false_xor (test _)]
    exact gives_equation (c := ⟨column, place, .eq, some e⟩) false rfl hschema hcell rfl
  · intro e
    rw [← Bool.true_xor (test _)]
    exact gives_equation (c := ⟨column, place, .ne, some e⟩) true rfl hschema hcell rfl
  · intro raw
    rw [hany, ← Bool.false_xor (!cell.isNull && _)]
    exact gives_membership (c := ⟨column, offset, .inSet, some raw⟩) false rfl hschema hcell rfl
  · intro raw
    rw [hany, ← Bool.true_xor (!cell.isNull && _)]
    exact gives_membership (c := ⟨column, offset, .notInSet, some raw⟩) true rfl hschema hcell rfl

end Sets

/-- **A set is the disjunction of its elements.** Take the elements of a list literal as they are written
there, without the blank ones, and compare the column with each of them. Where the schema does not have the
column, every such clause is refused. Where it has the column, the clauses have a truth value for each row of
a table with it: `in` is true just if the column equals one of the elements, and `not in` just if it differs
from all of them. So an empty list has no members, and lists whose elements are the same texts, without the
blanks and quotes around them, have the same answers, in any order and with any repetitions. -/
theorem membership_is_disjunction {t : Table} (ht : t.IsValid) {column : String}
    (hcolumn : column ∈ t.columns) {row : Row} (hrow : row.length = t.columns.length) (schema : Schema)
    (lists : NamedLists) (user raw : String) (offset place : Nat) :
    let set (op : Operator) (raw : String) : Formula Clause := .leaf ⟨column, offset, op, some raw⟩
    let equation (op : Operator) (raw : String) : Formula Clause := .leaf ⟨column, place, op, some raw⟩
    let elements (raw : String) : List String := (Literal.elements raw.toList).map String.ofList
    let texts (raw : String) : List (List Char) := (Literal.elements raw.toList).map Literal.unquote
    (schema.find? column = none → ∀ source,
      (∀ op ∈ [.inSet, .notInSet], (formula schema lists user source (set op raw)).outcome =
        .error (.unknownColumn column offset)) ∧
      ∀ op ∈ [.eq, .ne], ∀ e, (formula schema lists user source (equation op e)).outcome =
        .error (.unknownColumn column place)) ∧
    ∀ type, schema.find? column = some type →
      (∀ op ∈ [.inSet, .notInSet], ∃ b, Gives schema lists user t.places (set op raw) row (.ok b)) ∧
      (∀ op ∈ [.eq, .ne], ∀ e, ∃ b, Gives schema lists user t.places (equation op e) row (.ok b)) ∧
      (Gives schema lists user t.places (set .inSet raw) row (.ok true) ↔
        ∃ e ∈ elements raw, Gives schema lists user t.places (equation .eq e) row (.ok true)) ∧
      (Gives schema lists user t.places (set .notInSet raw) row (.ok true) ↔
        ∀ e ∈ elements raw, Gives schema lists user t.places (equation .ne e) row (.ok true)) ∧
      (elements raw = [] → Gives schema lists user t.places (set .inSet raw) row (.ok false)) ∧
      ∀ raw', (∀ s, s ∈ texts raw' ↔ s ∈ texts raw) → ∀ op ∈ [.inSet, .notInSet], ∀ b,
        Gives schema lists user t.places (set op raw') row (.ok b) ↔
          Gives schema lists user t.places (set op raw) row (.ok b) := by
  intro set equation elements texts
  constructor
  · intro hunknown source
    constructor
    · intro op _
      exact outcome_formula_unknown hunknown
    · intro op _ e
      exact outcome_formula_unknown hunknown
  intro type hschema
  obtain ⟨cell, hcell⟩ := ht.cellOf_of_mem hcolumn hrow
  obtain ⟨test, heq, hne, hin, hout⟩ := exists_element_test hschema hcell offset place
  -- an element counts for what stands between its quotes
  have hmember (raw : String) : ((texts raw).any test = true) ↔
      ∃ e ∈ elements raw, test (Literal.unquote e.toList) = true := by
    have htexts : texts raw = (elements raw).map fun e => Literal.unquote e.toList := by
      simp [elements, texts]
    rw [htexts, List.any_map, List.any_eq_true]
    rfl
  have hequal (e : String) : Gives schema lists user t.places (equation .eq e) row (.ok true) ↔
      test (Literal.unquote e.toList) = true := (heq e).ok_iff
  have hdiffer (e : String) : Gives schema lists user t.places (equation .ne e) row (.ok true) ↔
      ¬ test (Literal.unquote e.toList) = true :=
    (hne e).ok_iff.trans (by rw [Bool.not_eq_true', Bool.not_eq_true])
  refine ⟨?_, ?_, ?_, ?_, ?_, ?_⟩
  · intro op hop
    obtain rfl | rfl : op = .inSet ∨ op = .notInSet := by simpa using hop
    · exact ⟨_, hin raw⟩
    · exact ⟨_, hout raw⟩
  · intro op hop e
    obtain rfl | rfl : op = .eq ∨ op = .ne := by simpa using hop
    · exact ⟨_, heq e⟩
    · exact ⟨_, hne e⟩
  · rw [(hin raw).ok_iff, hmember]
    simp only [hequal]
  · rw [(hout raw).ok_iff, Bool.not_eq_true', ← Bool.not_eq_true, hmember]
    simp only [hdiffer, not_exists, not_and]
  · intro hempty
    have hnone := hin raw
    rw [List.map_eq_nil_iff.1 hempty] at hnone
    exact hnone
  · intro raw' hsame op hop b
    -- what is asked of the elements does not depend on their order
    have hraw' : (texts raw').any test = (texts raw).any test := by
      rw [Bool.eq_iff_iff, List.any_eq_true, List.any_eq_true]
      simp only [hsame]
    obtain rfl | rfl : op = .inSet ∨ op = .notInSet := by simpa using hop
    · rw [(hin raw').ok_iff, (hin raw).ok_iff, hraw']
    · rw [(hout raw').ok_iff, (hout raw).ok_iff, hraw']

/-- One element is no number and another stands there twice. The lists differ in their order, brackets and
quotes. -/
theorem membership_is_disjunction_unordered :
    let row : Row := [.int 2]
    let t : Table := .of ["age"] [row]
    let schema : Schema := ⟨[("age", .integer)]⟩
    let set (op : Operator) (raw : String) : Formula Clause := .leaf ⟨"age", 0, op, some raw⟩
    let equation (op : Operator) (raw : String) : Formula Clause := .leaf ⟨"age", 3, op, some raw⟩
    let raw := "[3, 'x', 2, 2]"
    t.IsValid ∧ "age" ∈ t.columns ∧ row.length = t.columns.length ∧ schema.find? "age" = some .integer ∧
      (Gives schema .empty "u" t.places (set .inSet raw) row (.ok true) ↔
        ∃ e ∈ ["3", " 'x'", " 2", " 2"],
          Gives schema .empty "u" t.places (equation .eq e) row (.ok true)) ∧
      (Gives schema .empty "u" t.places (set .notInSet raw) row (.ok true) ↔
        ∀ e ∈ ["3", " 'x'", " 2", " 2"],
          Gives schema .empty "u" t.places (equation .ne e) row (.ok true)) ∧
      (∀ b, Gives schema .empty "u" t.places (set .inSet "x, 2,\"3\"") row (.ok b) ↔
        Gives schema .empty "u" t.places (set .inSet raw) row (.ok b)) ∧
      Gives schema .empty "u" t.places (set .inSet "(, )") row (.ok false) := by
  intro row t schema set equation raw
  have ht : t.IsValid := Table.isValid_of (by decide) (by decide)
  have hcolumn : "age" ∈ t.columns := List.mem_singleton.2 rfl
  have hrow : row.length = t.columns.length := rfl
  have hschema : schema.find? "age" = some .integer := rfl
  have helements : (Literal.elements raw.toList).map String.ofList = ["3", " 'x'", " 2", " 2"] := by
    decide +kernel
  have hsame : ∀ s, s ∈ (Literal.elements "x, 2,\"3\"".toList).map Literal.unquote ↔
      s ∈ (Literal.elements raw.toList).map Literal.unquote := by
    have hwritten : (Literal.elements raw.toList).map Literal.unquote = [['3'], ['x'], ['2'], ['2']] := by
      decide +kernel
    have hreordered : (Literal.elements "x, 2,\"3\"".toList).map Literal.unquote =
        [['x'], ['2'], ['3']] := by decide +kernel
    intro s
    rw [hwritten, hreordered]
    simp only [List.mem_cons, List.not_mem_nil, or_false]
    grind
  have hnone : (Literal.elements "(, )".toList).map String.ofList = [] := by decide +kernel
  obtain ⟨_, _, hin, hout, _, horder⟩ :=
    (membership_is_disjunction ht hcolumn hrow schema .empty "u" raw 0 3).2 .integer hschema
  obtain ⟨_, _, _, _, hempty, _⟩ :=
    (membership_is_disjunction ht hcolumn hrow schema .empty "u" "(, )" 0 3).2 .integer hschema
  rw [← helements]
  exact ⟨ht, hcolumn, hrow, hschema, hin, hout, horder _ hsame .inSet (by decide), hempty hnone⟩

end RowFilter
