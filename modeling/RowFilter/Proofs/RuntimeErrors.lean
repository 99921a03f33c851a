import RowFilter.Calendar.Readers
import RowFilter.Proofs.ErrorKinds
import RowFilter.Proofs.InferredTypes
import RowFilter.Proofs.Requests
import RowFilter.Proofs.ShortCircuit

/-!
# RowFilter — failures at run time

With an inferred schema every cell is of its column's type, so a query that compiles can only fail on a row
because of its own literals: one that is ordered against a numeric or boolean column did not read as a
value of the type and stayed a text. A warning about that literal was reported when the query was
compiled.

Main results:

* `Compile.exists_clause_of_formula` — the clause behind a predicate, whose warnings were all reported.
* `Compile.fallback_of_unordered` — a predicate without an order comes from a literal that stayed a text.
* `Session.course_filter`, `Session.course_count` — work on a request fails before the rows, or answers
  from the matches.
* `fails_only_on_fallback` — the three together, for all requests on a dataset with an inferred schema.
-/

namespace RowFilter

open Query (Clause)

/-! ## Literals that cells are ordered against -/

namespace Operand

/-- A literal without an order with a cell is one of the bounds. -/
theorem mem_bounds_of_unordered {operand : Operand} {cell v : Value}
    (h : operand.unordered? cell = some v) : v ∈ operand.bounds ∧ cell.compare? v = Option.none := by
  cases operand with
  | none | set => cases h
  | scalar w =>
    simp only [unordered?] at h
    split at h
    · rename_i hcompare
      cases h
      exact ⟨List.mem_singleton_self _, hcompare⟩
    · cases h
  | range low high =>
    simp only [unordered?] at h
    -- the upper bound is looked at only if the lower one has an order
    split at h
    · rename_i hlow
      cases h
      exact ⟨List.mem_cons_self, hlow⟩
    · split at h
      · rename_i hhigh
        cases h
        exact ⟨List.mem_cons_of_mem _ (List.mem_singleton_self _), hhigh.2⟩
      · cases h

end Operand

theorem Literal.elements_of_bounds {raw : List Char} {b : List Char × List Char}
    (h : Literal.bounds raw = .ok b) : Literal.elements raw = [b.1, b.2] := by
  unfold Literal.bounds at h
  split at h
  · rename_i hraw
    cases h
    exact hraw
  · cases h

namespace Compile

/-- The texts of the literals of an ordering clause: the elements of a range, or its one literal. -/
def orderedTexts (c : Clause) : List (List Char) :=
  if takesRange c.operator then Literal.elements (rawOf c) else [rawOf c]

variable {schema : Schema} {user : String} {found : Resolved}

/-- An ordering operator takes a range or a single literal. -/
theorem shape_of_isOrdering {op : Operator} (h : op.isOrdering = true) :
    (op.shape = .range ∧ takesRange op = true) ∨ (op.shape = .scalar ∧ takesRange op = false) := by
  revert h
  cases op <;> decide

/-- What cells are ordered against was cast from the texts of the clause. -/
theorem exists_text_of_mem_bounds {c : Clause} {type : LogicalType} {operand : Operand}
    (hop : c.operator.isOrdering = true) (h : plainOperand user found c type = .ok operand) {v : Value}
    (hv : v ∈ operand.bounds) : ∃ raw ∈ orderedTexts c, v = Literal.cast raw type := by
  unfold plainOperand at h
  unfold orderedTexts
  rcases shape_of_isOrdering hop with ⟨hshape, hrange⟩ | ⟨hshape, hrange⟩
  · rw [hshape] at h
    obtain ⟨b, hb, rfl⟩ := map_eq_ok h
    rw [if_pos hrange, Literal.elements_of_bounds hb]
    rcases List.mem_cons.1 hv with rfl | hv
    · exact ⟨b.1, List.mem_cons_self, rfl⟩
    · rw [List.mem_singleton.1 hv]
      exact ⟨b.2, List.mem_cons_of_mem _ (List.mem_singleton_self _), rfl⟩
  · rw [hshape] at h
    cases h
    rw [hrange, if_neg (by decide), List.mem_singleton.1 hv]
    exact ⟨rawOf c, List.mem_singleton_self _, rfl⟩

/-! ## What compiling reports -/

theorem mem_events_rangeTraced {raw : List Char} {type : LogicalType} {e : Event}
    {b : List Char × List Char} (hb : Literal.bounds raw = .ok b)
    (h : e ∈ (Literal.castTraced b.1 type).events ∨ e ∈ (Literal.castTraced b.2 type).events) :
    e ∈ (Literal.rangeTraced raw type).events := by
  rw [Literal.rangeTraced, hb]
  refine Traced.mem_events_bind_right rfl ?_
  rcases h with h | h
  · exact Traced.mem_events_bind_left h
  · exact Traced.mem_events_bind_right (Literal.outcome_castTraced _ _) (Traced.mem_events_bind_left h)

/-- An ordering clause reports what the cast of each of its literals does. -/
theorem mem_events_operandTraced {c : Clause} {type : LogicalType} {operand : Operand}
    (hop : c.operator.isOrdering = true) (h : plainOperand user found c type = .ok operand)
    {raw : List Char} (hraw : raw ∈ orderedTexts c) {e : Event}
    (he : e ∈ (Literal.castTraced raw type).events) :
    e ∈ (operandTraced user found c type).events := by
  unfold orderedTexts at hraw
  unfold plainOperand at h
  have hscalar : raw = rawOf c → e ∈ (do return Operand.scalar (← Literal.castTraced (rawOf c) type) :
      Traced Operand).events := by
    rintro rfl
    exact Traced.mem_events_bind_left he
  have hrange : c.operator.shape = .range → raw ∈ Literal.elements (rawOf c) → e ∈ (do
      let b ← Literal.rangeTraced (rawOf c) type
      return Operand.range b.1 b.2 : Traced Operand).events := by
    intro hshape hraw
    rw [hshape] at h
    obtain ⟨b, hb, _⟩ := map_eq_ok h
    rw [Literal.elements_of_bounds hb] at hraw
    refine Traced.mem_events_bind_left (mem_events_rangeTraced hb ?_)
    rcases List.mem_cons.1 hraw with rfl | hraw
    · exact .inl he
    · rw [List.mem_singleton.1 hraw] at he
      exact .inr he
  unfold operandTraced
  -- one literal or two, as the operator takes them; the other operators order nothing
  cases hc : c.operator with
  | lt | le | gt | ge =>
    rw [hc] at hraw
    exact hscalar (List.mem_singleton.1 hraw)
  | between | notBetween =>
    rw [hc] at hraw
    exact hrange (by rw [hc]; rfl) hraw
  | eq | ne | is | inSet | notInSet | inUserList | notInUserList | contains | doesNotContain |
    beginsWith | endsWith | null | notNull =>
    rw [hc] at hop
    cases hop

theorem mem_events_predicateTraced {c : Clause × LogicalType} {p : Predicate}
    (hop : c.1.operator.isOrdering = true) (h : plainPredicate user found c = .ok p)
    {raw : List Char} (hraw : raw ∈ orderedTexts c.1) {e : Event}
    (he : e ∈ (Literal.castTraced raw c.2).events) :
    e ∈ (predicateTraced user found c).events := by
  -- only `is` is turned into a test for missing values, and it is no ordering operator
  have his : ¬ (c.1.operator = .is ∧ isNullWord (rawOf c.1) = true) := by
    rintro ⟨his, _⟩
    rw [his] at hop
    cases hop
  unfold plainPredicate at h
  rw [if_neg his] at h
  obtain ⟨operand, hoperand, _⟩ := map_eq_ok h
  unfold predicateTraced
  simp only
  rw [if_neg his]
  exact Traced.mem_events_bind_left (mem_events_operandTraced hop hoperand hraw he)

theorem column_of_plainPredicate {c : Clause × LogicalType} {p : Predicate}
    (h : plainPredicate user found c = .ok p) : p.column = c.1.column := by
  unfold plainPredicate at h
  split at h
  · cases h
    rfl
  · obtain ⟨operand, _, rfl⟩ := map_eq_ok h
    rfl

/-- Compiling reports what it does for each of the clauses, if all of them have a predicate. -/
theorem mem_events_formula {lists : Literal.NamedLists} {source : String} {query : Formula Clause}
    {checked : Formula (Clause × LogicalType)} (hchecked : query.traverse (checkClause schema) = .ok checked)
    (hfound : (resolveAll lists user checked.leaves).outcome = .ok found) {ps : List Predicate}
    (hps : checked.leaves.mapM (plainPredicate user found) = .ok ps) {c : Clause × LogicalType}
    (hc : c ∈ checked.leaves) {e : Event} (he : e ∈ (predicateTraced user found c).events) :
    e ∈ (formula schema lists user source query).events := by
  have hmap : (checked.leaves.mapM (predicateTraced user found)).outcome = .ok ps := by
    rw [Traced.outcome_mapM]
    simp only [outcome_predicateTraced]
    exact hps
  -- the third pass comes behind two passes with results
  rw [formula_eq]
  refine Traced.mem_events_bind_right hchecked (Traced.mem_events_bind_right hfound ?_)
  refine Traced.mem_events_bind_left ?_
  rw [← Traced.events_map Formula.leaves, Formula.leaves_traverse]
  exact Traced.mem_events_mapM hmap hc he

/-- Behind every predicate of a compiled filter stands a clause of the query, and what is reported for the
clause is reported by compiling. -/
theorem exists_clause_of_formula {lists : Literal.NamedLists} {source : String}
    {query : Formula Clause} {c : Compiled}
    (h : (formula schema lists user source query).outcome = .ok c) {p : Predicate}
    (hp : p ∈ c.predicates) : ∃ clause ∈ query.leaves, ∃ type found,
      schema.find? clause.column = some type ∧ plainPredicate user found (clause, type) = .ok p ∧
      ∀ e ∈ (predicateTraced user found (clause, type)).events,
        e ∈ (formula schema lists user source query).events := by
  obtain ⟨checked, found, hchecked, hfound, hpredicates⟩ := formula_eq_ok h
  obtain ⟨⟨clause, type⟩, hmem, hpredicate⟩ := exists_of_mapM_eq_ok hpredicates p hp
  -- a checked clause is a clause of the query with the type of its column
  have hleaves : query.leaves.mapM (checkClause schema) = .ok checked.leaves := by
    rw [← Formula.leaves_traverse, hchecked]
    rfl
  obtain ⟨clause', hclause, hcheck⟩ := exists_of_mapM_eq_ok hleaves _ hmem
  obtain ⟨rfl, htype⟩ := checkClause_eq_ok hcheck
  refine ⟨clause, hclause, type, found, htype, hpredicate, ?_⟩
  intro e he
  exact mem_events_formula hchecked hfound hpredicates hmem he

/-! ## Clauses that order against a text -/

/-- The clause orders the cells of a numeric or boolean column against a literal that did not read as a
value of the type, and that was reported. -/
def OrdersFallback (schema : Schema) (events : List Event) (c : Clause) : Prop :=
  c.operator.isOrdering = true ∧ ∃ type ∈ [LogicalType.integer, .float, .boolean],
    schema.find? c.column = some type ∧ ∃ raw ∈ orderedTexts c, ∃ text,
      Literal.cast raw type = .text text ∧ .castFallback text type ∈ events

theorem OrdersFallback.mono {events events' : List Event} {c : Clause}
    (h : OrdersFallback schema events c) (hsub : ∀ e ∈ events, e ∈ events') :
    OrdersFallback schema events' c := by
  obtain ⟨hop, type, htype, hfind, raw, hraw, text, hcast, hevent⟩ := h
  exact ⟨hop, type, htype, hfind, raw, hraw, text, hcast, hsub _ hevent⟩

/-- The query has a clause that orders against a text. -/
def HasFallback (schema : Schema) (source : String) (events : List Event) : Prop :=
  ∃ query, Query.parse source = .ok query ∧ ∃ clause ∈ query.leaves,
    OrdersFallback schema events clause

theorem HasFallback.mono {source : String} {events events' : List Event}
    (h : HasFallback schema source events) (hsub : ∀ e ∈ events, e ∈ events') :
    HasFallback schema source events' := by
  obtain ⟨query, hparse, clause, hclause, hfallback⟩ := h
  exact ⟨query, hparse, clause, hclause, hfallback.mono hsub⟩

theorem mem_of_isTextual_false {type : LogicalType} (h : type.isTextual = false) :
    type ∈ [LogicalType.integer, .float, .boolean] := by
  revert h
  cases type <;> decide

/-- A predicate that cannot order a cell which its type admits comes from a literal that stayed a text. -/
theorem fallback_of_unordered {c : Clause} {type : LogicalType} {p : Predicate}
    (hfind : schema.find? c.column = some type) (h : plainPredicate user found (c, type) = .ok p)
    {cell literal : Value} (hunordered : p.IsUnordered cell literal) (hadmits : type.Admits cell)
    (hnan : ∀ x, cell = .float x → x.isNaN = false) :
    OrdersFallback schema (predicateTraced user found (c, type)).events c := by
  obtain ⟨hop, htextual, hcell, hliteral⟩ := hunordered
  have hplain := h
  unfold plainPredicate at hplain
  split at hplain
  · cases hplain
    cases hop
  · -- the literal without an order is one of the bounds, each of which was cast from a text
    obtain ⟨operand, hoperand, rfl⟩ := map_eq_ok hplain
    obtain ⟨hbound, hnone⟩ := Operand.mem_bounds_of_unordered hliteral
    obtain ⟨raw, hraw, rfl⟩ := exists_text_of_mem_bounds hop hoperand hbound
    have hread := Literal.read?_eq_none_of_unordered htextual hadmits hcell hnan hnone
    refine ⟨hop, type, mem_of_isTextual_false htextual, hfind, raw, hraw, _,
      Literal.cast_of_read?_eq_none hread, ?_⟩
    refine mem_events_predicateTraced hop h hraw ?_
    rw [Literal.events_castTraced_of_read?_eq_none hread]
    exact List.mem_singleton_self _

end Compile

/-! ## Rows -/

/-- No cell of the table is a float that is not a number. -/
def Table.WithoutNaN (t : Table) : Prop := ∀ row ∈ t.rows, ∀ x, .float x ∈ row → x.isNaN = false

/-- An error about the rows is the error of a predicate on one of them. -/
theorem Compiled.exists_row_of_matchingRows_error {c : Compiled} {t : Table} {err : FilterError}
    (hcolumns : ∀ name ∈ c.columns, t.places.contains name = true)
    (h : (c.matchingRows t).outcome = .error err) :
    ∃ row ∈ t.rows, ∃ p ∈ c.predicates, Evaluator.answer t.places p row = .error err := by
  rw [outcome_matchingRows, map_eq_error_iff, outcome_mask, Evaluator.new_of_columns hcolumns] at h
  -- the mask fails with a row, and the row with a leaf
  obtain ⟨row, hrow, hverdict⟩ := exists_of_mapM_eq_error h
  obtain ⟨leaf, hleaf, herr⟩ := Formula.exists_leaf_of_evalM_error _ hverdict
  refine ⟨row, hrow, leaf.2, ?_, herr⟩
  rw [Compiled.predicates, ← Formula.map_snd_leaves_number]
  exact List.mem_map_of_mem hleaf

/-- An inferred schema has no columns but those of its table, so neither has a query that compiles. -/
theorem Compile.mem_columns_of_formula [Calendar.Parsers] {t : Table} (ht : t.IsValid)
    {lists : Literal.NamedLists} {user source : String} {query : Formula Clause} {c : Compiled}
    (hc : (formula t.schema lists user source query).outcome = .ok c) {name : String}
    (hname : name ∈ c.columns) : name ∈ t.columns := by
  obtain ⟨p, hp, rfl⟩ := Compiled.mem_columns.1 hname
  obtain ⟨clause, _, type, found, hfind, hpredicate, _⟩ := exists_clause_of_formula hc hp
  obtain ⟨i, hi, _⟩ := Table.schema_eq_some ht hfind
  rw [column_of_plainPredicate hpredicate]
  exact List.mem_of_getElem? (ht.columnIndex?_eq_some_iff.1 hi)

/-- On a table whose schema was inferred, a compiled query fails on a row only through a clause that orders
against a text. -/
theorem Compile.fallback_of_matchingRows_error [Calendar.Parsers] {t : Table} (ht : t.IsValid)
    (hnan : t.WithoutNaN) {lists : Literal.NamedLists} {user source : String} {query : Formula Clause} {c : Compiled}
    (hc : (formula t.schema lists user source query).outcome = .ok c) {err : FilterError}
    (h : (c.matchingRows t).outcome = .error err) :
    (∃ p fault, err = .evaluation p fault) ∧ ∃ clause ∈ query.leaves,
      OrdersFallback t.schema (formula t.schema lists user source query).events clause := by
  have hcolumns : ∀ name ∈ c.columns, name ∈ t.columns :=
    fun name hname => mem_columns_of_formula ht hc hname
  obtain ⟨row, hrow, p, hp, herr⟩ := Compiled.exists_row_of_matchingRows_error
    (fun name hname => ht.contains_iff.2 (hcolumns name hname)) h
  obtain ⟨clause, hclause, type, found, hfind, hpredicate, hevents⟩ := exists_clause_of_formula hc hp
  have hcolumn : p.column = clause.column := column_of_plainPredicate hpredicate
  have hplace : p.column ∈ t.columns := hcolumns _ (Compiled.mem_columns.2 ⟨p, hp, rfl⟩)
  obtain ⟨cell, hcell⟩ := ht.cellOf_of_mem hplace (ht.width row hrow)
  -- the predicate is well typed, so all that can fail is an order
  rw [Evaluator.answer, hcell] at herr
  obtain ⟨literal, hunordered, rfl⟩ :=
    (wellTyped_of_plainPredicate hpredicate).answer_eq_error_iff.1 herr
  refine ⟨⟨p, _, rfl⟩, clause, hclause, ?_⟩
  rw [hcolumn] at hcell
  have hadmits : type.Admits cell := Table.admits_of_schema ht hfind hrow hcell
  have hnumber : ∀ x, cell = .float x → x.isNaN = false := by
    rintro x rfl
    obtain ⟨i, _, hi⟩ := cellOf_eq_ok hcell
    exact hnan row hrow x (List.mem_of_getElem? hi)
  exact (fallback_of_unordered hfind hpredicate hunordered hadmits hnumber).mono hevents

/-- The same for a query that a session has compiled. -/
theorem Session.fallback_of_compile [Calendar.Parsers] {s : Session} {t : Table}
    {user dataset source : String} {c : Compiled} {err : FilterError} (ht : t.IsValid) (hnan : t.WithoutNaN)
    (hschema : s.schemas.schema dataset = .ok t.schema)
    (hc : (s.compile user dataset source).outcome = .ok c)
    (h : (c.matchingRows t).outcome = .error err) :
    (∃ p fault, err = .evaluation p fault) ∧
      Compile.HasFallback t.schema source (s.compile user dataset source).events := by
  obtain ⟨query, schema, hparse, hschema', hformula⟩ := Session.compile_eq_ok hc
  obtain rfl : t.schema = schema := Except.ok.inj (hschema.symm.trans hschema')
  obtain ⟨hevaluation, clause, hclause, hfallback⟩ :=
    Compile.fallback_of_matchingRows_error ht hnan hformula h
  refine ⟨hevaluation, query, hparse, clause, hclause, hfallback.mono ?_⟩
  intro e he
  -- the session reads the query and asks for the schema before the three passes
  refine Traced.mem_events_bind_right hparse (Traced.mem_events_bind_right hschema ?_)
  exact Traced.mem_events_bind_right rfl he

/-! ## Requests -/

/-- The kinds of errors that are about the columns or the cells of a table. -/
def FilterError.Kind.isOfRows : FilterError.Kind → Bool
  | columnNotFound | evaluation => true
  | _ => false

namespace Session

variable [Calendar.Parsers]

/-- How work on a request goes: it fails before any row is looked at, which it does not if it is `ready`,
or it answers from the matches of the compiled query and keeps what compiling has reported. -/
inductive Course {α : Type} (s : Session) (user dataset source : String) (t : Table) (ready : Prop)
    (x : Traced α) : Prop
  | early (err : FilterError) (outcome : x.outcome = .error err) (kind : err.kind.isOfRows = false)
    (unready : ¬ ready)
  | rows (c : Compiled) (f : List Nat → α)
    (compiled : (s.compile user dataset source).outcome = .ok c)
    (outcome : x.outcome = (c.matchingRows t).outcome.map f)
    (events : ∀ e ∈ (s.compile user dataset source).events, e ∈ x.events)

variable {s : Session} {t : Table}

theorem compile_not_ofRows {user dataset source : String} {err : FilterError}
    (h : (s.compile user dataset source).outcome = .error err) : err.kind.isOfRows = false := by
  have hall : ∀ kind ∈ [FilterError.Kind.querySyntax, .unknownSchema, .unknownColumn,
      .unsupportedOperator, .betweenCount, .listNotFound], kind.isOfRows = false := by decide
  exact hall _ (kind_compile h)

/-- A count is ready if the query compiles. -/
theorem course_count {dataset : String} (ht : s.datasets.load dataset = .ok t) (user source : String) :
    s.Course user dataset source t (∃ c, (s.compile user dataset source).outcome = .ok c)
      (s.count user dataset source) := by
  cases hc : (s.compile user dataset source).outcome with
  | error err =>
    have herr : (s.count user dataset source).outcome = .error err := by
      rw [outcome_count, hc]
      rfl
    exact .early err herr (compile_not_ofRows hc) (by rintro ⟨c, hc'⟩; cases hc')
  | ok c =>
    refine .rows c _ hc (outcome_count_of_compile hc ht) ?_
    intro e he
    exact Traced.mem_events_bind_left he

/-- A request is for at least one row, and its query compiles. -/
def IsReady (s : Session) (r : Request) : Prop :=
  (∃ limit, s.limits.resolve r.limit r.offset = .ok limit ∧ limit ≠ 0) ∧
    ∃ c, (s.compile r.user r.dataset r.query).outcome = .ok c

theorem course_filter {r : Request} (ht : s.datasets.load r.dataset = .ok t) :
    s.Course r.user r.dataset r.query t (s.IsReady r) (s.filter r) := by
  cases hlimit : s.limits.resolve r.limit r.offset with
  | error err =>
    have herr : (s.filter r).outcome = .error err := by
      rw [outcome_filter, hlimit]
      rfl
    refine .early err herr (by rw [PageLimits.kind_resolve hlimit]; rfl) ?_
    rintro ⟨⟨limit, hlimit', _⟩, _⟩
    rw [hlimit] at hlimit'
    cases hlimit'
  | ok limit =>
    cases hc : (s.compile r.user r.dataset r.query).outcome with
    | error err =>
      have herr : (s.filter r).outcome = .error err := by
        rw [outcome_filter, hlimit, hc]
        rfl
      refine .early err herr (compile_not_ofRows hc) ?_
      rintro ⟨_, c, hc'⟩
      rw [hc] at hc'
      cases hc'
    | ok c =>
      by_cases hzero : limit = 0
      · -- the limits themselves may be out of order, and then there is no page at all
        have herr : (s.filter r).outcome = .error (.invalidPagination r.offset limit) := by
          rw [outcome_filter, hlimit, hc, ht]
          show (Page.checkLimit r.offset limit >>= _) = _
          rw [Page.checkLimit, if_pos hzero]
          rfl
        refine .early _ herr rfl ?_
        rintro ⟨⟨limit', hlimit', hpos⟩, _⟩
        rw [hlimit] at hlimit'
        obtain rfl : limit = limit' := Except.ok.inj hlimit'
        exact hpos hzero
      · refine .rows c _ hc (outcome_filter_of_compile hlimit hzero hc ht) ?_
        intro e he
        rw [← PageLimits.outcome_resolveTraced] at hlimit
        exact Traced.mem_events_bind_right hlimit (Traced.mem_events_bind_left he)

end Session

/-- Rows are no obstacle but for one thing: the query has a clause that orders the cells of a numeric or
boolean column against a literal which did not read as a value of the type, and that was reported. -/
structure FailsOnlyOnFallback {α : Type} (schema : Schema) (source : String) (ready : Prop)
    (x : Traced α) : Prop where
  /-- No column is missing. -/
  columns : ∀ name, x.outcome ≠ .error (.columnNotFound name)
  /-- A row without an answer comes from such a clause. -/
  rows : ∀ p fault, x.outcome = .error (.evaluation p fault) →
    Compile.HasFallback schema source x.events
  /-- Without such a clause there is an answer. -/
  answers : ready → ¬ Compile.HasFallback schema source x.events → ∃ a, x.outcome = .ok a

theorem Session.Course.failsOnlyOnFallback [Calendar.Parsers] {α : Type} {s : Session}
    {user dataset source : String} {t : Table} {ready : Prop} {x : Traced α}
    (h : s.Course user dataset source t ready x) (ht : t.IsValid) (hnan : t.WithoutNaN)
    (hschema : s.schemas.schema dataset = .ok t.schema) :
    FailsOnlyOnFallback t.schema source ready x := by
  cases h with
  | early err houtcome hkind hunready =>
    -- an error from before the rows is of neither kind
    refine ⟨?_, ?_, fun hready => absurd hready hunready⟩
    · intro name herr
      rw [houtcome] at herr
      cases herr
      cases hkind
    · intro p fault herr
      rw [houtcome] at herr
      cases herr
      cases hkind
  | rows c f hc houtcome hevents =>
    have hfallback : ∀ err, x.outcome = .error err →
        (∃ p fault, err = .evaluation p fault) ∧ Compile.HasFallback t.schema source x.events := by
      intro err herr
      rw [houtcome, map_eq_error_iff] at herr
      obtain ⟨hevaluation, hhas⟩ := Session.fallback_of_compile ht hnan hschema hc herr
      exact ⟨hevaluation, hhas.mono hevents⟩
    refine ⟨?_, ?_, ?_⟩
    · intro name herr
      obtain ⟨⟨p, fault, heq⟩, _⟩ := hfallback _ herr
      cases heq
    · intro p fault herr
      exact (hfallback _ herr).2
    · intro _ hno
      cases hx : x.outcome with
      | error err => exact absurd (hfallback err hx).2 hno
      | ok a => exact ⟨a, rfl⟩

/-- **Failures on inferred types.** On a dataset that was registered without a schema and has no cell that
is not a number, no request misses a column, and a row has no answer only if the query orders the cells of
a column inferred as `integer`, `float` or `boolean` against a literal that did not read as a value of the
type, about which there was a warning. Without such a clause every query that compiles is counted, and
every request for it with a limit of at least one is answered. -/
theorem fails_only_on_fallback [Calendar.Parsers] {catalog : Catalog} {dataset : String} {t : Table}
    (hdataset : catalog.find? dataset = some ⟨t, none⟩) (ht : t.IsValid) (hnan : t.WithoutNaN)
    (lists : Literal.NamedLists) (limits : PageLimits) :
    let s := Session.ofCatalog catalog lists limits
    (∀ r : Request, r.dataset = dataset →
      FailsOnlyOnFallback t.schema r.query (s.IsReady r) (s.filter r)) ∧
    ∀ user source, FailsOnlyOnFallback t.schema source
      (∃ c, (s.compile user dataset source).outcome = .ok c) (s.count user dataset source) := by
  intro s
  have hschema : s.schemas.schema dataset = .ok t.schema := by
    show catalog.schema dataset = .ok t.schema
    rw [Catalog.schema, hdataset]
    rfl
  have hload : s.datasets.load dataset = .ok t := by
    show catalog.load dataset = .ok t
    rw [Catalog.load, hdataset]
  constructor
  · rintro r rfl
    exact (Session.course_filter hload).failsOnlyOnFallback ht hnan hschema
  · intro user source
    exact (Session.course_count hload user source).failsOnlyOnFallback ht hnan hschema

/-- A cell that has reached the lower bound of a range cannot be ordered against an upper one that is no
number, whose cast was reported. -/
theorem fails_only_on_fallback_between :
    let t : Table := .of ["age"] [[.null], [.int 3]]
    let catalog : Catalog := ⟨[("people", ⟨t, none⟩)]⟩
    let s := Session.ofCatalog catalog .empty .usual
    let source := "#\x7bage\x7d between \x7b1, x\x7d"
    let p : Predicate := ⟨"age", .integer, .between, .range (.int 1) (.text "x"), some "1, x", 0⟩
    let fault : EvaluationFault := .unordered (.int 3) (.text "x")
    catalog.find? "people" = some ⟨t, none⟩ ∧ t.IsValid ∧ t.WithoutNaN ∧
      (s.count "u" "people" source).outcome = .error (.evaluation p fault) ∧
      (s.filter ⟨"u", "people", source, 0, none⟩).outcome = .error (.evaluation p fault) ∧
      Compile.HasFallback t.schema source (s.count "u" "people" source).events ∧
      ∀ name, (s.filter ⟨"u", "people", source, 0, none⟩).outcome ≠ .error (.columnNotFound name) := by
  intro t catalog s source p fault
  have hparse : Query.parse source = .ok (.leaf ⟨"age", 0, .between, some "1, x"⟩) := by
    have hsource : source = Query.render (.leaf ⟨"age", 0, .between, some "1, x"⟩) := by
      decide +kernel
    rw [hsource, Query.parse_render_eq (by decide +kernel) (by decide +kernel)]
    rfl
  have hdataset : catalog.find? "people" = some ⟨t, none⟩ := rfl
  have ht : t.IsValid := Table.isValid_of (by decide) (by decide)
  have hnan : t.WithoutNaN := by
    intro row hrow x hx
    simp only [t, Table.of, List.mem_cons, List.not_mem_nil, or_false] at hrow
    rcases hrow with rfl | rfl
    · cases List.mem_singleton.1 hx
    · cases List.mem_singleton.1 hx
  have hcompile : (s.compile "u" "people" source).outcome = .ok ⟨source, .leaf p⟩ := by
    rw [Session.outcome_compile, hparse]
    rfl
  have hcount : (s.count "u" "people" source).outcome = .error (.evaluation p fault) := by
    rw [Session.outcome_count, hcompile]
    rfl
  have hfilter : (s.filter ⟨"u", "people", source, 0, none⟩).outcome =
      .error (.evaluation p fault) := by
    rw [Session.outcome_filter, hcompile]
    rfl
  obtain ⟨hallFilter, hallCount⟩ := fails_only_on_fallback hdataset ht hnan .empty .usual
  exact ⟨hdataset, ht, hnan, hcount, hfilter, (hallCount "u" source).rows p fault hcount,
    (hallFilter ⟨"u", "people", source, 0, none⟩ rfl).columns⟩

end RowFilter
