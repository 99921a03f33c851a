import RowFilter.Proofs.Acceptance
import RowFilter.Proofs.Operands
import RowFilter.Session

/-!
# RowFilter — kinds of errors

Each part of the work on a request fails with errors of its own kinds: the limits with a page that is not
there, the scans, the counts and the reader with syntax errors, the catalogs with datasets that are not
there, the checks of the clauses with errors about columns, operators and ranges, and the look-up of the
lists with lists that are not there. None of these parts has seen a row, so none of their errors is about
one.

Main results:

* `Query.kind_parse` — a query that is not read has a syntax error.
* `Compile.kind_formula` — the errors of the three passes.
* `Session.kind_compile` — the errors of compiling for a dataset.
-/

namespace RowFilter

/-! ## Syntax errors -/

namespace Query

variable {e : FilterError}

theorem kind_scanColumns {pos : Nat} {s : List Char} (h : scanColumns pos s = .error e) :
    e.kind = .querySyntax := by
  fun_induction scanColumns pos s with
  | case1 | case2 => cases h
  | case3 =>
    cases h
    rfl
  | case4 pos c d body hcolumn name after hcut hlt stop ih => exact ih (map_eq_error_iff.1 h)
  | case5 pos c d body hcolumn ih => exact ih h

theorem kind_scanValues {pos : Nat} {hash : Bool} {s : List Char}
    (h : scanValues pos hash s = .error e) : e.kind = .querySyntax := by
  fun_induction scanValues pos hash s with
  | case1 => cases h
  | case2 | case4 =>
    cases h
    rfl
  | case3 pos rest name after hcut hlt ih => exact ih h
  | case5 pos hash rest hhash literal after hcut hlt stop ih => exact ih (map_eq_error_iff.1 h)
  | case6 pos hash c rest hbrace ih => exact ih h

theorem kind_operatorTokens {ws : List Word} (h : operatorTokens ws = .error e) :
    e.kind = .querySyntax := by
  fun_induction operatorTokens ws with
  | case1 => cases h
  | case2 w rest hconjunction ih => exact ih h
  | case3 | case5 | case7 =>
    cases h
    rfl
  | case4 w hconjunction hnot next more hin ih => exact ih (map_eq_error_iff.1 h)
  | case6 w rest hconjunction hnot hop ih => exact ih (map_eq_error_iff.1 h)

theorem kind_checkValues {os vs : List Token} (h : TokenStream.checkValues os vs = .error e) :
    e.kind = .querySyntax := by
  fun_induction TokenStream.checkValues os vs with
  | case1 => cases h
  | case2 | case3 =>
    cases h
    rfl
  | case4 o os hwanted v vs ih => exact ih h
  | case5 vs o os hwanted ih => exact ih h

theorem kind_checkCounts {s : TokenStream} (h : s.checkCounts = .error e) :
    e.kind = .querySyntax := by
  unfold TokenStream.checkCounts at h
  simp only at h
  split at h
  · cases h
    rfl
  · cases h
    rfl
  · exact kind_checkValues h

theorem kind_tokenize {query : String} (h : tokenize query = .error e) : e.kind = .querySyntax := by
  unfold tokenize at h
  simp only at h
  -- one scan after the other, and the counts at the end
  rcases bind_eq_error h with hcolumns | ⟨columns, _, h⟩
  · exact kind_scanColumns hcolumns
  rcases bind_eq_error h with hvalues | ⟨values, _, h⟩
  · exact kind_scanValues hvalues
  rcases bind_eq_error h with hoperators | ⟨operators, _, h⟩
  · obtain ⟨run, _, hrun⟩ := exists_of_mapM_eq_error hoperators
    exact kind_operatorTokens hrun
  rcases bind_eq_error h with hcounts | ⟨_, _, h⟩
  · exact kind_checkCounts hcounts
  · cases h

/-- A query that is not read has a syntax error. -/
theorem kind_parse {query : String} (h : parse query = .error e) : e.kind = .querySyntax := by
  rcases bind_eq_error h with htokenize | ⟨stream, _, hread⟩
  · exact kind_tokenize htokenize
  · obtain ⟨offset, fault, rfl⟩ := readTokens_error hread
    rfl

end Query

/-! ## The three passes -/

/-- A formula whose leaves do not all go through has a leaf that does not. -/
theorem Formula.exists_leaf_of_traverse_error {α β ε : Type} {g : α → Except ε β} {f : Formula α}
    {err : ε} (h : f.traverse g = .error err) : ∃ a ∈ f.leaves, g a = .error err := by
  -- a formula is traversed as the list of its leaves is
  have hleaves := leaves_traverse g f
  rw [h] at hleaves
  exact exists_of_mapM_eq_error hleaves.symm

namespace Literal

variable {e : FilterError}

theorem kind_bounds {raw : List Char} (h : bounds raw = .error e) : e.kind = .betweenCount := by
  unfold bounds at h
  split at h
  · cases h
  · cases h
    rfl

theorem kind_namedList {lists : NamedLists} {user name : String}
    (h : namedList lists user name = .error e) : e.kind = .listNotFound := by
  unfold namedList at h
  split at h
  · cases h
  · cases h
    rfl

end Literal

namespace Compile

open Query (Clause)
open Literal (NamedLists)

variable {schema : Schema} {lists : NamedLists} {user : String} {e : FilterError}

theorem kind_checkClause {c : Clause} (h : checkClause schema c = .error e) :
    e.kind ∈ [.unknownColumn, .unsupportedOperator, .betweenCount] := by
  unfold checkClause at h
  split at h
  · cases h
    simp [FilterError.kind]
  · split at h
    · split at h
      · rw [Literal.kind_bounds (map_eq_error_iff.1 h)]
        decide
      · cases h
    · cases h
      simp [FilterError.kind]

theorem kind_resolveClause {found : Resolved} {c : Clause × LogicalType}
    (h : (resolveClause lists user found c).outcome = .error e) : e.kind = .listNotFound := by
  unfold resolveClause resolveList at h
  split at h
  · simp only at h
    split at h
    · cases h
    · -- the casts of the items never fail, so only the look-up can
      rw [Traced.outcome_bind, Literal.outcome_resolveTraced] at h
      rcases bind_eq_error h with hlist | ⟨items, _, h⟩
      · exact Literal.kind_namedList (map_eq_error_iff.1 hlist)
      · cases h
  · cases h

theorem kind_resolveAll {cs : List (Clause × LogicalType)}
    (h : (resolveAll lists user cs).outcome = .error e) : e.kind = .listNotFound := by
  rw [resolveAll, Traced.outcome_foldlM] at h
  obtain ⟨found, c, _, hc⟩ := exists_of_foldlM_eq_error h
  exact kind_resolveClause hc

theorem kind_plainOperand {found : Resolved} {c : Clause} {type : LogicalType}
    (h : plainOperand user found c type = .error e) : e.kind ∈ [.betweenCount, .listNotFound] := by
  unfold plainOperand at h
  split at h
  · cases h
  · cases h
  · rw [Literal.kind_bounds (map_eq_error_iff.1 h)]
    decide
  · split at h
    · split at h
      · cases h
      · cases h
        simp [FilterError.kind]
    · cases h

theorem kind_plainPredicate {found : Resolved} {c : Clause × LogicalType}
    (h : plainPredicate user found c = .error e) : e.kind ∈ [.betweenCount, .listNotFound] := by
  unfold plainPredicate at h
  split at h
  · cases h
  · exact kind_plainOperand (map_eq_error_iff.1 h)

/-- Compiling fails in the checks or in the look-up of a list. -/
theorem kind_formula {source : String} {query : Formula Clause}
    (h : (formula schema lists user source query).outcome = .error e) :
    e.kind ∈ [.unknownColumn, .unsupportedOperator, .betweenCount, .listNotFound] := by
  rw [formula_eq, Traced.outcome_bind, Traced.outcome_ofExcept] at h
  rcases bind_eq_error h with hchecked | ⟨checked, _, h⟩
  · obtain ⟨c, _, hc⟩ := Formula.exists_leaf_of_traverse_error hchecked
    exact List.mem_append_left [_] (kind_checkClause hc)
  rw [Traced.outcome_bind] at h
  rcases bind_eq_error h with hfound | ⟨found, _, h⟩
  · rw [kind_resolveAll hfound]
    decide
  rw [Traced.outcome_bind] at h
  rcases bind_eq_error h with hroot | ⟨root, _, h⟩
  · -- no predicate of the formula, because a clause has none
    have hleaves := outcome_traverse_predicateTraced user found checked
    rw [hroot] at hleaves
    obtain ⟨c, _, hc⟩ := exists_of_mapM_eq_error hleaves.symm
    exact List.mem_cons_of_mem _ (List.mem_cons_of_mem _ (kind_plainPredicate hc))
  · cases h

end Compile

/-! ## Requests -/

theorem Catalog.kind_schema [Calendar.Parsers] {c : Catalog} {name : String} {e : FilterError}
    (h : c.schema name = .error e) : e.kind = .unknownSchema := by
  unfold Catalog.schema at h
  split at h
  · cases h
  · cases h
    rfl

theorem PageLimits.kind_resolve {l : PageLimits} {requested : Option UInt64} {offset : UInt64}
    {e : FilterError} (h : l.resolve requested offset = .error e) : e.kind = .invalidPagination := by
  unfold PageLimits.resolve at h
  split at h
  · cases h
  · split at h
    · cases h
      rfl
    · cases h

namespace Session

variable [Calendar.Parsers]

/-- Compiling for a dataset. -/
theorem outcome_compile (s : Session) (user dataset source : String) :
    (s.compile user dataset source).outcome = (do
      let query ← Query.parse source
      let schema ← s.schemas.schema dataset
      (Compile.formula schema s.lists user source query).outcome) := by
  rw [compile, Traced.outcome_bind, Traced.outcome_ofExcept]
  congr 1
  funext query
  rw [Traced.outcome_bind, Traced.outcome_ofExcept]
  congr 1

/-- No error of compiling is about a row. -/
theorem kind_compile {s : Session} {user dataset source : String} {e : FilterError}
    (h : (s.compile user dataset source).outcome = .error e) :
    e.kind ∈ [.querySyntax, .unknownSchema, .unknownColumn, .unsupportedOperator, .betweenCount,
      .listNotFound] := by
  rw [outcome_compile] at h
  rcases bind_eq_error h with hparse | ⟨query, _, h⟩
  · rw [Query.kind_parse hparse]
    decide
  rcases bind_eq_error h with hschema | ⟨schema, _, h⟩
  · rw [Catalog.kind_schema hschema]
    decide
  · exact List.mem_cons_of_mem _ (List.mem_cons_of_mem _ (Compile.kind_formula h))

/-- A query that compiles was read, and compiled against the schema of the dataset. -/
theorem compile_eq_ok {s : Session} {user dataset source : String} {c : Compiled}
    (h : (s.compile user dataset source).outcome = .ok c) :
    ∃ query schema, Query.parse source = .ok query ∧ s.schemas.schema dataset = .ok schema ∧
      (Compile.formula schema s.lists user source query).outcome = .ok c := by
  rw [outcome_compile] at h
  obtain ⟨query, hquery, h⟩ := bind_eq_ok h
  obtain ⟨schema, hschema, h⟩ := bind_eq_ok h
  exact ⟨query, schema, hquery, hschema, h⟩

end Session

end RowFilter
