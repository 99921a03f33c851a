import RowFilter.Formula
import RowFilter.Operator
import RowFilter.Value

/-!
# RowFilter — predicates

A predicate is a clause whose column has a type and whose literal has become an operand of that type.
A compiled filter is a formula of predicates together with the query it came from.

Main results:

* `Compiled.mem_columns` — the columns of a compiled filter are those of its predicates.
-/

namespace RowFilter

/-- The right-hand side of a predicate. -/
inductive Operand
  | none
  | scalar (v : Value)
  | set (vs : List Value)
  /-- Both bounds belong to the range. -/
  | range (low high : Value)
deriving DecidableEq, Repr

namespace Operand

/-- An operand as diagnostics show it. -/
def debug : Operand → String
  | none => "None"
  | scalar v => "Scalar(" ++ v.debug ++ ")"
  | set vs => "Set([" ++ String.intercalate ", " (vs.map Value.debug) ++ "])"
  | range low high => "Range(" ++ low.debug ++ ", " ++ high.debug ++ ")"

/-- An operand as messages show it behind its operator. -/
def display : Operand → String
  | none => ""
  | scalar v => " " ++ v.display
  | set vs => " [" ++ String.intercalate ", " (vs.map Value.display) ++ "]"
  | range low high => " [" ++ low.display ++ ", " ++ high.display ++ "]"

end Operand

/-- A test of one column. -/
structure Predicate where
  column : String
  type : LogicalType
  operator : Operator
  operand : Operand
  /-- The literal as it was written. -/
  raw : Option String
  /-- Where the clause starts in the query. -/
  offset : Nat
deriving DecidableEq, Repr

/-- A predicate as messages show it. -/
def Predicate.display (p : Predicate) : String :=
  "#\x7b" ++ p.column ++ "\x7d " ++ p.operator.name ++ p.operand.display

/-- A filter that can be applied to the rows of a table. -/
structure Compiled where
  source : String
  root : Formula Predicate
deriving Repr

namespace Compiled

/-- The predicates from left to right. -/
def predicates (c : Compiled) : List Predicate := c.root.leaves

/-- Adds the names that are not there yet, in their order. -/
def addNames (seen : List String) (names : List String) : List String :=
  names.foldl (fun acc n => if n ∈ acc then acc else acc ++ [n]) seen

/-- The columns in the order of their first use. -/
def columns (c : Compiled) : List String := addNames [] (c.predicates.map Predicate.column)

/-- The text of the filter. -/
def display (c : Compiled) : String := c.root.display Predicate.display

theorem mem_addNames {seen names : List String} {n : String} :
    n ∈ addNames seen names ↔ n ∈ seen ∨ n ∈ names := by
  induction names generalizing seen with
  | nil => simp [addNames]
  | cons m ns ih =>
    show n ∈ addNames (if m ∈ seen then seen else seen ++ [m]) ns ↔ _
    rw [ih]
    by_cases hm : m ∈ seen
    · rw [if_pos hm, List.mem_cons]
      constructor
      · exact fun h => h.imp_right .inr
      · rintro (h | rfl | h)
        · exact .inl h
        · exact .inl hm
        · exact .inr h
    · rw [if_neg hm, List.mem_append, List.mem_singleton, List.mem_cons, or_assoc]

/-- Names that are all there add nothing. -/
theorem addNames_of_subset {seen names : List String} (h : ∀ n ∈ names, n ∈ seen) :
    addNames seen names = seen := by
  induction names with
  | nil => rfl
  | cons n ns ih =>
    rw [addNames, List.foldl_cons, if_pos (h n List.mem_cons_self)]
    exact ih fun m hm => h m (List.mem_cons_of_mem n hm)

/-- Names that are new and distinct are added in their order. -/
theorem addNames_of_nodup {seen names : List String} (h : (seen ++ names).Nodup) :
    addNames seen names = seen ++ names := by
  induction names generalizing seen with
  | nil => exact (List.append_nil seen).symm
  | cons n ns ih =>
    have hn : n ∉ seen := fun hn => (List.nodup_append.1 h).2.2 n hn n List.mem_cons_self rfl
    rw [List.append_cons] at h ⊢
    rw [addNames, List.foldl_cons, if_neg hn]
    exact ih h

theorem mem_columns {c : Compiled} {name : String} :
    name ∈ c.columns ↔ ∃ p ∈ c.predicates, p.column = name := by
  rw [columns, mem_addNames, List.mem_map]
  simp

end Compiled

end RowFilter
