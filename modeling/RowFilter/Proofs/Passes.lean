import RowFilter.Compile
import RowFilter.Proofs.Results

/-!
# RowFilter — checks that are made again

The second and the third pass of the compiler check a clause again, for the type of its column. Behind the
first pass no such check fails, and it finds the same type. So the compiler may be seen as one that checks
a query once and hands the types on: the lists are looked up for the checked clauses, and the predicates
are made from them.

Main results:

* `Formula.traverse_eq_of_ok` — a second way through a formula that goes on with what the first one found.
* `Compile.resolveLists_eq`, `Compile.build_eq` — the later passes, on the clauses that were checked.
* `Compile.formula_eq` — the compiler without the repeated checks.
-/

namespace RowFilter

/-! ## Formulas that were gone through before -/

namespace Formula

variable {α β γ ε : Type} {m : Type → Type} [Monad m] {g : α → Except ε β} {h : β → m γ}
  {k : α → m γ}

mutual
/-- What is done with the leaves of a formula may as well be done with what was found for them. -/
theorem traverse_eq_of_ok (hk : ∀ a b, g a = .ok b → k a = h b) :
    ∀ {f : Formula α} {found : Formula β}, f.traverse g = .ok found → f.traverse k = found.traverse h
  | .leaf a, _, hfound => by
    obtain ⟨b, hb, hleaf⟩ := bind_eq_ok hfound
    cases hleaf
    rw [traverse, traverse, hk a b hb]
  | .all fs, _, hfound => by
    obtain ⟨fs', hfs, hall⟩ := bind_eq_ok hfound
    cases hall
    rw [traverse, traverse, traverseOf_eq_of_ok hk hfs]
  | .any fs, _, hfound => by
    obtain ⟨fs', hfs, hany⟩ := bind_eq_ok hfound
    cases hany
    rw [traverse, traverse, traverseOf_eq_of_ok hk hfs]
  | .group f, _, hfound => by
    obtain ⟨f', hf, hgroup⟩ := bind_eq_ok hfound
    cases hgroup
    rw [traverse, traverse, traverse_eq_of_ok hk hf]

theorem traverseOf_eq_of_ok (hk : ∀ a b, g a = .ok b → k a = h b) :
    ∀ {fs : List (Formula α)} {found : List (Formula β)},
      traverseOf g fs = .ok found → traverseOf k fs = traverseOf h found
  | [], _, hfound => by
    cases hfound
    rfl
  | f :: fs, _, hfound => by
    obtain ⟨f', hf, hrest⟩ := bind_eq_ok hfound
    obtain ⟨fs', hfs, hcons⟩ := bind_eq_ok hrest
    cases hcons
    rw [traverseOf, traverseOf, traverse_eq_of_ok hk hf, traverseOf_eq_of_ok hk hfs]
end

/-- A formula is traversed as the list of its leaves is. -/
theorem outcome_traverse (g : α → Except ε β) (f : Formula α) :
    (f.traverse g).map leaves = f.leaves.mapM g :=
  leaves_traverse g f

end Formula

namespace Compile

open Query (Clause)
open Literal (NamedLists)

/-! ## Checked clauses -/

variable {schema : Schema} {lists : NamedLists} {user : String} {query : Formula Clause}
  {checked : Formula (Clause × LogicalType)}

theorem checked_of_mem (h : query.traverse (checkClause schema) = .ok checked)
    {c : Clause × LogicalType} (hc : c ∈ checked.leaves) : checkClause schema c.1 = .ok c := by
  have hleaves := Formula.outcome_traverse (checkClause schema) query
  rw [h] at hleaves
  obtain ⟨c', _, hc'⟩ := exists_of_mapM_eq_ok hleaves.symm c hc
  rw [(checkClause_eq_ok hc').1]
  exact hc'

theorem fst_checked (h : query.traverse (checkClause schema) = .ok checked) :
    checked.leaves.map Prod.fst = query.leaves := by
  have hleaves := Formula.outcome_traverse (checkClause schema) query
  rw [h] at hleaves
  exact map_of_mapM_eq_ok (fun _ _ hc => (checkClause_eq_ok hc).1) hleaves.symm

/-- The first pass fails with the first clause that does not go through. -/
theorem checkAll_eq (schema : Schema) (query : Formula Clause) :
    checkAll schema query = (query.traverse (checkClause schema)).map fun _ => () := by
  -- the first pass goes over the list of the clauses, and keeps nothing of what it finds
  have hlist (cs : List Clause) : (forM cs fun c => (checkClause schema c).map fun _ => ()) =
      (cs.mapM (checkClause schema)).map fun _ => () := by
    induction cs with
    | nil => rfl
    | cons c cs ih =>
      rw [List.forM_cons, List.mapM_cons, ih]
      cases checkClause schema c with
      | error e => rfl
      | ok checked => cases cs.mapM (checkClause schema) <;> rfl
  rw [checkAll, hlist, ← Formula.outcome_traverse, map_map]

/-! ## The later passes -/

/-- Looks the list of a checked clause up, if it takes one. -/
def resolveClause (lists : NamedLists) (user : String) (found : Resolved)
    (c : Clause × LogicalType) : Traced Resolved :=
  if takesList c.1.operator then resolveList lists user found c else pure found

/-- Looks the lists of all checked clauses up. -/
def resolveAll (lists : NamedLists) (user : String) (cs : List (Clause × LogicalType)) :
    Traced Resolved :=
  cs.foldlM (resolveClause lists user) []

/-- Behind the first pass the second one looks the lists of the checked clauses up. -/
theorem resolveLists_eq (h : query.traverse (checkClause schema) = .ok checked) :
    resolveLists schema lists user query = resolveAll lists user checked.leaves := by
  have hstep : ∀ c ∈ checked.leaves, ∀ found, (if takesList c.1.operator then do
        let checked ← Traced.ofExcept (checkClause schema c.1)
        resolveList lists user found checked
      else pure found) = resolveClause lists user found c := by
    intro c hc found
    rw [checked_of_mem h hc]
    rfl
  rw [resolveLists, ← fst_checked h, resolveAll]
  generalize checked.leaves = cs at hstep
  generalize ([] : Resolved) = found
  -- induction on the clauses, for all lists that were looked up so far
  induction cs generalizing found with
  | nil => rfl
  | cons c cs ih =>
    obtain ⟨hc, hcs⟩ := List.forall_mem_cons.1 hstep
    rw [List.map_cons, List.foldlM_cons, List.foldlM_cons]
    simp only [ih hcs]
    rw [hc]

/-- Behind the first pass the third one makes predicates from the checked clauses. -/
theorem build_eq (h : query.traverse (checkClause schema) = .ok checked) (user : String)
    (found : Resolved) :
    build schema user found query = checked.traverse (predicateTraced user found) := by
  refine Formula.traverse_eq_of_ok ?_ h
  intro c checked hc
  rw [hc]
  exact pure_bind _ _

/-- The compiler, if it handed the types on in place of checking the clauses again. -/
theorem formula_eq (schema : Schema) (lists : NamedLists) (user source : String)
    (query : Formula Clause) : formula schema lists user source query = (do
      let checked ← Traced.ofExcept (query.traverse (checkClause schema))
      let found ← resolveAll lists user checked.leaves
      let root ← checked.traverse (predicateTraced user found)
      let compiled : Compiled := ⟨source, root⟩
      Traced.report (.compiled compiled)
      return compiled) := by
  rw [formula, checkAll_eq]
  cases hchecked : query.traverse (checkClause schema) with
  | error e => rfl
  | ok checked =>
    rw [resolveLists_eq hchecked]
    simp only [build_eq hchecked]
    rfl

end Compile

end RowFilter
