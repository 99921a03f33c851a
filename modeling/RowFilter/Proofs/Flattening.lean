import RowFilter.Proofs.ClashWarnings

/-!
# RowFilter — parentheses and nested chains

Parentheses only keep operands together, a chain inside a chain of the same sort could stand there without
its own, and a chain of one operand is that operand. Formulas that differ in no more than this have the same
leaves in the same order, and the leaves are tested in the same order too: where a nested chain stops, the
outer one goes on or stops just as it would have done. So they give the same answers and warn of the same
clashes. Each of them has one form without any of this, its flat form.

Main results:

* `Formula.Regrouped.evalM_eq` — formulas that are grouped in another way are evaluated alike.
* `Formula.Regrouped.numberFrom` — their leaves have the same positions.
* `Formula.isFlat_flat`, `Formula.regrouped_flat` — the flat form of a formula.
* `Formula.regrouped_iff_flat` — two formulas differ only in their grouping just if they have the same one.
* `flattening_keeps_replies` — a filter and its flat form have the same answers and warnings.
-/

namespace RowFilter

namespace Formula

variable {α : Type}

/-! ## Chains of either sort -/

/-- The two sorts of chains. -/
inductive Connective
  | all
  | any

namespace Connective

variable {k k' : Connective} {f : Formula α} {fs gs : List (Formula α)}

/-- A chain of this sort. -/
def of : Connective → List (Formula α) → Formula α
  | all, fs => .all fs
  | any, fs => .any fs

/-- A chain of this sort, where a single operand stands for itself. -/
def close : Connective → List (Formula α) → Formula α
  | all, fs => chainAll fs
  | any, fs => chainAny fs

/-- The value of a chain without operands, which makes every other chain go on. -/
def unit : Connective → Bool
  | all => true
  | any => false

/-- The operands of a chain of this sort; every other formula is an operand on its own. -/
def operands : Connective → Formula α → List (Formula α)
  | all, .all fs => fs
  | any, .any fs => fs
  | _, f => [f]

theorem of_inj (h : k.of fs = k'.of gs) : k = k' ∧ fs = gs := by
  cases k <;> cases k' <;> cases h
  · exact ⟨rfl, rfl⟩
  · exact ⟨rfl, rfl⟩

theorem of_ne_leaf (k : Connective) (fs : List (Formula α)) (a : α) : k.of fs ≠ .leaf a := by
  cases k <;> exact nofun

theorem operands_of (k : Connective) (fs : List (Formula α)) : k.operands (k.of fs) = fs := by
  cases k <;> rfl

theorem operands_of_ne (h : ∀ fs, f ≠ k.of fs) : k.operands f = [f] := by
  cases k <;> cases f <;> first | rfl | exact absurd rfl (h _)

theorem close_single (k : Connective) (f : Formula α) : k.close [f] = f := by
  cases k <;> rfl

theorem close_of_length_ne (k : Connective) (h : fs.length ≠ 1) : k.close fs = k.of fs := by
  cases fs with
  | nil => cases k <;> rfl
  | cons f fs =>
    cases fs with
    | nil => exact absurd rfl h
    | cons g fs => cases k <;> rfl

/-- A formula is a chain of this sort, or an operand on its own. -/
theorem operands_cases (k : Connective) (f : Formula α) :
    (∃ fs, f = k.of fs ∧ k.operands f = fs) ∨ (∀ fs, f ≠ k.of fs) ∧ k.operands f = [f] := by
  by_cases hchain : ∃ fs, f = k.of fs
  · obtain ⟨fs, rfl⟩ := hchain
    exact .inl ⟨fs, rfl, k.operands_of fs⟩
  · have hne : ∀ fs, f ≠ k.of fs := fun fs heq => hchain ⟨fs, heq⟩
    exact .inr ⟨hne, operands_of_ne hne⟩

/-- A chain is closed over a single operand, or is left as it is. -/
theorem close_cases (k : Connective) (fs : List (Formula α)) :
    (∃ f, fs = [f] ∧ k.close fs = f) ∨ fs.length ≠ 1 ∧ k.close fs = k.of fs := by
  by_cases hsize : fs.length = 1
  · obtain ⟨f, rfl⟩ := List.length_eq_one_iff.1 hsize
    exact .inl ⟨f, rfl, k.close_single f⟩
  · exact .inr ⟨hsize, k.close_of_length_ne hsize⟩

theorem leaves_of (k : Connective) (fs : List (Formula α)) : (k.of fs).leaves = leavesOf fs := by
  cases k <;> rfl

theorem numberFrom_of (k : Connective) (n : Nat) (fs : List (Formula α)) :
    (k.of fs).numberFrom n = k.of (numberOf n fs) := by
  cases k <;> rfl

section Evaluation

variable {m : Type → Type} [Monad m] (test : α → m Bool)

theorem evalM_of_nil (k : Connective) : (k.of []).evalM test = pure k.unit := by
  cases k <;> rfl

/-- A chain goes on just as long as its operands have the value of an empty one. -/
theorem evalM_of_cons (k : Connective) (f : Formula α) (fs : List (Formula α)) :
    (k.of (f :: fs)).evalM test =
      f.evalM test >>= fun b => if b = k.unit then (k.of fs).evalM test else pure b := by
  cases k
  all_goals
    show f.evalM test >>= _ = _
    congr 1
    funext b
    cases b <;> rfl

variable [LawfulMonad m]

theorem evalM_of_single (k : Connective) (f : Formula α) : (k.of [f]).evalM test = f.evalM test := by
  rw [evalM_of_cons, evalM_of_nil]
  refine Eq.trans ?_ (bind_pure _)
  congr 1
  funext b
  by_cases hb : b = k.unit
  · rw [if_pos hb, hb]
  · rw [if_neg hb]

theorem evalM_of_append (k : Connective) (fs gs : List (Formula α)) :
    (k.of (fs ++ gs)).evalM test =
      (k.of fs).evalM test >>= fun b => if b = k.unit then (k.of gs).evalM test else pure b := by
  induction fs with
  | nil => rw [evalM_of_nil, pure_bind, if_pos rfl, List.nil_append]
  | cons f fs ih =>
    rw [List.cons_append, evalM_of_cons, evalM_of_cons, ih, bind_assoc]
    congr 1
    funext b
    by_cases hb : b = k.unit
    · rw [if_pos hb, if_pos hb]
    · -- the first part has stopped, so the second one is not looked at
      rw [if_neg hb, if_neg hb, pure_bind, if_neg hb]

end Evaluation

end Connective

/-! ## Other groupings -/

/-- Two formulas that differ only in parentheses, in chains inside chains of the same sort, and in chains of
one operand, at any depth. -/
inductive Regrouped : Formula α → Formula α → Prop
  | refl (f : Formula α) : Regrouped f f
  | symm {f g : Formula α} : Regrouped f g → Regrouped g f
  | trans {f g h : Formula α} : Regrouped f g → Regrouped g h → Regrouped f h
  | group (f : Formula α) : Regrouped (.group f) f
  | splice (k : Connective) (before inner after : List (Formula α)) :
    Regrouped (k.of (before ++ k.of inner :: after)) (k.of (before ++ (inner ++ after)))
  | single (k : Connective) (f : Formula α) : Regrouped (k.of [f]) f
  | inside (k : Connective) {f g : Formula α} (before after : List (Formula α)) :
    Regrouped f g → Regrouped (k.of (before ++ f :: after)) (k.of (before ++ g :: after))

/-- Formulas that are grouped in another way are evaluated alike. -/
theorem Regrouped.evalM_eq {m : Type → Type} [Monad m] [LawfulMonad m] {f g : Formula α}
    (h : f.Regrouped g) (test : α → m Bool) : f.evalM test = g.evalM test := by
  induction h with
  | refl f => rfl
  | symm _ ih => exact ih.symm
  | trans _ _ ih ih' => exact ih.trans ih'
  | group f => rfl
  | splice k before inner after =>
    rw [Connective.evalM_of_append, Connective.evalM_of_append, Connective.evalM_of_cons,
      Connective.evalM_of_append]
  | single k f => exact k.evalM_of_single test f
  | inside k before after _ ih =>
    rw [Connective.evalM_of_append, Connective.evalM_of_append, Connective.evalM_of_cons,
      Connective.evalM_of_cons, ih]

theorem leavesOf_append (fs gs : List (Formula α)) :
    leavesOf (fs ++ gs) = leavesOf fs ++ leavesOf gs := by
  rw [leavesOf_eq_flatMap, leavesOf_eq_flatMap, leavesOf_eq_flatMap, List.flatMap_append]

/-- They have the same leaves in the same order. -/
theorem Regrouped.leaves_eq {f g : Formula α} (h : f.Regrouped g) : f.leaves = g.leaves := by
  induction h with
  | refl f => rfl
  | symm _ ih => exact ih.symm
  | trans _ _ ih ih' => exact ih.trans ih'
  | group f => rfl
  | splice k before inner after =>
    simp only [Connective.leaves_of, leavesOf_append, leavesOf]
  | single k f => rw [Connective.leaves_of, leavesOf, leavesOf, List.append_nil]
  | inside k before after _ ih => simp only [Connective.leaves_of, leavesOf_append, leavesOf, ih]

theorem numberOf_append (n : Nat) (fs gs : List (Formula α)) :
    numberOf n (fs ++ gs) = numberOf n fs ++ numberOf (n + (leavesOf fs).length) gs := by
  induction fs generalizing n with
  | nil => rfl
  | cons f fs ih =>
    rw [List.cons_append, numberOf, numberOf, ih, leavesOf, List.length_append, Nat.add_assoc]
    rfl

/-- So every leaf keeps its position. -/
theorem Regrouped.numberFrom {f g : Formula α} (h : f.Regrouped g) (n : Nat) :
    (f.numberFrom n).Regrouped (g.numberFrom n) := by
  induction h generalizing n with
  | refl f => exact .refl _
  | symm _ ih => exact (ih n).symm
  | trans _ _ ih ih' => exact (ih n).trans (ih' n)
  | group f => exact .group _
  | splice k before inner after =>
    simp only [Connective.numberFrom_of, numberOf_append, numberOf, Connective.leaves_of]
    exact .splice k _ _ _
  | single k f =>
    rw [Connective.numberFrom_of]
    exact .single k _
  | inside k before after h ih =>
    simp only [Connective.numberFrom_of, numberOf_append, numberOf, h.leaves_eq]
    exact .inside k _ _ (ih _)

/-! ## Flat forms -/

mutual
/-- The formula without parentheses, where chains stand side by side instead of in chains of the same sort,
and an operand stands for itself instead of in a chain of its own. -/
def flat : Formula α → Formula α
  | .leaf a => .leaf a
  | .all fs => Connective.all.close (flatOf .all fs)
  | .any fs => Connective.any.close (flatOf .any fs)
  | .group f => f.flat

/-- The operands of a chain, once they are flat. -/
def flatOf (k : Connective) : List (Formula α) → List (Formula α)
  | [] => []
  | f :: fs => k.operands f.flat ++ flatOf k fs
end

theorem flat_of (k : Connective) (fs : List (Formula α)) : (k.of fs).flat = k.close (flatOf k fs) := by
  cases k <;> rfl

/-- No parentheses, no chain as an operand of one of its own sort, and no chain of one operand. -/
inductive IsFlat : Formula α → Prop
  | leaf (a : α) : IsFlat (.leaf a)
  | chain (k : Connective) {fs : List (Formula α)} (size : fs.length ≠ 1) (operands : ∀ f ∈ fs, IsFlat f)
    (apart : ∀ gs, k.of gs ∉ fs) : IsFlat (k.of fs)

/-- What a flat chain is made of. -/
theorem IsFlat.of_chain {k : Connective} {fs : List (Formula α)} (h : (k.of fs).IsFlat) :
    fs.length ≠ 1 ∧ (∀ f ∈ fs, f.IsFlat) ∧ ∀ gs, k.of gs ∉ fs := by
  generalize hchain : k.of fs = f at h
  cases h with
  | leaf a => exact absurd hchain (k.of_ne_leaf fs a)
  | chain k' size operands apart =>
    obtain ⟨rfl, rfl⟩ := Connective.of_inj hchain
    exact ⟨size, operands, apart⟩

/-- The operands of a flat formula are flat, and no chains of the same sort. -/
theorem IsFlat.operands {k : Connective} {f g : Formula α} (h : f.IsFlat) (hg : g ∈ k.operands f) :
    g.IsFlat ∧ ∀ gs, g ≠ k.of gs := by
  rcases k.operands_cases f with ⟨fs, rfl, hfs⟩ | ⟨hne, hself⟩
  · obtain ⟨_, hoperands, hapart⟩ := h.of_chain
    rw [hfs] at hg
    exact ⟨hoperands g hg, fun gs heq => hapart gs (heq ▸ hg)⟩
  · rw [hself, List.mem_singleton] at hg
    exact hg ▸ ⟨h, hne⟩

/-- A flat formula is the chain of its operands, of either sort. -/
theorem IsFlat.close_operands {f : Formula α} (h : f.IsFlat) (k : Connective) :
    k.close (k.operands f) = f := by
  rcases k.operands_cases f with ⟨fs, rfl, hfs⟩ | ⟨_, hself⟩
  · rw [hfs, k.close_of_length_ne h.of_chain.1]
  · rw [hself, Connective.close_single]

/-- The chain of flat operands is flat, if none of them is a chain of the same sort. -/
theorem isFlat_close {k : Connective} {fs : List (Formula α)}
    (h : ∀ f ∈ fs, f.IsFlat ∧ ∀ gs, f ≠ k.of gs) : (k.close fs).IsFlat := by
  rcases k.close_cases fs with ⟨f, rfl, hclose⟩ | ⟨hsize, hclose⟩
  · rw [hclose]
    exact (h f List.mem_cons_self).1
  · rw [hclose]
    exact .chain k hsize (fun f hf => (h f hf).1) fun gs hgs => (h _ hgs).2 gs rfl

mutual
/-- The flat form is flat. -/
theorem isFlat_flat : ∀ f : Formula α, f.flat.IsFlat
  | .leaf a => .leaf a
  | .all fs => isFlat_close (isFlat_flatOf .all fs)
  | .any fs => isFlat_close (isFlat_flatOf .any fs)
  | .group f => isFlat_flat f

theorem isFlat_flatOf (k : Connective) :
    ∀ fs : List (Formula α), ∀ g ∈ flatOf k fs, g.IsFlat ∧ ∀ gs, g ≠ k.of gs
  | [], g, hg => nomatch hg
  | f :: fs, g, hg => by
    rcases List.mem_append.1 hg with hg | hg
    · exact (isFlat_flat f).operands hg
    · exact isFlat_flatOf k fs g hg
end

/-- An operand may be replaced by its own operands. -/
theorem regrouped_operands (k : Connective) (before after : List (Formula α)) (f : Formula α) :
    (k.of (before ++ f :: after)).Regrouped (k.of (before ++ (k.operands f ++ after))) := by
  rcases k.operands_cases f with ⟨fs, rfl, hfs⟩ | ⟨_, hself⟩
  · rw [hfs]
    exact .splice k before fs after
  · rw [hself]
    exact .refl _

theorem regrouped_close (k : Connective) (fs : List (Formula α)) : (k.of fs).Regrouped (k.close fs) := by
  rcases k.close_cases fs with ⟨f, rfl, hclose⟩ | ⟨_, hclose⟩
  · rw [hclose]
    exact .single k f
  · rw [hclose]
    exact .refl _

mutual
/-- The flat form of a formula differs from it only in the grouping. -/
theorem regrouped_flat : ∀ f : Formula α, f.Regrouped f.flat
  | .leaf _ => .refl _
  | .all fs => (regrouped_flatOf .all fs []).trans (regrouped_close .all _)
  | .any fs => (regrouped_flatOf .any fs []).trans (regrouped_close .any _)
  | .group f => (Regrouped.group f).trans (regrouped_flat f)

theorem regrouped_flatOf (k : Connective) : ∀ (fs before : List (Formula α)),
    (k.of (before ++ fs)).Regrouped (k.of (before ++ flatOf k fs))
  | [], before => .refl _
  | f :: fs, before => by
    have hfirst : (k.of (before ++ f :: fs)).Regrouped
        (k.of (before ++ (k.operands f.flat ++ fs))) :=
      (Regrouped.inside k before fs (regrouped_flat f)).trans (regrouped_operands k before fs f.flat)
    have hrest := regrouped_flatOf k fs (before ++ k.operands f.flat)
    rw [List.append_assoc, List.append_assoc] at hrest
    exact hfirst.trans hrest
end

/-! ## One flat form -/

theorem flatOf_append (k : Connective) (fs gs : List (Formula α)) :
    flatOf k (fs ++ gs) = flatOf k fs ++ flatOf k gs := by
  induction fs with
  | nil => rfl
  | cons f fs ih => rw [List.cons_append, flatOf, flatOf, ih, List.append_assoc]

/-- The operands of a chain that was closed are those that it was closed over. -/
theorem operands_close {k : Connective} {fs : List (Formula α)}
    (h : ∀ f ∈ fs, f.IsFlat ∧ ∀ gs, f ≠ k.of gs) : k.operands (k.close fs) = fs := by
  rcases k.close_cases fs with ⟨f, rfl, hclose⟩ | ⟨_, hclose⟩
  · rw [hclose, Connective.operands_of_ne (h f List.mem_cons_self).2]
  · rw [hclose, Connective.operands_of]

/-- Grouping does not count for the flat form. -/
theorem Regrouped.flat_eq {f g : Formula α} (h : f.Regrouped g) : f.flat = g.flat := by
  induction h with
  | refl f => rfl
  | symm _ ih => exact ih.symm
  | trans _ _ ih ih' => exact ih.trans ih'
  | group f => rfl
  | splice k before inner after =>
    simp only [flat_of, flatOf_append, flatOf]
    rw [operands_close (isFlat_flatOf k inner)]
  | single k f => rw [flat_of, flatOf, flatOf, List.append_nil, (isFlat_flat f).close_operands k]
  | inside k before after _ ih => simp only [flat_of, flatOf_append, flatOf, ih]

/-- A flat formula is its own flat form. -/
theorem IsFlat.flat_eq {f : Formula α} (h : f.IsFlat) : f.flat = f := by
  induction h with
  | leaf => rfl
  | chain k size operands apart ih =>
    rename_i fs
    have hsame : flatOf k fs = fs := by
      clear size operands
      induction fs with
      | nil => rfl
      | cons f fs ihfs =>
        have hne : ∀ gs, f ≠ k.of gs := fun gs heq => apart gs (heq ▸ List.mem_cons_self)
        rw [flatOf, ih f List.mem_cons_self, Connective.operands_of_ne hne,
          ihfs (fun gs hgs => apart gs (List.mem_cons_of_mem f hgs))
            fun g hg => ih g (List.mem_cons_of_mem f hg)]
        rfl
    rw [flat_of, hsame, k.close_of_length_ne size]

/-- Two formulas differ only in their grouping just if they have the same flat form. -/
theorem regrouped_iff_flat {f g : Formula α} : f.Regrouped g ↔ f.flat = g.flat := by
  constructor
  · exact Regrouped.flat_eq
  · intro h
    exact (regrouped_flat f).trans (h ▸ (regrouped_flat g).symm)

/-! ## Chains of two -/

/-- Chains of two, nested to the left, are one chain. -/
theorem regrouped_foldl (k : Connective) (f : Formula α) (fs : List (Formula α)) :
    (fs.foldl (fun left right => k.of [left, right]) f).Regrouped (k.of (f :: fs)) := by
  induction fs generalizing f with
  | nil => exact (Regrouped.single k f).symm
  | cons g fs ih => exact (ih _).trans (.splice k [] [f, g] fs)

/-- Chains of two, nested to the right, are one chain. -/
theorem regrouped_foldr (k : Connective) (f : Formula α) (fs : List (Formula α)) :
    (fs.foldr (fun left right => k.of [left, right]) f).Regrouped (k.of (fs ++ [f])) := by
  induction fs with
  | nil => exact (Regrouped.single k f).symm
  | cons g fs ih =>
    have hsplice := Regrouped.splice k [g] (fs ++ [f]) []
    rw [List.append_nil] at hsplice
    exact (Regrouped.inside k [g] [] ih).trans hsplice

end Formula

/-! ## Filters -/

/-- For every table and all rows, one after the other, two filters have evaluators that give the same
answers and notice the same clashes on the way to each of them, or both lack the same column. -/
def Compiled.SameReplies (c c' : Compiled) : Prop := ∀ (t : Table) (rows : List Row),
  (Evaluator.new t.places c).map (fun e => e.replies [] (rows.map .whole)) =
    (Evaluator.new t.places c').map fun e => e.replies [] (rows.map .whole)

theorem Evaluator.replies_congr {places : Places} {f g : Formula (Nat × Predicate)}
    (h : ∀ row, (Evaluator.mk places f).holds row = (Evaluator.mk places g).holds row)
    (seen : List Clash) (rows : List Row) :
    (Evaluator.mk places f).replies seen (rows.map .whole) =
      (Evaluator.mk places g).replies seen (rows.map .whole) := by
  induction rows generalizing seen with
  | nil => rfl
  | cons row rows ih =>
    rw [List.map_cons, List.map_cons, replies, replies, reply, reply, ask, ask, h row, ih]

/-- Filters that differ only in their grouping have the same replies. -/
theorem Compiled.sameReplies_of_regrouped {c c' : Compiled} (h : c.root.Regrouped c'.root) :
    c.SameReplies c' := by
  intro t rows
  have hcolumns : c.columns = c'.columns := by
    rw [Compiled.columns, Compiled.columns, Compiled.predicates, Compiled.predicates, h.leaves_eq]
  unfold Evaluator.new
  rw [hcolumns]
  cases c'.columns.find? fun name => !t.places.contains name with
  | some name => rfl
  | none =>
    have hholds : ∀ row, (Evaluator.mk t.places c.root.number).holds row =
        (Evaluator.mk t.places c'.root.number).holds row :=
      -- the leaves are tested in the same way, since they have the same positions
      fun row => (h.numberFrom 0).evalM_eq _
    exact congrArg Except.ok (Evaluator.replies_congr hholds [] rows)

/-- **Grouping does not count.** Every filter has a flat form, which differs from it only in parentheses, in
chains inside chains of the same sort and in chains of one operand, and has none of these; no other formula
is such a form of it. The filter and its flat form, and any two filters that differ only in this way, give
the same answers and warn of the same clashes, row by row and in the same order. In particular a chain may
be put together from chains of two, nested to the left or to the right, and operands may be put in
parentheses. -/
theorem flattening_keeps_replies (c : Compiled) :
    let flattened : Compiled := ⟨c.source, c.root.flat⟩
    c.root.Regrouped flattened.root ∧ flattened.root.IsFlat ∧ c.SameReplies flattened ∧
    (∀ c' : Compiled, c.root.Regrouped c'.root →
      (c'.root.IsFlat → c'.root = flattened.root) ∧ c'.predicates = c.predicates ∧ c.SameReplies c') ∧
    ∀ (k : Formula.Connective) (f : Formula Predicate) (fs : List (Formula Predicate)),
      (fs.foldl (fun left right => k.of [left, right]) f).Regrouped (k.of (f :: fs)) ∧
      (fs.foldr (fun left right => k.of [left, right]) f).Regrouped (k.of (fs ++ [f])) := by
  intro flattened
  have hflat : c.root.Regrouped flattened.root := Formula.regrouped_flat c.root
  refine ⟨hflat, Formula.isFlat_flat c.root, Compiled.sameReplies_of_regrouped hflat, ?_, ?_⟩
  · intro c' h
    refine ⟨fun hc' => ?_, h.leaves_eq.symm, Compiled.sameReplies_of_regrouped h⟩
    rw [← hc'.flat_eq, ← h.flat_eq]
  · intro k f fs
    exact ⟨Formula.regrouped_foldl k f fs, Formula.regrouped_foldr k f fs⟩

/-- A test that clashes, one that does not, and the first one again, grouped in two ways. Both clashes of the
first row are warned of, the second row stops before the last test, and the third row has no cell. -/
theorem flattening_keeps_replies_nested :
    let p : Predicate := ⟨"n", .integer, .eq, .scalar (.text "x"), some "x", 0⟩
    let q : Predicate := ⟨"n", .integer, .eq, .scalar (.int 2), some "2", 15⟩
    let c : Compiled := ⟨"", .group (.any [.all [.leaf p], .any [.leaf q, .group (.leaf p)], .any []])⟩
    let c' : Compiled := ⟨"", .any [.any [.leaf p, .leaf q], .leaf p]⟩
    let t : Table := .of ["n"] []
    let rows : List Row := [[.int 1], [.int 2], []]
    let replies : List Evaluator.Reply :=
      [⟨.ok false, [⟨0, p, .int 1, .text "x"⟩, ⟨2, p, .int 1, .text "x"⟩]⟩, ⟨.ok true, []⟩,
        ⟨.error (.columnNotFound "n"), []⟩]
    c.root.Regrouped c'.root ∧ c.root.flat = .any [.leaf p, .leaf q, .leaf p] ∧ c.SameReplies c' ∧
      (Evaluator.new t.places c).map (fun e => e.replies [] (rows.map .whole)) = .ok replies ∧
      (Evaluator.new t.places c').map (fun e => e.replies [] (rows.map .whole)) = .ok replies := by
  intro p q c c' t rows replies
  have hregrouped : c.root.Regrouped c'.root := Formula.regrouped_iff_flat.2 rfl
  obtain ⟨_, _, _, hsame, _⟩ := flattening_keeps_replies c
  obtain ⟨_, _, hreplies⟩ := hsame c' hregrouped
  have hc : (Evaluator.new t.places c).map (fun e => e.replies [] (rows.map .whole)) = .ok replies := rfl
  exact ⟨hregrouped, rfl, hreplies, hc, (hreplies t rows).symm.trans hc⟩

end RowFilter
