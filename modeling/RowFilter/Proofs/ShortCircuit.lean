import RowFilter.Proofs.TypeSoundness

/-!
# RowFilter — short-circuit evaluation

A filter is tested from left to right, and a chain stops as soon as its value is known. So a leaf that
has no answer may never be reached, and the order of the operands decides whether it is. What the order
cannot decide is the answer: an answer is the truth value of the whole formula whatever the leaves
without an answer are taken to be, and an error is the error of a leaf.

Main results:

* `Formula.eval_of_evalM` — an answer is the full truth value under every completion of the leaves.
* `Formula.exists_leaf_of_evalM_error` — an error comes from a leaf.
* `Formula.Reordered.eval_eq` — the full truth value does not depend on the order of operands.
* `holds_short_circuit` — the three together, for an evaluator and a row.
-/

namespace RowFilter

namespace Formula

variable {α : Type} {ε : Type}

/-! ## Answers -/

/-- Truth values for the leaves of some formulas that agree with every answer there is. A leaf without
an answer may have either value. -/
def Completes (test : α → Except ε Bool) (value : α → Bool) (leaves : List α) : Prop :=
  ∀ a ∈ leaves, ∀ b, test a = .ok b → value a = b

theorem Completes.left {test : α → Except ε Bool} {value : α → Bool} {xs ys : List α}
    (h : Completes test value (xs ++ ys)) : Completes test value xs :=
  fun a ha => h a (List.mem_append_left ys ha)

theorem Completes.right {test : α → Except ε Bool} {value : α → Bool} {xs ys : List α}
    (h : Completes test value (xs ++ ys)) : Completes test value ys :=
  fun a ha => h a (List.mem_append_right xs ha)

mutual
/-- An answer is the full truth value, whatever the leaves without an answer are taken to be. -/
theorem eval_of_evalM {test : α → Except ε Bool} {value : α → Bool} :
    ∀ (f : Formula α) {b : Bool}, Completes test value f.leaves → f.evalM test = .ok b →
      f.eval value = b
  | .leaf a, b, hvalue, h => hvalue a List.mem_cons_self b h
  | .all fs, _, hvalue, h => evalAll_of_evalAllM fs hvalue h
  | .any fs, _, hvalue, h => evalAny_of_evalAnyM fs hvalue h
  | .group f, _, hvalue, h => eval_of_evalM f hvalue h

theorem evalAll_of_evalAllM {test : α → Except ε Bool} {value : α → Bool} :
    ∀ (fs : List (Formula α)) {b : Bool}, Completes test value (leavesOf fs) →
      evalAllM test fs = .ok b → evalAll value fs = b
  | [], _, _, h => Except.ok.inj h
  | f :: fs, _, hvalue, h => by
    rw [evalAllM] at h
    obtain ⟨first, hfirst, h⟩ := bind_eq_ok h
    have heval : f.eval value = first := eval_of_evalM f hvalue.left hfirst
    rw [evalAll, heval]
    cases first with
    | false =>
      -- the rest was not looked at, and it does not count
      exact Except.ok.inj h
    | true => exact evalAll_of_evalAllM fs hvalue.right h

theorem evalAny_of_evalAnyM {test : α → Except ε Bool} {value : α → Bool} :
    ∀ (fs : List (Formula α)) {b : Bool}, Completes test value (leavesOf fs) →
      evalAnyM test fs = .ok b → evalAny value fs = b
  | [], _, _, h => Except.ok.inj h
  | f :: fs, _, hvalue, h => by
    rw [evalAnyM] at h
    obtain ⟨first, hfirst, h⟩ := bind_eq_ok h
    have heval : f.eval value = first := eval_of_evalM f hvalue.left hfirst
    rw [evalAny, heval]
    cases first with
    | true => exact Except.ok.inj h
    | false => exact evalAny_of_evalAnyM fs hvalue.right h
end

/-! ## Errors -/

mutual
/-- An error is the error of a leaf. -/
theorem exists_leaf_of_evalM_error {test : α → Except ε Bool} {err : ε} :
    ∀ f : Formula α, f.evalM test = .error err → ∃ a ∈ f.leaves, test a = .error err
  | .leaf a, h => ⟨a, List.mem_cons_self, h⟩
  | .all fs, h => exists_leaf_of_evalAllM_error fs h
  | .any fs, h => exists_leaf_of_evalAnyM_error fs h
  | .group f, h => exists_leaf_of_evalM_error f h

theorem exists_leaf_of_evalAllM_error {test : α → Except ε Bool} {err : ε} :
    ∀ fs : List (Formula α), evalAllM test fs = .error err →
      ∃ a ∈ leavesOf fs, test a = .error err
  | [], h => nomatch h
  | f :: fs, h => by
    rw [evalAllM] at h
    rcases bind_eq_error h with hfirst | ⟨first, _, hrest⟩
    · obtain ⟨a, ha, herr⟩ := exists_leaf_of_evalM_error f hfirst
      exact ⟨a, List.mem_append_left _ ha, herr⟩
    · cases first with
      | false => exact nomatch hrest
      | true =>
        obtain ⟨a, ha, herr⟩ := exists_leaf_of_evalAllM_error fs hrest
        exact ⟨a, List.mem_append_right _ ha, herr⟩

theorem exists_leaf_of_evalAnyM_error {test : α → Except ε Bool} {err : ε} :
    ∀ fs : List (Formula α), evalAnyM test fs = .error err →
      ∃ a ∈ leavesOf fs, test a = .error err
  | [], h => nomatch h
  | f :: fs, h => by
    rw [evalAnyM] at h
    rcases bind_eq_error h with hfirst | ⟨first, _, hrest⟩
    · obtain ⟨a, ha, herr⟩ := exists_leaf_of_evalM_error f hfirst
      exact ⟨a, List.mem_append_left _ ha, herr⟩
    · cases first with
      | true => exact nomatch hrest
      | false =>
        obtain ⟨a, ha, herr⟩ := exists_leaf_of_evalAnyM_error fs hrest
        exact ⟨a, List.mem_append_right _ ha, herr⟩
end

/-! ## Orders of operands -/

/-- Two formulas that differ only in the order of operands, in chains at any depth. -/
inductive Reordered : Formula α → Formula α → Prop
  | refl (f : Formula α) : Reordered f f
  | trans {f g h : Formula α} : Reordered f g → Reordered g h → Reordered f h
  | all {fs gs : List (Formula α)} : fs.Perm gs → Reordered (.all fs) (.all gs)
  | any {fs gs : List (Formula α)} : fs.Perm gs → Reordered (.any fs) (.any gs)
  | inAll {f g : Formula α} (before after : List (Formula α)) :
    Reordered f g → Reordered (.all (before ++ f :: after)) (.all (before ++ g :: after))
  | inAny {f g : Formula α} (before after : List (Formula α)) :
    Reordered f g → Reordered (.any (before ++ f :: after)) (.any (before ++ g :: after))
  | inGroup {f g : Formula α} : Reordered f g → Reordered (.group f) (.group g)

theorem evalAll_eq_all (value : α → Bool) (fs : List (Formula α)) :
    evalAll value fs = fs.all (eval value) := by
  induction fs with
  | nil => rfl
  | cons f fs ih => rw [evalAll, List.all_cons, ih]

theorem evalAny_eq_any (value : α → Bool) (fs : List (Formula α)) :
    evalAny value fs = fs.any (eval value) := by
  induction fs with
  | nil => rfl
  | cons f fs ih => rw [evalAny, List.any_cons, ih]

theorem leavesOf_eq_flatMap (fs : List (Formula α)) : leavesOf fs = fs.flatMap leaves := by
  induction fs with
  | nil => rfl
  | cons f fs ih => rw [leavesOf, List.flatMap_cons, ih]

/-- The full truth value does not depend on the order of operands. -/
theorem Reordered.eval_eq {f g : Formula α} (h : f.Reordered g) (value : α → Bool) :
    f.eval value = g.eval value := by
  induction h with
  | refl f => rfl
  | trans _ _ ih ih' => rw [ih, ih']
  | all hperm => rw [eval, eval, evalAll_eq_all, evalAll_eq_all, hperm.all_eq]
  | any hperm => rw [eval, eval, evalAny_eq_any, evalAny_eq_any, hperm.any_eq]
  | inAll before after _ ih => simp only [eval, evalAll_eq_all, List.all_append, List.all_cons, ih]
  | inAny before after _ ih => simp only [eval, evalAny_eq_any, List.any_append, List.any_cons, ih]
  | inGroup _ ih => rw [eval, eval, ih]

/-- Reordered formulas have the same leaves. -/
theorem Reordered.leaves_perm {f g : Formula α} (h : f.Reordered g) : f.leaves.Perm g.leaves := by
  induction h with
  | refl f => exact .refl _
  | trans _ _ ih ih' => exact ih.trans ih'
  | all hperm | any hperm =>
    rw [leaves, leaves, leavesOf_eq_flatMap, leavesOf_eq_flatMap]
    exact hperm.flatMap_right leaves
  | inAll before after _ ih | inAny before after _ ih =>
    simp only [leaves, leavesOf_eq_flatMap, List.flatMap_append, List.flatMap_cons]
    exact (ih.append_right _).append_left _
  | inGroup _ ih => exact ih

/-! ## Positions -/

mutual
/-- Positions do not count for a truth value that does not look at them. -/
theorem eval_numberFrom (value : α → Bool) : ∀ (f : Formula α) (n : Nat),
    (f.numberFrom n).eval (fun leaf => value leaf.2) = f.eval value
  | .leaf _, _ => rfl
  | .all fs, n => (evalAll_numberOf value fs n).1
  | .any fs, n => (evalAll_numberOf value fs n).2
  | .group f, n => eval_numberFrom value f n

theorem evalAll_numberOf (value : α → Bool) : ∀ (fs : List (Formula α)) (n : Nat),
    evalAll (fun leaf => value leaf.2) (numberOf n fs) = evalAll value fs ∧
      evalAny (fun leaf => value leaf.2) (numberOf n fs) = evalAny value fs
  | [], _ => ⟨rfl, rfl⟩
  | f :: fs, n => by
    have hhead := eval_numberFrom value f n
    obtain ⟨hall, hany⟩ := evalAll_numberOf value fs (n + f.leaves.length)
    simp only [numberOf, evalAll, evalAny, hhead, hall, hany, and_self]
end

/-- No two leaves have the same position. -/
theorem nodup_leaves_number (f : Formula α) : f.number.leaves.Nodup := by
  rw [number, leaves_numberFrom]
  have hpositions : ((f.leaves.zipIdx.map Prod.swap).map Prod.fst).Nodup := by
    rw [List.map_map]
    show (f.leaves.zipIdx.map Prod.snd).Nodup
    rw [List.zipIdx_map_snd]
    exact List.nodup_range'
  exact List.Pairwise.of_map Prod.fst (fun _ _ hne heq => hne (congrArg Prod.fst heq)) hpositions

end Formula

/-! ## Evaluators -/

namespace Evaluator

/-- An evaluator numbers the leaves of a filter whose columns are all there. -/
theorem new_eq_ok {places : Places} {c : Compiled} {e : Evaluator}
    (h : Evaluator.new places c = .ok e) :
    e = ⟨places, c.root.number⟩ ∧ ∀ name ∈ c.columns, places.contains name = true := by
  unfold new at h
  split at h
  · cases h
  · rename_i hnone
    refine ⟨(Except.ok.inj h).symm, ?_⟩
    intro name hname
    have hplace := List.find?_eq_none.1 hnone name hname
    simpa using hplace

variable {e : Evaluator} {row : Row}

/-- Truth values for the leaves of an evaluator that agree with every answer that a test of a leaf on the
row has. -/
def Completes (e : Evaluator) (row : Row) (value : Nat × Predicate → Bool) : Prop :=
  ∀ leaf ∈ e.leaves, ∀ seen b, ((e.testLeaf row leaf).run.run seen).1 = .ok b → value leaf = b

/-- The answers of predicates, with `false` for those that have none. -/
def defaulted (places : Places) (row : Row) (p : Predicate) : Bool :=
  match answer places p row with
  | .ok b => b
  | .error _ => false

theorem completes_defaulted (e : Evaluator) (row : Row) :
    e.Completes row fun leaf => defaulted e.places row leaf.2 := by
  intro leaf _ seen b h
  rw [testLeaf_result] at h
  simp only [defaulted, h]

/-- An answer for a row is the truth value of the whole formula under every completion. -/
theorem eval_of_holds {seen : List Clash} {b : Bool} (h : ((e.holds row).run.run seen).1 = .ok b)
    {value : Nat × Predicate → Bool} (hvalue : e.Completes row value) : e.root.eval value = b := by
  -- what was noticed on the way does not count
  have hverdict : e.verdict row = .ok b := by
    rw [← answers_holds e row seen]
    exact h
  refine Formula.eval_of_evalM e.root ?_ hverdict
  intro leaf hleaf b' hb'
  exact hvalue leaf hleaf seen b' ((testLeaf_result e row leaf seen).trans hb')

/-- An evaluator fails as one of its leaves does. -/
theorem exists_leaf_of_holds_error {seen : List Clash} {err : FilterError}
    (h : ((e.holds row).run.run seen).1 = .error err) :
    ∃ leaf ∈ e.leaves, ∀ seen', ((e.testLeaf row leaf).run.run seen').1 = .error err := by
  have hverdict : e.verdict row = .error err := by
    rw [← answers_holds e row seen]
    exact h
  obtain ⟨leaf, hleaf, herr⟩ := Formula.exists_leaf_of_evalM_error e.root hverdict
  exact ⟨leaf, hleaf, fun seen' => (testLeaf_result e row leaf seen').trans herr⟩

/-- An answer for a row is the truth value of the filter when failing predicates count as false. -/
theorem eval_defaulted_of_holds {places : Places} {c : Compiled} (hnew : new places c = .ok e)
    {seen : List Clash} {b : Bool} (h : ((e.holds row).run.run seen).1 = .ok b) :
    c.root.eval (defaulted places row) = b := by
  obtain ⟨rfl, _⟩ := new_eq_ok hnew
  have heval := eval_of_holds h (completes_defaulted _ row)
  rw [← heval]
  exact (Formula.eval_numberFrom (defaulted places row) c.root 0).symm

/-- A filter with its operands in another order needs the same columns. -/
theorem new_of_reordered {places : Places} {c c' : Compiled} (hnew : new places c = .ok e)
    (h : c.root.Reordered c'.root) : ∃ e', new places c' = .ok e' := by
  obtain ⟨_, hcolumns⟩ := new_eq_ok hnew
  refine ⟨_, new_of_columns ?_⟩
  intro name hname
  obtain ⟨p, hp, hpname⟩ := Compiled.mem_columns.1 hname
  have hp' : p ∈ c.predicates := h.leaves_perm.mem_iff.2 hp
  exact hcolumns name (Compiled.mem_columns.2 ⟨p, hp', hpname⟩)

end Evaluator

/-- **Short-circuit evaluation is sound.** The leaves of an evaluator are told apart by their positions,
so each of them can be given a truth value of its own. If the evaluator has an answer for a row, then it
is the truth value of the whole formula for all values that agree with the leaves that have an answer; if
it fails, then a leaf fails in the same way. A filter with its operands in another order has an evaluator
too, and when both have an answer for a row, it is the same one. -/
theorem holds_short_circuit {places : Places} {c : Compiled} {e : Evaluator}
    (h : Evaluator.new places c = .ok e) (row : Row) :
    e.leaves.Nodup ∧ e.leaves.map Prod.snd = c.predicates ∧
    (∀ seen b, ((e.holds row).run.run seen).1 = .ok b →
      ∀ value, e.Completes row value → e.root.eval value = b) ∧
    (∀ seen err, ((e.holds row).run.run seen).1 = .error err →
      ∃ leaf ∈ e.leaves, ∀ seen', ((e.testLeaf row leaf).run.run seen').1 = .error err) ∧
    ∀ c' : Compiled, c.root.Reordered c'.root → ∃ e', Evaluator.new places c' = .ok e' ∧
      ∀ seen seen' b b', ((e.holds row).run.run seen).1 = .ok b →
        ((e'.holds row).run.run seen').1 = .ok b' → b = b' := by
  have hroot : e.root = c.root.number := by rw [(Evaluator.new_eq_ok h).1]
  refine ⟨?_, ?_, ?_, ?_, ?_⟩
  · rw [Evaluator.leaves, hroot]
    exact Formula.nodup_leaves_number c.root
  · rw [Evaluator.leaves, hroot]
    exact Formula.map_snd_leaves_number c.root
  · intro seen b hb value hvalue
    exact Evaluator.eval_of_holds hb hvalue
  · intro seen err herr
    exact Evaluator.exists_leaf_of_holds_error herr
  · intro c' hreordered
    obtain ⟨e', he'⟩ := Evaluator.new_of_reordered h hreordered
    refine ⟨e', he', ?_⟩
    intro seen seen' b b' hb hb'
    -- both answers are the truth value of a formula with one and the same value for each predicate
    calc b = c.root.eval (Evaluator.defaulted places row) :=
          (Evaluator.eval_defaulted_of_holds h hb).symm
      _ = c'.root.eval (Evaluator.defaulted places row) := hreordered.eval_eq _
      _ = b' := Evaluator.eval_defaulted_of_holds he' hb'

/-- A leaf that has no answer is hidden by the one before it, and fails the filter when it comes first. -/
theorem holds_short_circuit_any :
    let found : Predicate := ⟨"age", .integer, .eq, .scalar (.int 3), some "3", 0⟩
    let clashing : Predicate := ⟨"age", .integer, .lt, .scalar (.text "x"), some "x", 17⟩
    let c : Compiled := ⟨"", .any [.leaf found, .group (.leaf clashing)]⟩
    let t : Table := .of ["age"] [[.int 3]]
    let e : Evaluator := ⟨t.places, c.root.number⟩
    let c' : Compiled := ⟨"", .any [.group (.leaf clashing), .leaf found]⟩
    let e' : Evaluator := ⟨t.places, c'.root.number⟩
    Evaluator.new t.places c = .ok e ∧ Evaluator.new t.places c' = .ok e' ∧ c.root.Reordered c'.root ∧
      ((e.holds [.int 3]).run.run []).1 = .ok true ∧
      (∀ value, e.Completes [.int 3] value → e.root.eval value = true) ∧
      ∃ leaf ∈ e'.leaves, ∀ seen, ((e'.testLeaf [.int 3] leaf).run.run seen).1 =
        .error (.evaluation clashing (.unordered (.int 3) (.text "x"))) := by
  intro found clashing c t e c' e'
  have hnew : Evaluator.new t.places c = .ok e := rfl
  have hnew' : Evaluator.new t.places c' = .ok e' := rfl
  have hanswer : ((e.holds [.int 3]).run.run []).1 = .ok true := rfl
  have herror : ((e'.holds [.int 3]).run.run []).1 =
      .error (.evaluation clashing (.unordered (.int 3) (.text "x"))) := rfl
  obtain ⟨_, _, heval, _, _⟩ := holds_short_circuit hnew [.int 3]
  obtain ⟨_, _, _, hleaf, _⟩ := holds_short_circuit hnew' [.int 3]
  exact ⟨hnew, hnew', .any (.swap _ _ _), hanswer, heval [] true hanswer, hleaf [] _ herror⟩

end RowFilter
