/-!
# RowFilter — formulas

A formula is a tree of `and` chains, `or` chains and parentheses over leaves of any kind. Queries are
formulas over clauses, and compiled filters are formulas over predicates.

Main results:

* `Formula.leaves_traverse` — replacing the leaves goes through them in their order.
* `Formula.evalM_pure` — an evaluation whose leaves never fail gives the full truth value.
* `Formula.evalM_related` — what relates two ways of testing the leaves relates the evaluations.
-/

namespace RowFilter

/-- A tree of chains and parentheses over leaves. -/
inductive Formula (α : Type)
  | leaf (a : α)
  /-- All operands hold. -/
  | all (operands : List (Formula α))
  /-- Some operand holds. -/
  | any (operands : List (Formula α))
  /-- A formula in parentheses. -/
  | group (inner : Formula α)
deriving Repr, Inhabited

namespace Formula

variable {α β : Type}

/-- An `and` chain; a single operand stands for itself. -/
def chainAll : List (Formula α) → Formula α
  | [f] => f
  | fs => .all fs

/-- An `or` chain; a single operand stands for itself. -/
def chainAny : List (Formula α) → Formula α
  | [f] => f
  | fs => .any fs

/-! ## Leaves -/

mutual
/-- The leaves from left to right. -/
def leaves : Formula α → List α
  | .leaf a => [a]
  | .all fs => leavesOf fs
  | .any fs => leavesOf fs
  | .group f => f.leaves

/-- The leaves of several formulas. -/
def leavesOf : List (Formula α) → List α
  | [] => []
  | f :: fs => f.leaves ++ leavesOf fs
end

mutual
/-- The formula with every leaf replaced. -/
def map (g : α → β) : Formula α → Formula β
  | .leaf a => .leaf (g a)
  | .all fs => .all (mapOf g fs)
  | .any fs => .any (mapOf g fs)
  | .group f => .group (f.map g)

/-- The formulas with every leaf replaced. -/
def mapOf (g : α → β) : List (Formula α) → List (Formula β)
  | [] => []
  | f :: fs => f.map g :: mapOf g fs
end

mutual
/-- Replaces the leaves from left to right; the first failure ends it. -/
def traverse {m : Type → Type} [Monad m] (g : α → m β) : Formula α → m (Formula β)
  | .leaf a => do return .leaf (← g a)
  | .all fs => do return .all (← traverseOf g fs)
  | .any fs => do return .any (← traverseOf g fs)
  | .group f => do return .group (← f.traverse g)

/-- Replaces the leaves of several formulas from left to right. -/
def traverseOf {m : Type → Type} [Monad m] (g : α → m β) : List (Formula α) → m (List (Formula β))
  | [] => pure []
  | f :: fs => do
    let f' ← f.traverse g
    let fs' ← traverseOf g fs
    return f' :: fs'
end

mutual
theorem leaves_traverse {m : Type → Type} [Monad m] [LawfulMonad m] (g : α → m β) :
    ∀ f : Formula α, leaves <$> f.traverse g = f.leaves.mapM g
  | .leaf a => by simp [traverse, leaves]
  | .all fs => by
    rw [traverse, leaves, ← leavesOf_traverseOf g fs]
    simp [leaves]
  | .any fs => by
    rw [traverse, leaves, ← leavesOf_traverseOf g fs]
    simp [leaves]
  | .group f => by
    rw [traverse, leaves, ← leaves_traverse g f]
    simp [leaves]

theorem leavesOf_traverseOf {m : Type → Type} [Monad m] [LawfulMonad m] (g : α → m β) :
    ∀ fs : List (Formula α), leavesOf <$> traverseOf g fs = (leavesOf fs).mapM g
  | [] => by simp [traverseOf, leavesOf]
  | f :: fs => by
    rw [traverseOf, leavesOf, List.mapM_append, ← leaves_traverse g f, ← leavesOf_traverseOf g fs]
    simp [leavesOf]
end

mutual
/-- Gives every leaf its position, from `n` on. -/
def numberFrom (n : Nat) : Formula α → Formula (Nat × α)
  | .leaf a => .leaf (n, a)
  | .all fs => .all (numberOf n fs)
  | .any fs => .any (numberOf n fs)
  | .group f => .group (f.numberFrom n)

/-- Gives every leaf of several formulas its position. -/
def numberOf (n : Nat) : List (Formula α) → List (Formula (Nat × α))
  | [] => []
  | f :: fs => f.numberFrom n :: numberOf (n + f.leaves.length) fs
end

/-- Gives every leaf its position from left to right. -/
def number (f : Formula α) : Formula (Nat × α) := f.numberFrom 0

mutual
theorem leaves_numberFrom : ∀ (f : Formula α) (n : Nat),
    (f.numberFrom n).leaves = (f.leaves.zipIdx n).map Prod.swap
  | .leaf _, _ => rfl
  | .all fs, n => leavesOf_numberOf fs n
  | .any fs, n => leavesOf_numberOf fs n
  | .group f, n => leaves_numberFrom f n

theorem leavesOf_numberOf : ∀ (fs : List (Formula α)) (n : Nat),
    leavesOf (numberOf n fs) = ((leavesOf fs).zipIdx n).map Prod.swap
  | [], _ => rfl
  | f :: fs, n => by
    rw [numberOf, leavesOf, leavesOf, List.zipIdx_append, List.map_append, leaves_numberFrom f n,
      leavesOf_numberOf fs]
end

theorem map_snd_leaves_number (f : Formula α) : f.number.leaves.map Prod.snd = f.leaves := by
  rw [number, leaves_numberFrom, List.map_map]
  exact List.zipIdx_map_fst 0 f.leaves

/-! ## Truth -/

mutual
/-- The truth value for given leaves, without looking at their order. -/
def eval (g : α → Bool) : Formula α → Bool
  | .leaf a => g a
  | .all fs => evalAll g fs
  | .any fs => evalAny g fs
  | .group f => f.eval g

/-- All of the formulas hold. -/
def evalAll (g : α → Bool) : List (Formula α) → Bool
  | [] => true
  | f :: fs => f.eval g && evalAll g fs

/-- One of the formulas holds. -/
def evalAny (g : α → Bool) : List (Formula α) → Bool
  | [] => false
  | f :: fs => f.eval g || evalAny g fs
end

mutual
/-- Tests leaves from left to right and stops as soon as the value of a chain is known. -/
def evalM {m : Type → Type} [Monad m] (g : α → m Bool) : Formula α → m Bool
  | .leaf a => g a
  | .all fs => evalAllM g fs
  | .any fs => evalAnyM g fs
  | .group f => f.evalM g

/-- Stops at the first formula that does not hold. -/
def evalAllM {m : Type → Type} [Monad m] (g : α → m Bool) : List (Formula α) → m Bool
  | [] => pure true
  | f :: fs => do
    let b ← f.evalM g
    if b then evalAllM g fs else pure false

/-- Stops at the first formula that holds. -/
def evalAnyM {m : Type → Type} [Monad m] (g : α → m Bool) : List (Formula α) → m Bool
  | [] => pure false
  | f :: fs => do
    let b ← f.evalM g
    if b then pure true else evalAnyM g fs
end

mutual
theorem evalM_pure {m : Type → Type} [Monad m] [LawfulMonad m] (g : α → Bool) :
    ∀ f : Formula α, f.evalM (m := m) (fun a => pure (g a)) = pure (f.eval g)
  | .leaf _ => by rw [evalM, eval]
  | .all fs => by rw [evalM, eval, evalAllM_pure g fs]
  | .any fs => by rw [evalM, eval, evalAnyM_pure g fs]
  | .group f => by rw [evalM, eval, evalM_pure g f]

theorem evalAllM_pure {m : Type → Type} [Monad m] [LawfulMonad m] (g : α → Bool) :
    ∀ fs : List (Formula α), evalAllM (m := m) (fun a => pure (g a)) fs = pure (evalAll g fs)
  | [] => by rw [evalAllM, evalAll]
  | f :: fs => by
    rw [evalAllM, evalAll, evalM_pure g f, pure_bind, evalAllM_pure g fs]
    cases f.eval g <;> rfl

theorem evalAnyM_pure {m : Type → Type} [Monad m] [LawfulMonad m] (g : α → Bool) :
    ∀ fs : List (Formula α), evalAnyM (m := m) (fun a => pure (g a)) fs = pure (evalAny g fs)
  | [] => by rw [evalAnyM, evalAny]
  | f :: fs => by
    rw [evalAnyM, evalAny, evalM_pure g f, pure_bind, evalAnyM_pure g fs]
    cases f.eval g <;> rfl
end

section Related

variable {m n : Type → Type} [Monad m] [Monad n] {test : α → m Bool} {test' : α → n Bool}
  {R : m Bool → n Bool → Prop}

mutual
/-- Two ways of testing the leaves that are related everywhere make related evaluations, if the relation
holds of plain results and is kept by sequences. -/
theorem evalM_related (hpure : ∀ b, R (pure b) (pure b))
    (hbind : ∀ x y f g, R x y → (∀ b, R (f b) (g b)) → R (x >>= f) (y >>= g)) :
    ∀ f : Formula α, (∀ a ∈ f.leaves, R (test a) (test' a)) → R (f.evalM test) (f.evalM test')
  | .leaf a, h => h a List.mem_cons_self
  | .all fs, h => evalAllM_related hpure hbind fs h
  | .any fs, h => evalAnyM_related hpure hbind fs h
  | .group f, h => evalM_related hpure hbind f h

theorem evalAllM_related (hpure : ∀ b, R (pure b) (pure b))
    (hbind : ∀ x y f g, R x y → (∀ b, R (f b) (g b)) → R (x >>= f) (y >>= g)) :
    ∀ fs : List (Formula α), (∀ a ∈ leavesOf fs, R (test a) (test' a)) →
      R (evalAllM test fs) (evalAllM test' fs)
  | [], _ => hpure true
  | f :: fs, h => by
    refine hbind _ _ _ _
      (evalM_related hpure hbind f fun a ha => h a (List.mem_append_left _ ha)) fun b => ?_
    cases b with
    | false => exact hpure false
    | true => exact evalAllM_related hpure hbind fs fun a ha => h a (List.mem_append_right _ ha)

theorem evalAnyM_related (hpure : ∀ b, R (pure b) (pure b))
    (hbind : ∀ x y f g, R x y → (∀ b, R (f b) (g b)) → R (x >>= f) (y >>= g)) :
    ∀ fs : List (Formula α), (∀ a ∈ leavesOf fs, R (test a) (test' a)) →
      R (evalAnyM test fs) (evalAnyM test' fs)
  | [], _ => hpure false
  | f :: fs, h => by
    refine hbind _ _ _ _
      (evalM_related hpure hbind f fun a ha => h a (List.mem_append_left _ ha)) fun b => ?_
    cases b with
    | false => exact evalAnyM_related hpure hbind fs fun a ha => h a (List.mem_append_right _ ha)
    | true => exact hpure true
end

/-- What plain results have, sequences keep and every test of a leaf has, the evaluation has. -/
theorem evalM_closed {P : m Bool → Prop} (hpure : ∀ b, P (pure b))
    (hbind : ∀ x f, P x → (∀ b, P (f b)) → P (x >>= f)) (f : Formula α)
    (h : ∀ a ∈ f.leaves, P (test a)) : P (f.evalM test) :=
  @evalM_related α m m _ _ test test (fun x _ => P x) hpure (fun x _ g _ => hbind x g) f h

end Related

/-! ## Text -/

mutual
/-- The text of a formula: chains with ` & ` and ` | `, and parentheses where they were written. -/
def display (g : α → String) : Formula α → String
  | .leaf a => g a
  | .all fs => String.intercalate " & " (displayOf g fs)
  | .any fs => String.intercalate " | " (displayOf g fs)
  | .group f => "(" ++ f.display g ++ ")"

/-- The texts of several formulas. -/
def displayOf (g : α → String) : List (Formula α) → List String
  | [] => []
  | f :: fs => f.display g :: displayOf g fs
end

end Formula

end RowFilter
