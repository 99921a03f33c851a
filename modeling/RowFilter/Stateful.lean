/-!
# RowFilter — work that changes a state and may fail

An error does not undo what was done before it: the state that is left is the one that the work had come
to. So a run always leaves a state, and it has a result or an error beside it.

Main results:

* `Stateful.run_bind` — one piece of work behind another.
-/

namespace RowFilter

/-- Work on a state that may fail. -/
abbrev Stateful (σ ε : Type) := ExceptT ε (StateM σ)

namespace Stateful

variable {σ ε α β : Type}

/-- A result or an error that leaves the state alone. -/
def ofExcept (x : Except ε α) : Stateful σ ε α := ExceptT.mk fun s => (x, s)

theorem run_ofExcept (x : Except ε α) (s : σ) : (ofExcept x : Stateful σ ε α).run.run s = (x, s) := rfl

theorem run_get (s : σ) : (get : Stateful σ ε σ).run.run s = (.ok s, s) := rfl

theorem run_bind (x : Stateful σ ε α) (f : α → Stateful σ ε β) (s : σ) :
    (x >>= f).run.run s =
      match x.run.run s with
      | (.ok a, s') => (f a).run.run s'
      | (.error e, s') => (.error e, s') := by
  show (ExceptT.bind x f) s = _
  simp only [ExceptT.bind, ExceptT.mk, bind, StateT.bind, ExceptT.bindCont, ExceptT.run, StateT.run]
  rcases x s with ⟨r, s'⟩
  cases r <;> rfl

/-- Behind a step with a result the run goes on. -/
theorem run_bind_ok {x : Stateful σ ε α} {f : α → Stateful σ ε β} {s s' : σ} {a : α}
    (h : x.run.run s = (.ok a, s')) : (x >>= f).run.run s = (f a).run.run s' := by
  rw [run_bind, h]

theorem run_map (f : α → β) (x : Stateful σ ε α) (s : σ) :
    (f <$> x).run.run s = ((x.run.run s).1.map f, (x.run.run s).2) := by
  rw [map_eq_pure_bind, run_bind]
  rcases x.run.run s with ⟨r, s'⟩
  cases r <;> rfl

end Stateful

end RowFilter
