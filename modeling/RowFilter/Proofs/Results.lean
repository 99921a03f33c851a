import RowFilter.Traced

/-!
# RowFilter — results and errors

What a result says about the steps it was made of: a sequence that gives a result has given one at every
step, and an error is the error of some step. Errors have kinds, which leave out what an error names.

Main results:

* `bind_eq_ok`, `map_eq_ok` — the steps before a result.
* `exists_of_mapM_eq_ok` — every result of a sequence is the result of one of its parts.
* `getElem?_eq_some_iff_of_mapM` — the results of a sequence stand at the places of its parts.
* `bind_eq_error`, `exists_of_mapM_eq_error` — the step that an error comes from.
* `Traced.outcome_mapM` — the outcome of a traced sequence.
* `Traced.mem_events_bind_left`, `Traced.mem_events_mapM` — what was reported stays reported.
-/

namespace RowFilter

/-! ## Kinds of errors -/

namespace FilterError

/-- What an error is about, whatever it names. -/
inductive Kind
  | querySyntax
  | unknownColumn
  | unsupportedOperator
  | betweenCount
  | listNotFound
  | unknownSchema
  | unknownDataset
  | columnNotFound
  | evaluation
  | invalidPagination
deriving DecidableEq, Repr

/-- The kind of an error. -/
def kind : FilterError → Kind
  | querySyntax .. => .querySyntax
  | unknownColumn .. => .unknownColumn
  | unsupportedOperator .. => .unsupportedOperator
  | betweenCount .. => .betweenCount
  | listNotFound .. => .listNotFound
  | unknownSchema .. => .unknownSchema
  | unknownDataset .. => .unknownDataset
  | columnNotFound .. => .columnNotFound
  | evaluation .. => .evaluation
  | invalidPagination .. => .invalidPagination

end FilterError

/-! ## Sequences -/

variable {ε α β γ : Type}

theorem ok_bind (a : α) (f : α → Except ε β) : Except.ok a >>= f = f a := rfl

theorem bind_eq_ok {x : Except ε α} {f : α → Except ε β} {b : β} (h : x >>= f = .ok b) :
    ∃ a, x = .ok a ∧ f a = .ok b := by
  cases x with
  | error e => cases h
  | ok a => exact ⟨a, rfl, h⟩

theorem map_eq_ok {x : Except ε α} {f : α → β} {b : β} (h : x.map f = .ok b) :
    ∃ a, x = .ok a ∧ f a = b := by
  cases x with
  | error e => cases h
  | ok a => exact ⟨a, rfl, Except.ok.inj h⟩

/-- The error of a sequence is the error of the first step, or of what comes behind its result. -/
theorem bind_eq_error {x : Except ε α} {f : α → Except ε β} {e : ε} (h : x >>= f = .error e) :
    x = .error e ∨ ∃ a, x = .ok a ∧ f a = .error e := by
  cases x with
  | error e' =>
    cases h
    exact .inl rfl
  | ok a => exact .inr ⟨a, rfl, h⟩

theorem map_eq_error_iff {x : Except ε α} {f : α → β} {e : ε} :
    x.map f = .error e ↔ x = .error e := by
  cases x with
  | error e' => simp [Except.map]
  | ok a => simp [Except.map]

theorem map_map (x : Except ε α) (f : α → β) (g : β → γ) :
    (x.map f).map g = x.map fun a => g (f a) := by
  cases x <;> rfl

theorem toOption_map (x : Except ε α) (f : α → β) : (x.map f).toOption = x.toOption.map f := by
  cases x <;> rfl

theorem toOption_bind (x : Except ε α) (f : α → Except ε β) :
    (x >>= f).toOption = x.toOption.bind fun a => (f a).toOption := by
  cases x <;> rfl

theorem exists_of_mapM_eq_ok {f : α → Except ε β} {xs : List α} {ys : List β}
    (h : xs.mapM f = .ok ys) : ∀ y ∈ ys, ∃ x ∈ xs, f x = .ok y := by
  induction xs generalizing ys with
  | nil =>
    cases h
    exact fun y hy => (nomatch hy)
  | cons x xs ih =>
    rw [List.mapM_cons] at h
    obtain ⟨z, hz, h⟩ := bind_eq_ok h
    obtain ⟨zs, hzs, h⟩ := bind_eq_ok h
    cases h
    intro y hy
    rcases List.mem_cons.1 hy with rfl | hy
    · exact ⟨x, List.mem_cons_self, hz⟩
    · obtain ⟨x', hx', hy'⟩ := ih hzs y hy
      exact ⟨x', List.mem_cons_of_mem _ hx', hy'⟩

/-- Results that lead back to what they were made of lead back to all of it. -/
theorem map_of_mapM_eq_ok {xs : List α} {f : α → Except ε β} {g : β → α}
    (hg : ∀ x b, f x = .ok b → g b = x) {bs : List β} (h : xs.mapM f = .ok bs) : bs.map g = xs := by
  induction xs generalizing bs with
  | nil =>
    cases h
    rfl
  | cons x xs ih =>
    rw [List.mapM_cons] at h
    obtain ⟨b, hb, h⟩ := bind_eq_ok h
    obtain ⟨bs', hbs, h⟩ := bind_eq_ok h
    cases h
    rw [List.map_cons, hg x b hb, ih hbs]

/-- The error of a sequence is the error of one of its parts. -/
theorem exists_of_mapM_eq_error {f : α → Except ε β} {xs : List α} {e : ε}
    (h : xs.mapM f = .error e) : ∃ x ∈ xs, f x = .error e := by
  induction xs with
  | nil => cases h
  | cons x xs ih =>
    rw [List.mapM_cons] at h
    rcases bind_eq_error h with hx | ⟨y, _, h⟩
    · exact ⟨x, List.mem_cons_self, hx⟩
    · rcases bind_eq_error h with hxs | ⟨ys, _, h⟩
      · obtain ⟨x', hx', he⟩ := ih hxs
        exact ⟨x', List.mem_cons_of_mem _ hx', he⟩
      · cases h

theorem exists_of_foldlM_eq_error {f : β → α → Except ε β} {xs : List α} {b : β} {e : ε}
    (h : xs.foldlM f b = .error e) : ∃ b', ∃ x ∈ xs, f b' x = .error e := by
  induction xs generalizing b with
  | nil => cases h
  | cons x xs ih =>
    rw [List.foldlM_cons] at h
    rcases bind_eq_error h with hx | ⟨b', _, h⟩
    · exact ⟨b, x, List.mem_cons_self, hx⟩
    · obtain ⟨b'', x', hx', he⟩ := ih h
      exact ⟨b'', x', List.mem_cons_of_mem _ hx', he⟩

theorem length_of_mapM_eq_ok {f : α → Except ε β} {xs : List α} {ys : List β}
    (h : xs.mapM f = .ok ys) : ys.length = xs.length := by
  induction xs generalizing ys with
  | nil =>
    cases h
    rfl
  | cons x xs ih =>
    rw [List.mapM_cons] at h
    obtain ⟨z, _, h⟩ := bind_eq_ok h
    obtain ⟨zs, hzs, h⟩ := bind_eq_ok h
    cases h
    rw [List.length_cons, List.length_cons, ih hzs]

/-- The results of a sequence stand at the places of its parts. -/
theorem getElem?_of_mapM_eq_ok {f : α → Except ε β} {xs : List α} {ys : List β}
    (h : xs.mapM f = .ok ys) (i : Nat) : xs[i]?.map f = ys[i]?.map .ok := by
  induction xs generalizing ys i with
  | nil =>
    cases h
    rfl
  | cons x xs ih =>
    rw [List.mapM_cons] at h
    obtain ⟨z, hz, h⟩ := bind_eq_ok h
    obtain ⟨zs, hzs, h⟩ := bind_eq_ok h
    cases h
    cases i with
    | zero => exact congrArg some hz
    | succ i =>
      rw [List.getElem?_cons_succ, List.getElem?_cons_succ]
      exact ih hzs i

theorem getElem?_eq_some_iff_of_mapM {f : α → Except ε β} {xs : List α} {ys : List β}
    (h : xs.mapM f = .ok ys) {i : Nat} {y : β} :
    ys[i]? = some y ↔ ∃ x, xs[i]? = some x ∧ f x = .ok y := by
  have hplace := getElem?_of_mapM_eq_ok h i
  cases hx : xs[i]? with
  | none =>
    rw [hx, Option.map_none, eq_comm, Option.map_eq_none_iff] at hplace
    simp [hplace]
  | some x =>
    rw [hx, Option.map_some, eq_comm, Option.map_eq_some_iff] at hplace
    obtain ⟨z, hz, hfx⟩ := hplace
    rw [hz]
    simp [← hfx]

namespace Traced

theorem outcome_map (f : α → β) (x : Traced α) : (f <$> x).outcome = x.outcome.map f := by
  rw [map_eq_pure_bind, outcome_bind]
  cases x.outcome <;> rfl

theorem outcome_mapM (f : α → Traced β) (xs : List α) :
    (xs.mapM f).outcome = xs.mapM fun x => (f x).outcome := by
  induction xs with
  | nil => rfl
  | cons x xs ih =>
    rw [List.mapM_cons, List.mapM_cons, outcome_bind]
    congr 1
    funext y
    rw [outcome_bind, ih]
    rfl

theorem outcome_foldlM (f : β → α → Traced β) (b : β) (xs : List α) :
    (xs.foldlM f b).outcome = xs.foldlM (fun b x => (f b x).outcome) b := by
  induction xs generalizing b with
  | nil => rfl
  | cons x xs ih =>
    rw [List.foldlM_cons, List.foldlM_cons, outcome_bind]
    congr 1
    funext b'
    exact ih b'

/-- Behind a step with a result the outcome is that of the rest. -/
theorem outcome_bind_ok {x : Traced α} {f : α → Traced β} {a : α} (h : x.outcome = .ok a) :
    (x >>= f).outcome = (f a).outcome := by
  rw [outcome_bind, h, ok_bind]

/-- A step with a result, and the outcome of what comes behind it. -/
theorem outcome_bind_eq_ok {x : Traced α} {f : α → Traced β} {b : β}
    (h : (x >>= f).outcome = .ok b) : ∃ a, x.outcome = .ok a ∧ (f a).outcome = .ok b := by
  rw [outcome_bind] at h
  exact bind_eq_ok h

/-! ### Events -/

theorem events_map (f : α → β) (x : Traced α) : (f <$> x).events = x.events := by
  rw [map_eq_pure_bind]
  cases hx : x.outcome with
  | error e => exact events_bind_error hx
  | ok a =>
    rw [events_bind_ok hx]
    exact List.append_nil _

/-- What a step reports stays reported. -/
theorem mem_events_bind_left {x : Traced α} {f : α → Traced β} {e : Event} (h : e ∈ x.events) :
    e ∈ (x >>= f).events := by
  cases hx : x.outcome with
  | error err =>
    rw [events_bind_error hx]
    exact h
  | ok a =>
    rw [events_bind_ok hx]
    exact List.mem_append_left _ h

theorem mem_events_bind_right {x : Traced α} {f : α → Traced β} {a : α} {e : Event}
    (hx : x.outcome = .ok a) (h : e ∈ (f a).events) : e ∈ (x >>= f).events := by
  rw [events_bind_ok hx]
  exact List.mem_append_right _ h

/-- A sequence with a result has been through all of its parts, so it reports what each of them does. -/
theorem mem_events_mapM {f : α → Traced β} {xs : List α} {ys : List β}
    (h : (xs.mapM f).outcome = .ok ys) {x : α} (hx : x ∈ xs) {e : Event} (he : e ∈ (f x).events) :
    e ∈ (xs.mapM f).events := by
  induction xs generalizing ys with
  | nil => cases hx
  | cons first xs ih =>
    rw [List.mapM_cons] at h ⊢
    obtain ⟨y, hy, h⟩ := outcome_bind_eq_ok h
    obtain ⟨ys', hys, _⟩ := outcome_bind_eq_ok h
    rcases List.mem_cons.1 hx with rfl | hx
    · exact mem_events_bind_left he
    · exact mem_events_bind_right hy (mem_events_bind_left (ih hys hx))

end Traced

end RowFilter
