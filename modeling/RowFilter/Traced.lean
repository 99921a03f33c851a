import RowFilter.FilterError

/-!
# RowFilter — outcomes with events

Work on a filter reports events: warnings, notes for users and details for developers. A traced
outcome is a result or an error together with the events up to that point. Events never influence an
outcome: the outcome of a sequence is the sequence of the outcomes.

Main results:

* `Traced.outcome_bind` — outcomes compose as if nothing were reported.
* `Traced.events_bind_ok`, `Traced.events_bind_error` — events accumulate up to the first error.
-/

namespace RowFilter

/-- Something worth reporting. -/
inductive Event
  /-- A literal does not read as a value of its column's type. -/
  | castFallback (text : String) (type : LogicalType)
  /-- A cell and a literal can not be equal, because their kinds differ. -/
  | typeClash (predicate : Predicate) (cell literal : Value)
  | listResolved (list user : String) (items : Nat)
  | compiled (filter : Compiled)
  | schemaResolved (dataset : String) (columns : Nat)
  | limitClamped (requested granted : UInt64)
  | rowsMatched (matched rows : Nat)
  | pageCut (first stop total : Nat)
  | filterDone (dataset user : String) (total returned : Nat)
deriving Repr

/-- How much an event matters. -/
inductive Severity
  | debug
  | info
  | warning
deriving DecidableEq, Repr

namespace Event

/-- How much an event matters. -/
def severity : Event → Severity
  | castFallback .. => .warning
  | typeClash .. => .warning
  | filterDone .. => .info
  | _ => .debug

/-- The wording of an event. -/
def message : Event → String
  | castFallback text type =>
    "literal '" ++ text ++ "' does not parse as " ++ type.name ++ "; comparing as a string"
  | typeClash p cell literal =>
    "type clash in '" ++ p.display ++ "': cell " ++ cell.display ++ " vs literal "
      ++ literal.display ++ "; treating as no match"
  | listResolved list user items =>
    "resolved named list '" ++ list ++ "' for user '" ++ user ++ "' (" ++ toString items
      ++ " items)"
  | compiled filter =>
    "compiled filter with " ++ toString filter.predicates.length ++ " predicate(s): "
      ++ filter.display
  | schemaResolved dataset columns =>
    "resolved schema for dataset '" ++ dataset ++ "' (" ++ toString columns ++ " column(s))"
  | limitClamped requested granted =>
    "clamping limit " ++ toString requested ++ " to " ++ toString granted
  | rowsMatched matched rows =>
    "filter matched " ++ toString matched ++ " of " ++ toString rows ++ " row(s)"
  | pageCut first stop total =>
    "page [" ++ toString first ++ ", " ++ toString stop ++ ") of " ++ toString total
      ++ " matched row(s)"
  | filterDone dataset user total returned =>
    "filter on dataset '" ++ dataset ++ "' for user '" ++ user ++ "': " ++ toString total
      ++ " match(es), returned " ++ toString returned

end Event

/-- An outcome and the events on the way to it. -/
structure Traced (α : Type) where
  events : List Event
  outcome : Except FilterError α

namespace Traced

variable {α β : Type}

/-- An outcome without events. -/
def ofExcept (x : Except FilterError α) : Traced α := ⟨[], x⟩

/-- Reports one event. -/
def report (e : Event) : Traced Unit := ⟨[e], .ok ()⟩

/-- Goes on after a result; an error ends the work. -/
def andThen (x : Traced α) (f : α → Traced β) : Traced β :=
  match x.outcome with
  | .error e => ⟨x.events, .error e⟩
  | .ok a => ⟨x.events ++ (f a).events, (f a).outcome⟩

instance : Monad Traced where
  pure a := ⟨[], .ok a⟩
  bind := andThen

instance : MonadExceptOf FilterError Traced where
  throw e := ⟨[], .error e⟩
  tryCatch x handle := match x.outcome with
    | .error e => ⟨x.events ++ (handle e).events, (handle e).outcome⟩
    | .ok _ => x

@[simp] theorem outcome_pure (a : α) : (pure a : Traced α).outcome = .ok a := rfl

@[simp] theorem outcome_ofExcept (x : Except FilterError α) : (ofExcept x).outcome = x := rfl

@[simp] theorem outcome_report (e : Event) : (report e).outcome = .ok () := rfl

@[simp] theorem outcome_bind (x : Traced α) (f : α → Traced β) :
    (x >>= f).outcome = x.outcome >>= fun a => (f a).outcome := by
  show (andThen x f).outcome = _
  unfold andThen
  cases x.outcome <;> rfl

theorem events_bind_ok {x : Traced α} {f : α → Traced β} {a : α} (h : x.outcome = .ok a) :
    (x >>= f).events = x.events ++ (f a).events := by
  show (andThen x f).events = _
  simp [andThen, h]

theorem events_bind_error {x : Traced α} {f : α → Traced β} {e : FilterError}
    (h : x.outcome = .error e) : (x >>= f).events = x.events := by
  show (andThen x f).events = _
  simp [andThen, h]

@[ext] theorem ext {x y : Traced α} (he : x.events = y.events) (ho : x.outcome = y.outcome) :
    x = y := by
  cases x
  cases y
  cases he
  cases ho
  rfl

theorem bind_ok (es : List Event) (a : α) (f : α → Traced β) :
    (⟨es, .ok a⟩ : Traced α) >>= f = ⟨es ++ (f a).events, (f a).outcome⟩ := rfl

theorem bind_pure_self (x : Traced α) : (x >>= fun a => pure (id a)) = x := by
  rcases x with ⟨es, r⟩
  cases r with
  | error e => rfl
  | ok a => exact ext (List.append_nil es) rfl

theorem bind_assoc {γ : Type} (x : Traced α) (f : α → Traced β) (g : β → Traced γ) :
    x >>= f >>= g = x >>= fun a => f a >>= g := by
  rcases x with ⟨es, r⟩
  cases r with
  | error e => rfl
  | ok a =>
    rw [bind_ok, bind_ok]
    generalize f a = y
    rcases y with ⟨es', r'⟩
    cases r' with
    | error e => rfl
    | ok b => exact ext (List.append_assoc _ _ _) rfl

instance : LawfulMonad Traced :=
  LawfulMonad.mk' Traced bind_pure_self (fun _ _ => ext (List.nil_append _) rfl) bind_assoc

end Traced

end RowFilter
