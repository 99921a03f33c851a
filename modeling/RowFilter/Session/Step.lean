import RowFilter.Session

/-!
# RowFilter — the life of a session

A session goes through steps. Some change its catalogs or its lists, and all others only ask. Each step
has an answer, or fails and leaves the session as it was.

Main results:

* `Session.perform_of_asks` — a step that only asks leaves the session as it was.
* `Session.run_append` — running two lists of steps is running one after the other.
-/

namespace RowFilter

namespace Session

/-- Which catalog a step is about. -/
inductive Place
  | schemas
  | datasets
deriving DecidableEq, Repr

/-- The catalog at a place. -/
def catalog (s : Session) : Place → Catalog
  | .schemas => s.schemas
  | .datasets => s.datasets

/-- Changes the catalog at a place. -/
def update (s : Session) (place : Place) (f : Catalog → Catalog) : Session :=
  match place, s.separate with
  -- unless datasets have a catalog of their own, both places are the same one
  | .datasets, some c => { s with separate := some (f c) }
  | _, _ => { s with schemas := f s.schemas }

/-- One step. -/
inductive Step
  | register (place : Place) (name : String) (dataset : Dataset)
  | remove (place : Place) (name : String)
  | insertList (user name : String) (items : List Value)
  | removeList (user name : String)
  | schema (place : Place) (name : String)
  | load (place : Place) (name : String)
  | list (user name : String)
  | compile (user dataset query : String)
  | count (user dataset query : String)
  | filter (request : Request)

/-- Does the step leave the session alone? -/
def Step.asks : Step → Bool
  | .register .. | .remove .. | .insertList .. | .removeList .. => false
  | _ => true

/-- The answer of a step. -/
inductive Answer
  | done
  /-- Was there something to remove? -/
  | removed (found : Bool)
  | schema (schema : Schema)
  | table (table : Table)
  | items (items : List Value)
  | compiled (filter : Compiled)
  | count (n : Nat)
  | page (page : Page)

/-- The answer of a step. -/
def answer [Calendar.Parsers] (s : Session) : Step → Traced Answer
  | .register .. => return .done
  | .remove place name => return .removed ((s.catalog place).contains name)
  | .insertList .. => return .done
  | .removeList user name => return .removed (s.lists.contains (user, name))
  | .schema place name => do
    return .schema (← Traced.ofExcept ((s.catalog place).schema name))
  | .load place name => do
    return .table (← Traced.ofExcept ((s.catalog place).load name))
  | .list user name => do
    return .items (← Traced.ofExcept (Literal.namedList s.lists user name))
  | .compile user dataset query => do return .compiled (← s.compile user dataset query)
  | .count user dataset query => do return .count (← s.count user dataset query)
  | .filter request => do return .page (← s.filter request)

/-- The session after a step. -/
def after (s : Session) : Step → Session
  | .register place name dataset => s.update place fun c => c.register name dataset
  | .remove place name => s.update place fun c => c.erase name
  | .insertList user name items => { s with lists := s.lists.insert (user, name) items }
  | .removeList user name => { s with lists := s.lists.erase (user, name) }
  | _ => s

/-- Performs a step. -/
def perform [Calendar.Parsers] (s : Session) (step : Step) : Traced Answer × Session := (s.answer step, s.after step)

theorem perform_of_asks [Calendar.Parsers] (s : Session) {step : Step} (h : step.asks = true) :
    (s.perform step).2 = s := by
  cases step <;> first | rfl | cases h

/-- Performs steps one after the other. -/
def run [Calendar.Parsers] (s : Session) : List Step → List (Traced Answer) × Session
  | [] => ([], s)
  | step :: rest =>
    let (a, s) := s.perform step
    let (as, s) := s.run rest
    (a :: as, s)

theorem run_append [Calendar.Parsers] (s : Session) (xs ys : List Step) :
    s.run (xs ++ ys) =
      ((s.run xs).1 ++ ((s.run xs).2.run ys).1, ((s.run xs).2.run ys).2) := by
  induction xs generalizing s with
  | nil => rfl
  | cons x xs ih => simp [run, perform, ih]

end Session

end RowFilter
