import RowFilter.Json.Reader
import RowFilter.Traced
import RowFilter.Word

/-!
# RowFilter — limits of page sizes

A request without a limit gets the default one, and no request gets more than the largest one. The two
are read from JSON text, as an object with these members or as an array of the two; what is missing
keeps its usual value. Other members are ignored, whatever they hold.

Main results:

* `resolve_le` — no page is larger than the largest limit.
* `check_ok_iff` — limits are in order if they are positive and the default is not above the largest.
-/

namespace RowFilter

/-- The limits of page sizes. -/
structure PageLimits where
  standard : UInt64
  largest : UInt64
deriving DecidableEq, Repr

/-- Why limits cannot be used. -/
inductive PageLimitsError
  | unreadable (path : String)
  | malformed (path : String)
  | notPositive
  | inverted (limits : PageLimits)
deriving DecidableEq, Repr

/-- The wording of an error. -/
def PageLimitsError.message : PageLimitsError → String
  | unreadable path => "Failed to read config file " ++ path
  | malformed path => "Failed to parse config file " ++ path
  | notPositive => "page sizes must be positive"
  | inverted limits =>
    "default_limit " ++ toString limits.standard ++ " exceeds max_limit " ++ toString limits.largest

namespace PageLimits

/-- The usual limits. -/
def usual : PageLimits := ⟨20, 1000⟩

instance : Inhabited PageLimits := ⟨usual⟩

/-- Checks that both limits are positive and in order. -/
def check (l : PageLimits) : Except PageLimitsError Unit :=
  if l.standard = 0 ∨ l.largest = 0 then .error .notPositive
  else if l.largest < l.standard then .error (.inverted l)
  else .ok ()

theorem check_ok_iff (l : PageLimits) :
    l.check = .ok () ↔ l.standard ≠ 0 ∧ l.largest ≠ 0 ∧ ¬ l.largest < l.standard := by
  unfold check
  by_cases h : l.standard = 0 ∨ l.largest = 0
  · rw [if_pos h]
    rcases h with h | h <;> simp [h]
  · rw [if_neg h]
    rw [not_or] at h
    by_cases h' : l.largest < l.standard <;> simp [h, h']

/-- The limit that a request gets. -/
def resolve (l : PageLimits) (requested : Option UInt64) (offset : UInt64) :
    Except FilterError UInt64 :=
  match requested with
  | none => .ok l.standard
  | some n =>
    if n = 0 then .error (.invalidPagination offset 0)
    else .ok (if l.largest < n then l.largest else n)

theorem resolve_le {l : PageLimits} {requested : Option UInt64} {offset n : UInt64}
    (hl : ¬ l.largest < l.standard) (h : l.resolve requested offset = .ok n) :
    ¬ l.largest < n := by
  unfold resolve at h
  split at h
  · cases h
    exact hl
  · split at h
    · cases h
    · cases h
      split
      · simp
      · assumption

/-- The limit that a request gets, with a report if it is less than requested. -/
def resolveTraced (l : PageLimits) (requested : Option UInt64) (offset : UInt64) :
    Traced UInt64 := do
  let granted ← Traced.ofExcept (l.resolve requested offset)
  match requested with
  | some n => if l.largest < n then Traced.report (.limitClamped n l.largest)
  | none => pure ()
  return granted

/-! ## Reading -/

/-- Reads a number that fits a word. -/
def word? : Json.Tree → Option UInt64
  | .number n =>
    if n.neg || n.fraction.isSome || n.exponent.isSome then none
    else toWord? (Decimal.digitsValue 0 n.whole)
  | _ => none

/-- Members that were read so far. -/
structure Draft where
  standard : Option UInt64
  largest : Option UInt64

/-- Reads one member. A limit that is given twice is refused. -/
def Draft.read (p : Draft) (m : Option String × Json.Tree) : Option Draft := do
  let name ← m.1
  if name = "default_limit" then
    if p.standard.isSome then none else return { p with standard := some (← word? m.2) }
  else if name = "max_limit" then
    if p.largest.isSome then none else return { p with largest := some (← word? m.2) }
  else return p

/-- The limits with the usual values in the gaps. -/
def Draft.fill (p : Draft) : PageLimits :=
  ⟨p.standard.getD usual.standard, p.largest.getD usual.largest⟩

/-- The limits of a tree. -/
def ofTree? : Json.Tree → Option PageLimits
  | .object ms => (ms.foldlM Draft.read ⟨none, none⟩).map Draft.fill
  | .array [] => some usual
  | .array [a] => do return ⟨← word? a, usual.largest⟩
  | .array [a, b] => do return ⟨← word? a, ← word? b⟩
  | _ => none

/-- Loads limits from the text of a file. -/
def load (path : String) (text : Option String) : Except PageLimitsError PageLimits :=
  match text with
  | none => .error (.unreadable path)
  | some s =>
    match (Json.Tree.read? s.toList).bind ofTree? with
    | none => .error (.malformed path)
    | some l => l.check.map fun _ => l

end PageLimits

end RowFilter
