import RowFilter.FilterError
import RowFilter.Text.Blank
import RowFilter.Text.Search

/-!
# RowFilter — column references and literals in a query

A *marker* is a brace with what belongs to it: `#{name}` refers to a column, and `{literal}` is a
literal. The name of a column ends at the first closing brace. A literal may hold quoted elements, and
a closing brace inside a quoted element does not end it. An element is quoted only if the quote opens
it, so an apostrophe inside a word is an ordinary character. If the quotes of a literal never balance,
the first closing brace ends it.

Columns and literals are found by two scans of the whole query, each of which goes on behind the marker
that it has found.

Main results:

* `cutAt_eq_some_iff` — a text is cut at its first closing brace.
* `cutLiteral_length` — what follows a literal is shorter than what it was cut from.
-/

namespace RowFilter.Query

open Text (isBlank width)

/-- An opening brace. -/
def openBrace : Char := '\x7b'

/-- A closing brace. -/
def closeBrace : Char := '\x7d'

/-! ## The end of a marker -/

/-- Cuts a text at its first closing brace, which belongs to neither part. -/
def cutAt : List Char → Option (List Char × List Char)
  | [] => none
  | c :: rest =>
    if c = closeBrace then some ([], rest)
    else (cutAt rest).map fun p => (c :: p.1, p.2)

theorem cutAt_eq_some_iff {s body after : List Char} :
    cutAt s = some (body, after) ↔ s = body ++ closeBrace :: after ∧ closeBrace ∉ body := by
  induction s generalizing body with
  | nil => simp [cutAt]
  | cons c rest ih =>
    by_cases hc : c = closeBrace
    · cases body with
      | nil => simp [cutAt, hc]
      | cons b bs =>
        simp only [cutAt, hc, if_true, Option.some.injEq, Prod.mk.injEq, List.cons_append,
          List.cons.injEq, List.mem_cons, not_or]
        constructor
        · rintro ⟨h, _⟩
          cases h
        · rintro ⟨⟨h, _⟩, h', _⟩
          exact absurd h h'
    · simp only [cutAt, hc, if_false, Option.map_eq_some_iff, Prod.mk.injEq, Prod.exists]
      constructor
      · rintro ⟨b, a, h, rfl, rfl⟩
        obtain ⟨h1, h2⟩ := ih.1 h
        exact ⟨by rw [h1, List.cons_append], by simp [h2, Ne.symm hc]⟩
      · rintro ⟨h1, h2⟩
        cases body with
        | nil =>
          simp only [List.nil_append, List.cons.injEq] at h1
          exact absurd h1.1 hc
        | cons b bs =>
          simp only [List.cons_append, List.cons.injEq, List.mem_cons, not_or] at h1 h2
          exact ⟨bs, after, ih.2 ⟨h1.2, h2.2⟩, by rw [h1.1], rfl⟩

/-- How far a literal has been read: inside a quote, and else whether an element may start here. -/
structure ElementState where
  quote : Option Char
  fresh : Bool
deriving DecidableEq, Repr

namespace ElementState

/-- A literal starts with an element. -/
def start : ElementState := ⟨none, true⟩

/-- Reads one character of a literal. -/
def step (s : ElementState) (c : Char) : ElementState :=
  match s.quote with
  -- only the quote that opened an element closes it
  | some q => if c = q then ⟨none, s.fresh⟩ else s
  | none =>
    -- elements start behind brackets and commas, and blanks may stand before them
    if (c = '\'' || c = '"') && s.fresh then ⟨some c, s.fresh⟩
    else if c = '[' || c = '(' || c = ',' then ⟨none, true⟩
    else if isBlank c then s
    else ⟨none, false⟩

end ElementState

/-- Cuts a literal at the first closing brace outside quoted elements. -/
def cutBalanced (state : ElementState) : List Char → Option (List Char × List Char)
  | [] => none
  | c :: rest =>
    if c = closeBrace && state.quote.isNone then some ([], rest)
    else (cutBalanced (state.step c) rest).map fun p => (c :: p.1, p.2)

/-- Cuts a literal at its end. -/
def cutLiteral (s : List Char) : Option (List Char × List Char) :=
  (cutBalanced .start s).or (cutAt s)

theorem cutAt_length {s : List Char} {p : List Char × List Char} (h : cutAt s = some p) :
    p.2.length < s.length := by
  obtain ⟨h, _⟩ := cutAt_eq_some_iff.1 (show cutAt s = some (p.1, p.2) from h)
  rw [h]
  simp
  omega

theorem cutBalanced_length {state : ElementState} {s : List Char} {p : List Char × List Char}
    (h : cutBalanced state s = some p) : p.2.length < s.length := by
  induction s generalizing state p with
  | nil => simp [cutBalanced] at h
  | cons c rest ih =>
    unfold cutBalanced at h
    split at h
    · cases h
      simp
    · obtain ⟨q, hq, rfl⟩ := Option.map_eq_some_iff.1 h
      have := ih hq
      simp
      omega

theorem cutLiteral_length {s : List Char} {p : List Char × List Char} (h : cutLiteral s = some p) :
    p.2.length < s.length := by
  unfold cutLiteral at h
  cases hb : cutBalanced .start s with
  | none =>
    rw [hb] at h
    exact cutAt_length h
  | some q =>
    rw [hb] at h
    cases h
    exact cutBalanced_length hb

/-! ## The two scans -/

/-- Finds the columns of a text that starts at byte `pos`. -/
def scanColumns (pos : Nat) (s : List Char) : Except FilterError (List Token) :=
  match s with
  | [] => .ok []
  | c :: rest =>
    match rest with
    | [] => .ok []
    | d :: body =>
      if c = '#' ∧ d = openBrace then
        match h : cutAt body with
        | none => .error (.querySyntax pos .unterminatedColumn)
        | some (name, after) =>
          have : after.length < body.length := cutAt_length h
          let stop := pos + width name + 3
          (scanColumns stop after).map (⟨.column, String.ofList name, pos, stop⟩ :: ·)
      else scanColumns (pos + c.utf8Size) (d :: body)
termination_by s.length
decreasing_by all_goals (simp only [List.length_cons] at *; omega)

/-- Finds the literals of a text that starts at byte `pos`, behind a hash mark if `hash` holds. -/
def scanValues (pos : Nat) (hash : Bool) (s : List Char) : Except FilterError (List Token) :=
  match s with
  | [] => .ok []
  | c :: rest =>
    if c = openBrace then
      if hash then
        -- the brace belongs to a column, which the other scan has found
        match h : cutAt rest with
        | none => .error (.querySyntax pos .unterminatedValue)
        | some (name, after) =>
          have : after.length < rest.length := cutAt_length h
          scanValues (pos + width name + 2) false after
      else
        match h : cutLiteral rest with
        | none => .error (.querySyntax pos .unterminatedValue)
        | some (literal, after) =>
          have : after.length < rest.length := cutLiteral_length h
          let stop := pos + width literal + 2
          (scanValues stop false after).map (⟨.value, String.ofList literal, pos, stop⟩ :: ·)
    else scanValues (pos + c.utf8Size) (c = '#') rest
termination_by s.length
decreasing_by all_goals (simp only [List.length_cons] at *; omega)

end RowFilter.Query
