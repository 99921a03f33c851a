import RowFilter.Proofs.MarkerScans
import RowFilter.Text.Slice

/-!
# RowFilter — the scans for markers by slices

The scans for markers go through a query character by character. Here they are taken as loops over bytes: a
turn searches the text behind a byte for the next opening, adds up where the closing brace must be, and takes
the slice between them. None of the sums is checked before a slice is taken, so a sum that is wrong, or that
ends inside a character, gives no slice and nothing at all. The loops give what the scans give; so every slice
is there, whatever characters the query consists of.

Main results:

* `scanBySlices_eq` — a loop whose turns are those of a scan gives what the scan gives.
* `turn_nextColumn`, `turn_nextValue` — the turns of the two loops.
-/

namespace RowFilter.Query

open Text (width slice? find? slice?_between slice?_behind slice?_front)

/-! ## Loops over slices -/

/-- The outcome of a scan that takes slices: nothing at all if one of them is not there. -/
abbrev Sliced := ExceptT FilterError Option

namespace Sliced

/-- A slice is not there. -/
def outOfRange {α : Type} : Sliced α := ExceptT.mk none

/-- An outcome for which no slice is needed. -/
def ofExcept {α : Type} (x : Except FilterError α) : Sliced α := ExceptT.mk (some x)

end Sliced

/-- The first closing brace behind a byte. -/
def findClose (q : List Char) (body : Nat) : Option (Option Nat) := do
  let s ← slice? q body (width q)
  return (find? [closeBrace] s).map (body + ·)

/-- The first closing brace outside quoted elements. -/
def findBalanced (state : ElementState) : List Char → Option Nat
  | [] => none
  | c :: s =>
    if c = closeBrace && state.quote.isNone then some 0
    else (findBalanced (state.step c) s).map (c.utf8Size + ·)

/-- The closing brace of a literal that starts at a byte. -/
def findLiteralClose (q : List Char) (body : Nat) : Option (Option Nat) := do
  let s ← slice? q body (width q)
  match findBalanced .start s with
  | some n => return some (body + n)
  | none => findClose q body

/-- The closing brace of a marker: of a column, or else of a literal. -/
def findMarkerClose (q : List Char) (isColumn : Bool) (body : Nat) : Option (Option Nat) :=
  if isColumn then findClose q body else findLiteralClose q body

/-- The next column behind a byte, and where to go on. -/
def nextColumn (q : List Char) (search : Nat) : Sliced (Option (List Token × Nat)) := do
  let s ← slice? q search (width q)
  match find? ['#', openBrace] s with
  | none => return none
  | some n =>
    let start := search + n
    let body := start + 2
    match ← findClose q body with
    | none => throw (.querySyntax start .unterminatedColumn)
    | some close =>
      let name ← slice? q body close
      return some ([⟨.column, String.ofList name, start, close + 1⟩], close + 1)

/-- The next brace that opens a literal or belongs to a column, and where to go on. -/
def nextValue (q : List Char) (search : Nat) : Sliced (Option (List Token × Nat)) := do
  let s ← slice? q search (width q)
  match find? [openBrace] s with
  | none => return none
  | some n =>
    let start := search + n
    let body := start + 1
    let front ← slice? q 0 start
    let isColumn : Bool := front.getLast? = some '#'
    match ← findMarkerClose q isColumn body with
    | none => throw (.querySyntax start .unterminatedValue)
    | some close =>
      if isColumn then return some ([], close + 1)
      else
        let literal ← slice? q body close
        return some ([⟨.value, String.ofList literal, start, close + 1⟩], close + 1)

/-- Goes on as long as something is found. Nothing comes out if a turn does not go forward or leaves the text;
the turns of the two scans never do. -/
def scanBySlices (q : List Char) (next : Nat → Sliced (Option (List Token × Nat))) (search : Nat) :
    Sliced (List Token) := do
  match ← next search with
  | none => return []
  | some (found, stop) =>
    if _ : search < stop ∧ stop ≤ width q then
      let more ← scanBySlices q next stop
      return found ++ more
    else .outOfRange
termination_by width q - search

namespace Sliced

theorem lift_bind {α β : Type} {x : Option α} {a : α} (h : x = some a) (f : α → Sliced β) :
    (liftM x : Sliced α) >>= f = f a := by
  rw [h]
  rfl

theorem ofExcept_ok_bind {α β : Type} (a : α) (f : α → Sliced β) : ofExcept (.ok a) >>= f = f a := rfl

theorem ofExcept_map_bind {α β γ : Type} (x : Except FilterError α) (f : α → β)
    (k : β → Sliced γ) : ofExcept (x.map f) >>= k = ofExcept x >>= fun a => k (f a) := by
  cases x <;> rfl

end Sliced

/-! ## Closing braces -/

theorem find?_closeBrace (s : List Char) :
    find? [closeBrace] s = (cutAt s).map fun p => width p.1 := by
  induction s with
  | nil => rfl
  | cons c s ih =>
    rw [find?, cutAt, ih]
    by_cases hc : c = closeBrace
    · rw [if_pos hc, if_pos (by simp [hc])]
      rfl
    · rw [if_neg hc, if_neg (by simpa using Ne.symm hc)]
      cases cutAt s <;> rfl

theorem findBalanced_eq (state : ElementState) (s : List Char) :
    findBalanced state s = (cutBalanced state s).map fun p => width p.1 := by
  induction s generalizing state with
  | nil => rfl
  | cons c s ih =>
    rw [findBalanced, cutBalanced, ih]
    split
    · rfl
    · cases cutBalanced (state.step c) s <;> rfl

theorem findClose_eq (before s : List Char) : findClose (before ++ s) (width before) =
    some ((cutAt s).map fun p => width before + width p.1) := by
  rw [findClose, slice?_behind, Option.bind_eq_bind, Option.bind_some, find?_closeBrace]
  cases cutAt s <;> rfl

theorem findLiteralClose_eq (before s : List Char) : findLiteralClose (before ++ s) (width before) =
    some ((cutLiteral s).map fun p => width before + width p.1) := by
  rw [findLiteralClose, slice?_behind, Option.bind_eq_bind, Option.bind_some, findClose_eq, findBalanced_eq,
    cutLiteral]
  cases cutBalanced .start s <;> rfl

/-! ## The two loops -/

/-- One turn of a loop against the scan that it stands for: the scan of the rest, with the text in front of
it. -/
inductive Turn (q : List Char) (next : Nat → Sliced (Option (List Token × Nat)))
    (scan : List Char → List Char → Except FilterError (List Token)) (before rest : List Char) : Prop
  | done : next (width before) = pure none → scan before rest = .ok [] → Turn q next scan before rest
  | failed {e : FilterError} : next (width before) = throw e → scan before rest = .error e →
      Turn q next scan before rest
  | found (ts : List Token) (front after : List Char) : front ++ after = q →
      width before < width front → next (width before) = pure (some (ts, width front)) →
      scan before rest = (scan front after).map (ts ++ ·) → Turn q next scan before rest

/-- A loop whose turns are those of a scan gives what the scan gives, and takes no slice that is not there. -/
theorem scanBySlices_eq {q : List Char} {next : Nat → Sliced (Option (List Token × Nat))}
    {scan : List Char → List Char → Except FilterError (List Token)}
    (hturn : ∀ before rest, before ++ rest = q → Turn q next scan before rest) {before rest : List Char}
    (hq : before ++ rest = q) :
    scanBySlices q next (width before) = .ofExcept (scan before rest) := by
  induction hn : width q - width before using Nat.strongRecOn generalizing before rest with
  | ind n ih =>
    -- each turn shortens what is left behind its byte
    rw [scanBySlices]
    cases hturn before rest hq with
    | done hnext hscan =>
      rw [hnext, hscan]
      rfl
    | failed hnext hscan =>
      rw [hnext, hscan]
      rfl
    | found ts front after hq' hlt hnext hscan =>
      have hle : width front ≤ width q := by
        rw [← hq', Text.width_append]
        omega
      rw [hnext, hscan, pure_bind]
      dsimp only
      rw [dif_pos ⟨hlt, hle⟩, ih _ (by omega) hq' rfl]
      cases scan front after <;> rfl

/-! ### Columns -/

theorem head_ne_of_not_isPrefixOf {c : Char} {s : List Char}
    (h : ¬ ['#', openBrace].isPrefixOf (c :: s) = true) : c = '#' → s.head? ≠ some openBrace := by
  rintro rfl hs
  obtain ⟨s, rfl⟩ := List.head?_eq_some_iff.1 hs
  exact h (by simp [List.isPrefixOf])

theorem scanColumns_of_find?_eq_none {s : List Char} (h : find? ['#', openBrace] s = none) (pos : Nat) :
    scanColumns pos s = .ok [] := by
  induction s generalizing pos with
  | nil => exact scanColumns_nil pos
  | cons c s ih =>
    rw [find?] at h
    split at h
    · cases h
    · rename_i hno
      rw [scanColumns_plain (head_ne_of_not_isPrefixOf hno)]
      exact ih (Option.map_eq_none_iff.1 h) _

/-- The scan for columns goes over everything in front of the first opening. -/
theorem exists_of_find?_column {s : List Char} {n : Nat} (h : find? ['#', openBrace] s = some n) :
    ∃ plain body, s = plain ++ '#' :: openBrace :: body ∧ n = width plain ∧
      ∀ pos, scanColumns pos s = scanColumns (pos + width plain) ('#' :: openBrace :: body) := by
  induction s generalizing n with
  | nil => cases h
  | cons c s ih =>
    rw [find?] at h
    split at h
    · rename_i hprefix
      cases h
      obtain ⟨body, hbody⟩ := List.isPrefixOf_iff_prefix.1 hprefix
      exact ⟨[], body, hbody.symm, rfl, fun pos => by rw [← hbody]; rfl⟩
    · rename_i hno
      obtain ⟨m, hm, rfl⟩ := Option.map_eq_some_iff.1 h
      obtain ⟨plain, body, hs, rfl, hscan⟩ := ih hm
      refine ⟨c :: plain, body, by rw [hs]; rfl, rfl, fun pos => ?_⟩
      rw [scanColumns_plain (head_ne_of_not_isPrefixOf hno), hscan, Text.width_cons, Nat.add_assoc]

theorem scanColumns_unclosed {body : List Char} (h : cutAt body = none) (pos : Nat) :
    scanColumns pos ('#' :: openBrace :: body) = .error (.querySyntax pos .unterminatedColumn) := by
  rw [scanColumns, if_pos ⟨rfl, rfl⟩]
  split
  · rfl
  · rename_i hcut
    rw [h] at hcut
    cases hcut

/-- What a turn does at the first opening behind its byte. -/
theorem nextColumn_of_find? (before : List Char) {plain body : List Char}
    (hfind : find? ['#', openBrace] (plain ++ '#' :: openBrace :: body) = some (width plain)) :
    nextColumn (before ++ (plain ++ '#' :: openBrace :: body)) (width before) =
      let start := width before + width plain
      match cutAt body with
      | none => throw (.querySyntax start .unterminatedColumn)
      | some (name, _) =>
        let stop := start + width name + 3
        return some ([⟨.column, String.ofList name, start, stop⟩], stop) := by
  -- the name starts behind the opening
  obtain ⟨opened, hopened⟩ : ∃ opened, opened = before ++ (plain ++ ['#', openBrace]) := ⟨_, rfl⟩
  have hq : before ++ (plain ++ '#' :: openBrace :: body) = opened ++ body := by simp [hopened]
  have hbody : width before + width plain + 2 = width opened := by
    rw [hopened, Text.width_append, Text.width_append, Nat.add_assoc]
    rfl
  rw [nextColumn, Sliced.lift_bind (slice?_behind ..), hfind]
  dsimp only
  rw [hq, hbody, Sliced.lift_bind (findClose_eq opened body)]
  cases hcut : cutAt body with
  | none => rfl
  | some p =>
    obtain ⟨name, after⟩ := p
    obtain ⟨rfl, _⟩ := cutAt_eq_some_iff.1 hcut
    have hstop : width opened + width name + 1 = width before + width plain + width name + 3 := by omega
    dsimp only [Option.map]
    rw [Sliced.lift_bind (slice?_between ..), hstop]

theorem turn_nextColumn {q before rest : List Char} (hq : before ++ rest = q) :
    Turn q (nextColumn q) (fun front s => scanColumns (width front) s) before rest := by
  subst hq
  cases hfind : find? ['#', openBrace] rest with
  | none =>
    refine .done ?_ (scanColumns_of_find?_eq_none hfind _)
    rw [nextColumn, Sliced.lift_bind (slice?_behind ..), hfind]
  | some n =>
    obtain ⟨plain, body, rfl, rfl, hscan⟩ := exists_of_find?_column hfind
    have hnext := nextColumn_of_find? before hfind
    cases hcut : cutAt body with
    | none =>
      rw [hcut] at hnext
      exact .failed hnext ((hscan _).trans (scanColumns_unclosed hcut _))
    | some p =>
      obtain ⟨name, after⟩ := p
      obtain ⟨rfl, hname⟩ := cutAt_eq_some_iff.1 hcut
      rw [hcut] at hnext
      -- the next turn starts behind the closing brace
      have hfront : width (before ++ (plain ++ (Piece.column name).text)) =
          width before + width plain + width name + 3 := by
        rw [Text.width_append, Text.width_append, width_column]
        omega
      refine .found _ (before ++ (plain ++ (Piece.column name).text)) after ?_ ?_
        (by rw [hfront]; exact hnext) ((hscan _).trans ?_)
      · simp [Piece.text]
      · omega
      · rw [scanColumns_column hname, hfront]
        rfl

/-! ### Literals -/

/-- The scan for literals of the second part, with the first part in front of it. -/
def scanValuesBehind (before rest : List Char) : Except FilterError (List Token) :=
  scanValues (width before) (before.getLast? = some '#') rest

theorem scanValuesBehind_plain {c : Char} (hc : c ≠ openBrace) (before rest : List Char) :
    scanValuesBehind before (c :: rest) = scanValuesBehind (before ++ [c]) rest := by
  rw [scanValuesBehind, scanValuesBehind, scanValues, if_neg hc, Text.width_append, List.getLast?_concat,
    Text.width_cons, Text.width_nil, Nat.add_zero]
  simp only [Option.some.injEq]

theorem scanValuesBehind_of_find?_eq_none {s : List Char} (h : find? [openBrace] s = none)
    (before : List Char) : scanValuesBehind before s = .ok [] := by
  induction s generalizing before with
  | nil => exact scanValues_nil _ _
  | cons c s ih =>
    rw [find?] at h
    split at h
    · cases h
    · rename_i hno
      rw [scanValuesBehind_plain (fun hc => hno (by simp [hc]))]
      exact ih (Option.map_eq_none_iff.1 h) _

/-- The scan for literals goes over everything in front of the first brace. -/
theorem exists_of_find?_brace {s : List Char} {n : Nat} (h : find? [openBrace] s = some n) :
    ∃ plain body, s = plain ++ openBrace :: body ∧ n = width plain ∧
      ∀ before, scanValuesBehind before s = scanValuesBehind (before ++ plain) (openBrace :: body) := by
  induction s generalizing n with
  | nil => cases h
  | cons c s ih =>
    rw [find?] at h
    split at h
    · rename_i hprefix
      cases h
      obtain ⟨body, hbody⟩ := List.isPrefixOf_iff_prefix.1 hprefix
      exact ⟨[], body, hbody.symm, rfl, fun before => by rw [← hbody, List.append_nil]; rfl⟩
    · rename_i hno
      obtain ⟨m, hm, rfl⟩ := Option.map_eq_some_iff.1 h
      obtain ⟨plain, body, hs, rfl, hscan⟩ := ih hm
      refine ⟨c :: plain, body, by rw [hs]; rfl, rfl, fun before => ?_⟩
      rw [scanValuesBehind_plain (fun hc => hno (by simp [hc])), hscan, List.append_assoc]
      rfl

/-- The end of the marker that a brace opens: behind a hash mark that of a column, else that of a literal. -/
def cutMarker (hash : Bool) (s : List Char) : Option (List Char × List Char) :=
  if hash then cutAt s else cutLiteral s

theorem cutMarker_eq_none {hash : Bool} {s : List Char} (h : cutMarker hash s = none) : closeBrace ∉ s := by
  cases hash with
  | true => exact cutAt_eq_none_iff.1 h
  | false => exact cutLiteral_eq_none_iff.1 h

theorem eq_of_cutMarker {hash : Bool} {s body after : List Char}
    (h : cutMarker hash s = some (body, after)) : s = body ++ closeBrace :: after := by
  cases hash with
  | true => exact (cutAt_eq_some_iff.1 h).1
  | false => exact eq_of_cutLiteral h

/-- Only the brace of a literal gives a token. -/
theorem scanValues_of_cutMarker {hash : Bool} {s body after : List Char}
    (h : cutMarker hash s = some (body, after)) (pos : Nat) : scanValues pos hash (openBrace :: s) =
      (scanValues (pos + width body + 2) false after).map
        ((if hash then [] else [⟨.value, String.ofList body, pos, pos + width body + 2⟩]) ++ ·) := by
  obtain rfl := eq_of_cutMarker h
  cases hash with
  | true => rw [scanValues_brace (cutAt_eq_some_iff.1 h).2, if_pos rfl, FoundBefore.map_nil]
  | false =>
    rw [scanValues_value h]
    rfl

theorem findMarkerClose_eq (hash : Bool) (before s : List Char) :
    findMarkerClose (before ++ s) hash (width before) =
      some ((cutMarker hash s).map fun p => width before + width p.1) := by
  cases hash with
  | true => exact findClose_eq before s
  | false => exact findLiteralClose_eq before s

/-- What a turn does at the first brace behind its byte. -/
theorem nextValue_of_find? (before : List Char) {plain body : List Char}
    (hfind : find? [openBrace] (plain ++ openBrace :: body) = some (width plain)) :
    nextValue (before ++ (plain ++ openBrace :: body)) (width before) =
      let hash : Bool := (before ++ plain).getLast? = some '#'
      let start := width (before ++ plain)
      match cutMarker hash body with
      | none => throw (.querySyntax start .unterminatedValue)
      | some (literal, _) =>
        let stop := start + width literal + 2
        return some (if hash then [] else [⟨.value, String.ofList literal, start, stop⟩], stop) := by
  obtain ⟨front, hfront⟩ : ∃ front, front = before ++ plain := ⟨_, rfl⟩
  have hq : before ++ (plain ++ openBrace :: body) = front ++ openBrace :: body := by simp [hfront]
  have hopened : front ++ openBrace :: body = (front ++ [openBrace]) ++ body := by simp
  have hstart : width before + width plain = width front := by rw [hfront, Text.width_append]
  have hbody : width front + 1 = width (front ++ [openBrace]) := by
    rw [Text.width_append]
    rfl
  rw [nextValue, Sliced.lift_bind (slice?_behind ..), hfind, ← hfront]
  dsimp only
  -- the test of the text in front decides which closing brace counts
  rw [hq, hstart, Sliced.lift_bind (slice?_front ..), hopened, hbody,
    Sliced.lift_bind (findMarkerClose_eq ..)]
  generalize decide (front.getLast? = some '#') = hash
  cases hcut : cutMarker hash body with
  | none => rfl
  | some p =>
    obtain ⟨literal, after⟩ := p
    obtain rfl := eq_of_cutMarker hcut
    have hstop : width (front ++ [openBrace]) + width literal + 1 = width front + width literal + 2 := by
      omega
    dsimp only [Option.map]
    rw [Sliced.lift_bind (slice?_between ..), hstop]
    cases hash <;> rfl

theorem turn_nextValue {q before rest : List Char} (hq : before ++ rest = q) :
    Turn q (nextValue q) scanValuesBehind before rest := by
  subst hq
  cases hfind : find? [openBrace] rest with
  | none =>
    refine .done ?_ (scanValuesBehind_of_find?_eq_none hfind _)
    rw [nextValue, Sliced.lift_bind (slice?_behind ..), hfind]
  | some n =>
    obtain ⟨plain, body, rfl, rfl, hscan⟩ := exists_of_find?_brace hfind
    replace hscan : scanValuesBehind before (plain ++ openBrace :: body) =
        scanValues (width (before ++ plain)) ((before ++ plain).getLast? = some '#') (openBrace :: body) :=
      hscan before
    have hnext := nextValue_of_find? before hfind
    dsimp only at hnext
    generalize decide ((before ++ plain).getLast? = some '#') = hash at hscan hnext
    cases hcut : cutMarker hash body with
    | none =>
      rw [hcut] at hnext
      exact .failed hnext (hscan.trans (LiteralScan.scan_unclosed _ (cutMarker_eq_none hcut)))
    | some p =>
      obtain ⟨literal, after⟩ := p
      obtain rfl := eq_of_cutMarker hcut
      rw [hcut] at hnext
      have hfront : width (before ++ plain ++ (Piece.value literal).text) =
          width (before ++ plain) + width literal + 2 := by
        rw [Text.width_append, width_value, Nat.add_assoc]
      refine .found _ (before ++ plain ++ (Piece.value literal).text) after ?_ ?_
        (by rw [hfront]; exact hnext) (hscan.trans ?_)
      · simp [Piece.text]
      · rw [hfront, Text.width_append]
        omega
      · -- behind the closing brace there is no hash mark
        have hlast : (before ++ plain ++ (Piece.value literal).text).getLast? = some closeBrace := by
          rw [Piece.text, ← List.cons_append, ← List.append_assoc, List.getLast?_concat]
        have hne : decide (some closeBrace = some '#') = false := by decide
        rw [scanValues_of_cutMarker hcut, scanValuesBehind, hlast, hne, hfront]

end RowFilter.Query
