import Mathlib.Data.List.TakeWhile
import RowFilter.Proofs.SlicedScans
import RowFilter.Proofs.SourceOrder

/-!
# RowFilter — the words by slices

Between the markers stand runs, and the runs fall into words. By slices, the runs are what lies between the
end of one marker and the start of the next one, when the markers of both scans are put in order. The words
are slices of their runs. The operator of two words takes two more slices of the query: the gap between the
words, which must be blank, and the whole operator. The words of all runs are one list here, so the gap is
also taken between the last word of a run and the first one of the next, where it has a marker in it and is
not blank.

Main results:

* `plainBySlices_layout` — the runs of a layout are what its markers leave.
* `operatorsBySlices_run` — the words of a run give what they give alone.
* `tokenizeBySlices_eq` — no slice is missing: the tokens by slices are the tokens.
-/

namespace RowFilter.Query

open Text (isBlank width slice? slice?_between trim sameIgnoringCase IsPlace)

/-! ## The algorithm -/

/-- The text between the markers, with the bytes where its parts start. -/
def plainBySlices (q : List Char) (cursor : Nat) : List (Nat × Nat) → Option (List (Nat × List Char))
  | [] =>
    if cursor < width q then do
      let run ← slice? q cursor (width q)
      return [(cursor, run)]
    else return []
  | (start, stop) :: markers =>
    if cursor < start then do
      let run ← slice? q cursor start
      let more ← plainBySlices q (max cursor stop) markers
      return (cursor, run) :: more
    else plainBySlices q (max cursor stop) markers

/-- Where the words of a text start and stop. -/
def wordSpans (pos : Nat) (s : List Char) : List (Nat × Nat) :=
  match s with
  | [] => []
  | c :: rest =>
    if isBlank c then wordSpans (pos + c.utf8Size) rest
    else
      have : (rest.dropWhile (sameWord c)).length ≤ rest.length :=
        (List.dropWhile_sublist _).length_le
      let stop := pos + c.utf8Size + width (rest.takeWhile (sameWord c))
      (pos, stop) :: wordSpans stop (rest.dropWhile (sameWord c))
termination_by s.length
decreasing_by all_goals (simp only [List.length_cons]; omega)

/-- The words of a run that starts at a byte. -/
def wordsBySlices (run : Nat × List Char) : Option (List (Nat × List Char)) :=
  (wordSpans 0 run.2).mapM fun span => do
    let word ← slice? run.2 span.1 span.2
    return (run.1 + span.1, word)

/-- The words between the markers. -/
def plainWordsBySlices (q : List Char) (markers : List (Nat × Nat)) : Option (List (Nat × List Char)) := do
  let runs ← plainBySlices q 0 markers
  let words ← runs.mapM wordsBySlices
  return words.flatten

/-- The operators among the words of all runs. The text between `not` and `in` must be blank. -/
def operatorsBySlices (q : List Char) : List (Nat × List Char) → Sliced (List Token)
  | [] => return []
  | (start, word) :: rest =>
    if (Conjunction.ofKeyword? word).isSome then operatorsBySlices q rest
    else if sameIgnoringCase word ['n', 'o', 't'] then
      match rest with
      | [] => throw (.querySyntax start .loneNot)
      | (start', next) :: more =>
        if sameIgnoringCase next ['i', 'n'] then do
          let gap ← slice? q (start + width word) start'
          if (trim gap).isEmpty then
            let stop := start' + width next
            let text ← slice? q start stop
            let ts ← operatorsBySlices q more
            return ⟨.operator, String.ofList text, start, stop⟩ :: ts
          else throw (.querySyntax start .loneNot)
        else throw (.querySyntax start .loneNot)
    else if (Operator.ofKeyword? word).isSome then do
      let ts ← operatorsBySlices q rest
      return ⟨.operator, String.ofList word, start, start + width word⟩ :: ts
    else throw (.querySyntax start (.unrecognizedOperator (String.ofList word)))

/-- The conjunctions among the words of all runs. -/
def conjunctionsAmong (words : List (Nat × List Char)) : List Token :=
  (words.filter fun w => (Conjunction.ofKeyword? w.2).isSome).map fun w =>
    ⟨.conjunction, String.ofList w.2, w.1, w.1 + width w.2⟩

/-- The markers in order: by their starts, and by their stops if they start together. -/
def sortedSpans (markers : List Token) : List (Nat × Nat) :=
  (markers.map fun t => (t.start, t.stop)).mergeSort fun a b => a.1 < b.1 || (a.1 = b.1 && a.2 ≤ b.2)

/-- The tokens of a query, found by slices. -/
def tokenizeBySlices (query : String) : Sliced TokenStream := do
  let q := query.toList
  let columns ← scanBySlices q (nextColumn q) 0
  let values ← scanBySlices q (nextValue q) 0
  let words ← plainWordsBySlices q (sortedSpans (columns ++ values))
  let operators ← operatorsBySlices q words
  let stream : TokenStream := ⟨columns, operators, values, conjunctionsAmong words⟩
  Sliced.ofExcept stream.checkCounts
  return stream

/-! ## The markers in order -/

/-- The bytes of a token. -/
def Token.span (t : Token) : Nat × Nat := (t.start, t.stop)

/-- The markers of a layout from left to right; the columns inside a literal come right behind it. -/
def markersAt (pos : Nat) : List Piece → List Token
  | [] => []
  | .run s :: ps => markersAt (pos + width s) ps
  | .column name :: ps =>
    let stop := pos + width name + 3
    ⟨.column, String.ofList name, pos, stop⟩ :: markersAt stop ps
  | .value literal :: ps =>
    let stop := pos + width literal + 2
    ⟨.value, String.ofList literal, pos, stop⟩ :: (columnsIn (pos + 1) literal ++ markersAt stop ps)

theorem markersAt_perm (pos : Nat) (ps : List Piece) :
    (columnsAt pos ps ++ valuesAt pos ps).Perm (markersAt pos ps) := by
  induction ps generalizing pos with
  | nil => exact .refl _
  | cons p ps ih =>
    cases p with
    | run s => exact ih _
    | column name => exact (ih _).cons _
    | value literal =>
      -- the literal moves in front of the columns inside it
      refine List.perm_middle.trans (.cons _ ?_)
      rw [columnsAt, List.append_assoc]
      exact (ih _).append_left _

theorem markersAt_ordered (ps : List Piece) (pos : Nat) : (∀ t ∈ markersAt pos ps, pos ≤ t.start) ∧
    (markersAt pos ps).Pairwise fun a b => a.start < b.start := by
  induction ps generalizing pos with
  | nil => exact ⟨fun t ht => (nomatch ht), .nil⟩
  | cons p ps ih =>
    cases p with
    | run s =>
      obtain ⟨hle, hord⟩ := ih (pos + width s)
      exact ⟨fun t ht => Nat.le_trans (Nat.le_add_right _ _) (hle t ht), hord⟩
    | column name =>
      obtain ⟨hle, hord⟩ := ih (pos + width name + 3)
      have hall : ∀ t ∈ markersAt (pos + width name + 3) ps, pos < t.start := by
        intro t ht
        have := hle t ht
        omega
      exact ⟨List.forall_mem_cons.2 ⟨Nat.le_refl _, fun t ht => Nat.le_of_lt (hall t ht)⟩,
        List.pairwise_cons.2 ⟨hall, hord⟩⟩
    | value literal =>
      obtain ⟨hle, hord⟩ := ih (pos + width literal + 2)
      have hin := foundBefore_columnsIn (pos + 1) literal
      have hall : ∀ t ∈ columnsIn (pos + 1) literal ++ markersAt (pos + width literal + 2) ps,
          pos < t.start := by
        refine List.forall_mem_append.2 ⟨fun t ht => ?_, fun t ht => ?_⟩
        · have := hin.within t ht
          omega
        · have := hle t ht
          omega
      refine ⟨List.forall_mem_cons.2 ⟨Nat.le_refl _, fun t ht => Nat.le_of_lt (hall t ht)⟩,
        List.pairwise_cons.2 ⟨hall, List.pairwise_append.2 ⟨hin.ordered, hord, fun a ha b hb => ?_⟩⟩⟩
      have := hin.within a ha
      have := hle b hb
      omega

/-- Sorting puts the markers of a layout in order. -/
theorem sortedSpans_layout (ps : List Piece) (pos : Nat) :
    sortedSpans (columnsAt pos ps ++ valuesAt pos ps) = (markersAt pos ps).map Token.span := by
  have hperm := (markersAt_perm pos ps).map Token.span
  have hsorted : (sortedSpans (columnsAt pos ps ++ valuesAt pos ps)).Pairwise
      fun a b => a.1 < b.1 ∨ a.1 = b.1 ∧ a.2 ≤ b.2 := by
    refine (List.pairwise_mergeSort (fun a b c => ?_) (fun a b => ?_) _).imp fun hab => by
      simpa using hab
    · simp only [Bool.or_eq_true, Bool.and_eq_true, decide_eq_true_eq]
      omega
    · simp only [Bool.or_eq_true, Bool.and_eq_true, decide_eq_true_eq]
      omega
  have hordered : ((markersAt pos ps).map Token.span).Pairwise
      fun a b => a.1 < b.1 ∨ a.1 = b.1 ∧ a.2 ≤ b.2 :=
    List.pairwise_map.2 ((markersAt_ordered ps pos).2.imp .inl)
  -- two orders of the same spans, both sorted, are the same
  refine ((List.mergeSort_perm _ _).trans hperm).eq_of_pairwise ?_ hsorted hordered
  intro a b _ _ hab hba
  exact Prod.ext (by omega) (by omega)

/-! ## Between the markers -/

/-- A run up to the next marker, or to the end. -/
theorem plainBySlices_run {before s rest : List Char} (hs : s ≠ []) {spans : List (Nat × Nat)}
    (h : (spans = [] ∧ rest = []) ∨
      ∃ span more, spans = span :: more ∧ span.1 = width (before ++ s) ∧ span.1 ≤ span.2) :
    plainBySlices (before ++ (s ++ rest)) (width before) spans =
      (plainBySlices (before ++ (s ++ rest)) (width (before ++ s)) spans).map ((width before, s) :: ·) := by
  have hpos := width_pos hs
  have hslice := slice?_between before s rest
  rw [Text.width_append] at h ⊢
  rcases h with ⟨rfl, rfl⟩ | ⟨span, more, rfl, hstart, hle⟩
  · have hend : width (before ++ (s ++ [])) = width before + width s := by
      rw [List.append_nil, Text.width_append]
    rw [plainBySlices, plainBySlices, hend, if_pos (by omega), if_neg (Nat.lt_irrefl _), hslice]
    rfl
  · -- the cursor goes on behind the marker, whether or not the run has been taken
    have hmax : max (width before) span.2 = max (width before + width s) span.2 := by omega
    rw [plainBySlices, plainBySlices, if_pos (by omega), if_neg (by omega), hstart, hslice, hmax]
    cases plainBySlices (before ++ (s ++ rest)) (max (width before + width s) span.2) more <;> rfl

/-- A marker at the cursor moves it to its end. -/
theorem plainBySlices_marker (q : List Char) {start stop : Nat} (h : start ≤ stop)
    (spans : List (Nat × Nat)) :
    plainBySlices q start ((start, stop) :: spans) = plainBySlices q stop spans := by
  rw [plainBySlices, if_neg (Nat.lt_irrefl _), Nat.max_eq_right h]

/-- Markers that lie behind the cursor change nothing. -/
theorem plainBySlices_passed (q : List Char) {cursor : Nat} {ts : List Token}
    (h : ∀ t ∈ ts, t.start < cursor ∧ t.stop ≤ cursor) (spans : List (Nat × Nat)) :
    plainBySlices q cursor (ts.map Token.span ++ spans) = plainBySlices q cursor spans := by
  induction ts with
  | nil => rfl
  | cons t ts ih =>
    obtain ⟨ht, hts⟩ := List.forall_mem_cons.1 h
    rw [List.map_cons, List.cons_append, Token.span, plainBySlices, if_neg (Nat.not_lt_of_gt ht.1),
      Nat.max_eq_left ht.2]
    exact ih hts

/-- Where no run stands in front, a marker does, or the text is at its end. -/
theorem markersAt_head {ps : List Piece} (h : ∀ t ps', ps ≠ .run t :: ps') (pos : Nat) :
    ((markersAt pos ps).map Token.span = [] ∧ written ps = []) ∨
      ∃ span more, (markersAt pos ps).map Token.span = span :: more ∧ span.1 = pos ∧ span.1 ≤ span.2 := by
  match ps with
  | [] => exact .inl ⟨rfl, rfl⟩
  | .run s :: ps => exact absurd rfl (h s ps)
  | .column name :: ps => exact .inr ⟨_, _, rfl, rfl, by simp only [Token.span]; omega⟩
  | .value literal :: ps => exact .inr ⟨_, _, rfl, rfl, by simp only [Token.span]; omega⟩

/-- What stands between the markers of a layout are its runs. -/
theorem plainBySlices_layout {ps : List Piece} (h : IsLayout ps) (before : List Char) :
    plainBySlices (before ++ written ps) (width before) ((markersAt (width before) ps).map Token.span) =
      some (runsAt (width before) ps) := by
  -- at each piece the cursor stands at its start, and the markers in front have been passed
  induction ps generalizing before with
  | nil =>
    rw [written_nil, List.append_nil]
    exact if_neg (Nat.lt_irrefl _)
  | cons p ps ih =>
    cases p with
    | run s =>
      obtain ⟨hne, _, hrun, _, hps⟩ := h
      have hrest := ih hps (before ++ s)
      rw [List.append_assoc] at hrest
      rw [written_cons, Piece.text, markersAt, ← Text.width_append,
        plainBySlices_run hne (markersAt_head hrun _), hrest, runsAt, Text.width_append]
      rfl
    | column name =>
      have hstop : width before + width name + 3 = width (before ++ (Piece.column name).text) := by
        rw [Text.width_append, width_column, Nat.add_assoc]
      have hrest := ih h.2 (before ++ (Piece.column name).text)
      rw [List.append_assoc, ← hstop] at hrest
      have hle : width before ≤ width before + width name + 3 := by omega
      rw [markersAt, List.map_cons, Token.span, plainBySlices_marker _ hle]
      exact hrest
    | value literal =>
      have hstop : width before + width literal + 2 = width (before ++ (Piece.value literal).text) := by
        rw [Text.width_append, width_value, Nat.add_assoc]
      have hrest := ih h.2 (before ++ (Piece.value literal).text)
      rw [List.append_assoc, ← hstop] at hrest
      -- the columns inside the literal lie behind the cursor when it has passed the literal
      have hpassed : ∀ t ∈ columnsIn (width before + 1) literal,
          t.start < width before + width literal + 2 ∧ t.stop ≤ width before + width literal + 2 := by
        intro t ht
        have := (foundBefore_columnsIn _ literal).within t ht
        omega
      have hle : width before ≤ width before + width literal + 2 := by omega
      rw [markersAt, List.map_cons, List.map_append, Token.span, plainBySlices_marker _ hle,
        plainBySlices_passed _ hpassed]
      exact hrest

/-! ## Words -/

/-- A word as the scans by slices have it. -/
def Word.entry (w : Word) : Nat × List Char := (w.start, w.text)

/-- The slices of a run at the spans of its words are the words. -/
theorem mapM_wordSpans (base : Nat) (gap front s : List Char) :
    (wordSpans (width front) s).mapM (fun span => do
      let word ← slice? (front ++ s) span.1 span.2
      return (base + span.1, word)) = some ((wordsFrom (base + width front) gap s).map Word.entry) := by
  -- on what is left of the run: a blank takes one character off it, a word may take several
  induction hn : s.length using Nat.strongRecOn generalizing gap front s with
  | ind n ih =>
    subst hn
    match s with
    | [] =>
      rw [wordSpans, wordsFrom]
      rfl
    | c :: s =>
      rw [wordSpans, wordsFrom]
      split
      · -- a blank belongs to the gap
        have hrest := ih s.length (by simp) (c :: gap) (front ++ [c]) s rfl
        rw [List.append_assoc, Text.width_append, ← Nat.add_assoc] at hrest
        exact hrest
      · obtain ⟨text, htext⟩ : ∃ text, text = c :: s.takeWhile (sameWord c) := ⟨_, rfl⟩
        have hs : c :: s = text ++ s.dropWhile (sameWord c) := by
          rw [htext, List.cons_append, List.takeWhile_append_dropWhile]
        have hstop : width front + c.utf8Size + width (s.takeWhile (sameWord c)) = width (front ++ text) := by
          rw [htext, Text.width_append, Text.width_cons, Nat.add_assoc]
        have hlen := (List.dropWhile_sublist (l := s) (sameWord c)).length_le
        have hrest := ih _ (Nat.lt_succ_of_le hlen) [] (front ++ text) (s.dropWhile (sameWord c)) rfl
        rw [List.append_assoc, ← hs] at hrest
        have hslice : slice? (front ++ c :: s) (width front) (width (front ++ text)) = some text := by
          rw [hs, Text.width_append]
          exact slice?_between ..
        dsimp only
        rw [← htext, hstop, List.mapM_cons, hslice, hrest, Text.width_append, Nat.add_assoc]
        rfl

theorem wordsBySlices_eq (run : Nat × List Char) :
    wordsBySlices run = some ((wordsFrom run.1 [] run.2).map Word.entry) :=
  mapM_wordSpans run.1 [] [] run.2

theorem plainWordsBySlices_layout {ps : List Piece} (h : IsLayout ps) :
    plainWordsBySlices (written ps) (sortedSpans (columnsAt 0 ps ++ valuesAt 0 ps)) =
      some ((wordsAt 0 ps).flatten.map Word.entry) := by
  have hruns := plainBySlices_layout h []
  rw [List.nil_append, Text.width_nil, ← sortedSpans_layout] at hruns
  have hwords : wordsBySlices = fun run => pure ((wordsFrom run.1 [] run.2).map Word.entry) :=
    funext wordsBySlices_eq
  rw [plainWordsBySlices, hruns, Option.bind_eq_bind, Option.bind_some, hwords, List.mapM_pure, wordsAt,
    List.map_flatten, List.map_map]
  rfl

/-! ## Operators -/

theorem trim_eq_nil_iff {s : List Char} : trim s = [] ↔ s.all isBlank = true := by
  rw [trim, Text.trimEnd, List.reverse_eq_nil_iff, List.dropWhile_eq_nil_iff, Text.trimStart]
  constructor
  · intro h
    -- what is left in front would have to start with a blank
    have hnil : s.dropWhile isBlank = [] := by
      by_contra hne
      have hhead := List.head_dropWhile_not isBlank hne
      rw [h _ (List.mem_reverse.2 (List.head_mem hne))] at hhead
      cases hhead
    exact List.all_eq_true.2 (List.dropWhile_eq_nil_iff.1 hnil)
  · intro h
    rw [List.dropWhile_eq_nil_iff.2 (List.all_eq_true.1 h), List.reverse_nil]
    exact List.forall_mem_nil _

/-- The scan for operators stands at a byte inside a run, in front of the words that are left of the run and
of those of later runs. Between two words of the run there are blanks only, but from no byte of the run does
a blank gap lead to a later one. -/
def InRun (q : List Char) (pos : Nat) (ws : List Word) (later : List (Nat × List Char)) : Prop :=
  ∃ before s after, q = before ++ (s ++ after) ∧ pos = width before ∧ Cover pos s ws ∧
    ∀ entry ∈ later.head?, ∀ front back, s = front ++ back →
      ∃ gap, slice? q (width (before ++ front)) entry.1 = some gap ∧ trim gap ≠ []

namespace InRun

variable {q : List Char} {pos : Nat} {w next : Word} {ws : List Word} {later : List (Nat × List Char)}

theorem tail (h : InRun q pos (w :: ws) later) : InRun q w.stop ws later := by
  obtain ⟨before, s, after, rfl, rfl, hcover, hlater⟩ := h
  cases hcover with
  | @cons _ rest _ _ hgap hstart hne hrest =>
    refine ⟨before ++ (w.gap ++ w.text), rest, after, by simp, ?_, hrest, ?_⟩
    · rw [Word.stop, hstart, Text.width_append, Text.width_append, Nat.add_assoc]
    · intro entry hentry front back hs
      have hgap := hlater entry hentry (w.gap ++ (w.text ++ front)) back (by simp [hs])
      simpa using hgap

/-- Both slices that are taken for an operator of two words. -/
theorem slices (h : InRun q pos (w :: next :: ws) later) :
    slice? q w.stop next.start = some next.gap ∧ trim next.gap = [] ∧
      slice? q w.start next.stop = some (w.text ++ next.gap ++ next.text) := by
  obtain ⟨before, s, after, rfl, rfl, hcover, _⟩ := h
  cases hcover with
  | @cons _ behind _ _ hgap hstart hne hrest =>
    cases hrest with
    | @cons _ rest _ _ hgap' hstart' hne' hrest' =>
      rw [Word.stop] at hstart'
      refine ⟨?_, trim_eq_nil_iff.2 hgap', ?_⟩
      · refine Text.slice?_eq_some_iff.2 ⟨before ++ (w.gap ++ w.text), next.text ++ (rest ++ after), ?_, ?_, ?_⟩
        · simp
        · rw [Word.stop, hstart, Text.width_append, Text.width_append, Nat.add_assoc]
        · rw [Word.stop, hstart']
      · refine Text.slice?_eq_some_iff.2 ⟨before ++ w.gap, rest ++ after, ?_, ?_, ?_⟩
        · simp
        · rw [hstart, Text.width_append]
        · rw [Word.stop, hstart', Text.width_append, Text.width_append]
          simp only [Nat.add_assoc]

/-- Behind the last word of a run the next gap is not blank. -/
theorem last {entry : Nat × List Char} (h : InRun q pos [w] (entry :: later)) :
    ∃ gap, slice? q w.stop entry.1 = some gap ∧ trim gap ≠ [] := by
  obtain ⟨before, s, after, rfl, rfl, hcover, hlater⟩ := h
  cases hcover with
  | @cons _ rest _ _ hgap hstart hne hrest =>
    have hstop : width (before ++ (w.gap ++ w.text)) = w.stop := by
      rw [Word.stop, hstart, Text.width_append, Text.width_append, Nat.add_assoc]
    rw [← hstop]
    exact hlater entry rfl (w.gap ++ w.text) rest (by simp)

end InRun

/-- The words of a run give what they give alone. -/
theorem operatorsBySlices_run {q : List Char} {pos : Nat} {ws : List Word}
    {later : List (Nat × List Char)} (h : InRun q pos ws later) :
    operatorsBySlices q (ws.map Word.entry ++ later) = (do
      let ts ← Sliced.ofExcept (operatorTokens ws)
      let us ← operatorsBySlices q later
      return ts ++ us) := by
  fun_induction operatorTokens ws generalizing pos with
  | case1 => exact (bind_pure _).symm
  | case2 w rest hconjunction ih =>
    rw [List.map_cons, List.cons_append, Word.entry, operatorsBySlices.eq_def]
    dsimp only
    rw [if_pos hconjunction]
    exact ih h.tail
  | case3 w hconjunction hnot =>
    -- `not` ends the run, but there may be an `in` at the start of the next one
    rw [List.map_cons, List.map_nil, List.singleton_append, Word.entry, operatorsBySlices.eq_def]
    dsimp only
    rw [if_neg hconjunction, if_pos hnot]
    cases later with
    | nil => rfl
    | cons entry later =>
      obtain ⟨gap, hgap, htrim⟩ := h.last
      rw [Word.stop] at hgap
      dsimp only
      split
      · rw [Sliced.lift_bind hgap, if_neg (by simpa using htrim)]
        rfl
      · rfl
  | case4 w hconjunction hnot next more hin ih =>
    -- between two words of one run the gap is blank, so the test of it changes nothing
    obtain ⟨hgap, htrim, htext⟩ := h.slices
    rw [Word.stop] at hgap htext
    rw [List.map_cons, List.map_cons, List.cons_append, List.cons_append, Word.entry, Word.entry,
      operatorsBySlices.eq_def]
    dsimp only
    rw [if_neg hconjunction, if_pos hnot, if_pos hin, Sliced.ofExcept_map_bind]
    rw [Sliced.lift_bind hgap, htrim, if_pos List.isEmpty_nil, Sliced.lift_bind htext, ih h.tail.tail]
    simp only [bind_assoc, pure_bind, List.cons_append]
    rfl
  | case5 w hconjunction hnot next more hin =>
    rw [List.map_cons, List.map_cons, List.cons_append, List.cons_append, Word.entry, Word.entry,
      operatorsBySlices.eq_def]
    dsimp only
    rw [if_neg hconjunction, if_pos hnot, if_neg hin]
    rfl
  | case6 w rest hconjunction hnot hop ih =>
    rw [List.map_cons, List.cons_append, Word.entry, operatorsBySlices.eq_def]
    dsimp only
    rw [if_neg hconjunction, if_neg hnot, if_pos hop, Sliced.ofExcept_map_bind, ih h.tail]
    simp only [bind_assoc, pure_bind, List.cons_append]
    rfl
  | case7 w rest hconjunction hnot hop =>
    rw [List.map_cons, List.cons_append, Word.entry, operatorsBySlices.eq_def]
    dsimp only
    rw [if_neg hconjunction, if_neg hnot, if_neg hop]
    rfl

/-! ### Words of a layout -/

/-- The words that cover a text start at places of it. -/
theorem Cover.place {pos : Nat} {s : List Char} {ws : List Word} (h : Cover pos s ws) :
    ∀ w ∈ ws, IsPlace pos s w.start := by
  induction h with
  | nil => exact fun w hw => (nomatch hw)
  | @cons pos rest w ws _ hstart _ _ ih =>
    refine List.forall_mem_cons.2 ⟨?_, fun u hu => ?_⟩
    · exact ⟨w.gap, w.text ++ rest, rfl, hstart⟩
    · refine .append_left w.gap (.append_left w.text ?_)
      rw [← hstart]
      exact ih u hu

theorem place_wordsAt (ps : List Piece) (pos : Nat) :
    ∀ w ∈ (wordsAt pos ps).flatten, IsPlace pos (written ps) w.start := by
  induction ps generalizing pos with
  | nil => exact fun w hw => (nomatch hw)
  | cons p ps ih =>
    intro w hw
    cases p with
    | run s =>
      rcases List.mem_append.1 hw with hw | hw
      · exact ((wordsFrom_covers s [] pos rfl).place w hw).append_right _
      · exact .append_left s (ih _ w hw)
    | column name =>
      refine .append_left _ ?_
      rw [width_column]
      exact ih _ w hw
    | value literal =>
      refine .append_left _ ?_
      rw [width_value]
      exact ih _ w hw

/-- A brace stands between the start of a marker and the words behind it. -/
theorem openBrace_in_front {ps : List Piece} (hrun : ∀ t ps', ps ≠ .run t :: ps') {pos : Nat} {w : Word}
    (hw : w ∈ (wordsAt pos ps).flatten) :
    ∃ front after, written ps = front ++ after ∧ w.start = pos + width front ∧ openBrace ∈ front := by
  match ps, hw with
  | .run s :: ps, _ => exact absurd rfl (hrun s ps)
  | .column name :: ps, hw =>
    obtain ⟨front, after, hwritten, hstart⟩ := place_wordsAt ps (pos + width name + 3) w hw
    refine ⟨(Piece.column name).text ++ front, after, by simp [hwritten], ?_, by simp [Piece.text]⟩
    rw [hstart, Text.width_append, width_column, Nat.add_assoc, Nat.add_assoc, Nat.add_assoc]
  | .value literal :: ps, hw =>
    obtain ⟨front, after, hwritten, hstart⟩ := place_wordsAt ps (pos + width literal + 2) w hw
    refine ⟨(Piece.value literal).text ++ front, after, by simp [hwritten], ?_, by simp [Piece.text]⟩
    rw [hstart, Text.width_append, width_value, Nat.add_assoc, Nat.add_assoc, Nat.add_assoc]

theorem inRun_wordsFrom {s : List Char} {ps : List Piece} (hrun : ∀ t ps', ps ≠ .run t :: ps')
    (before : List Char) :
    InRun (before ++ (s ++ written ps)) (width before) (wordsFrom (width before) [] s)
      ((wordsAt (width before + width s) ps).flatten.map Word.entry) := by
  refine ⟨before, s, written ps, rfl, rfl, wordsFrom_covers s [] _ rfl, ?_⟩
  -- the gap to a word of a later run has the brace of a marker in it
  intro entry hentry front back hs
  obtain ⟨w, hw, rfl⟩ := List.mem_map.1 (List.mem_of_mem_head? hentry)
  obtain ⟨marker, after, hwritten, hstart, hmem⟩ := openBrace_in_front hrun hw
  refine ⟨back ++ marker, Text.slice?_eq_some_iff.2 ⟨before ++ front, after, ?_, rfl, ?_⟩, ?_⟩
  · simp [hwritten, hs]
  · rw [Word.entry, hstart, hs]
    simp only [Text.width_append, Nat.add_assoc]
  · intro htrim
    have hblank := List.all_eq_true.1 (trim_eq_nil_iff.1 htrim) openBrace (List.mem_append_right _ hmem)
    cases hblank

/-- The operators come out of all words at once as they come out of each run. -/
theorem operatorsBySlices_layout {ps : List Piece} (h : IsLayout ps) (before : List Char) :
    operatorsBySlices (before ++ written ps) ((wordsAt (width before) ps).flatten.map Word.entry) =
      .ofExcept (((wordsAt (width before) ps).mapM operatorTokens).map List.flatten) := by
  induction ps generalizing before with
  | nil => rfl
  | cons p ps ih =>
    cases p with
    | run s =>
      obtain ⟨_, _, hrun, _, hps⟩ := h
      have hrest := ih hps (before ++ s)
      rw [List.append_assoc, Text.width_append] at hrest
      have hwords : wordsAt (width before) (.run s :: ps) =
        wordsFrom (width before) [] s :: wordsAt (width before + width s) ps := rfl
      rw [written_cons, Piece.text, hwords, List.flatten_cons, List.map_append,
        operatorsBySlices_run (inRun_wordsFrom hrun before), hrest, List.mapM_cons]
      -- the first run fails, or the others do, or both have operators
      cases operatorTokens (wordsFrom (width before) [] s) with
      | error e => rfl
      | ok ts => cases (wordsAt (width before + width s) ps).mapM operatorTokens <;> rfl
    | column name =>
      have hrest := ih h.2 (before ++ (Piece.column name).text)
      rw [List.append_assoc, Text.width_append, width_column, ← Nat.add_assoc] at hrest
      exact hrest
    | value literal =>
      have hrest := ih h.2 (before ++ (Piece.value literal).text)
      rw [List.append_assoc, Text.width_append, width_value, ← Nat.add_assoc] at hrest
      exact hrest

theorem conjunctionsAmong_eq (ws : List Word) :
    conjunctionsAmong (ws.map Word.entry) = conjunctionTokens ws := by
  rw [conjunctionsAmong, conjunctionTokens, List.filter_map, List.map_map]
  rfl

/-! ## Reading by slices -/

/-- Reading a query by slices gives what reading it gives: every slice is there. -/
theorem tokenizeBySlices_eq (query : String) : tokenizeBySlices query = .ofExcept (tokenize query) := by
  have hcolumns : scanBySlices query.toList (nextColumn query.toList) 0 =
      .ofExcept (scanColumns 0 query.toList) :=
    scanBySlices_eq (fun before rest => turn_nextColumn) (List.nil_append _)
  have hvalues : scanBySlices query.toList (nextValue query.toList) 0 =
      .ofExcept (scanValues 0 false query.toList) :=
    scanBySlices_eq (fun before rest => turn_nextValue) (List.nil_append _)
  rw [tokenizeBySlices, tokenize]
  dsimp only
  rw [hcolumns, hvalues]
  cases hc : scanColumns 0 query.toList with
  | error e => rfl
  | ok columns =>
    cases hv : scanValues 0 false query.toList with
    | error e => rfl
    | ok values =>
      -- where both scans end well, the query has a layout
      obtain ⟨ps, hps, hq, rfl, rfl⟩ := exists_layout_of_scans hc hv
      have hoperators := operatorsBySlices_layout hps []
      rw [List.nil_append, Text.width_nil] at hoperators
      rw [Sliced.ofExcept_ok_bind, Sliced.ofExcept_ok_bind, hq,
        Sliced.lift_bind (plainWordsBySlices_layout hps), hoperators, Sliced.ofExcept_map_bind,
        conjunctionsAmong_eq, ok_bind, ok_bind, plainWords_written hps]
      cases (wordsAt 0 ps).mapM operatorTokens with
      | error e => rfl
      | ok operators =>
        rw [Sliced.ofExcept_ok_bind, ok_bind]
        cases TokenStream.checkCounts _ <;> rfl

end RowFilter.Query
