import RowFilter.Proofs.PageWalk
import RowFilter.Proofs.TableShape

/-!
# RowFilter — what a page is cut out of

A page of a filter is described row by row. A request without room for a row is refused before the filter
is looked at; a filter with a column that the table lacks is refused for it; and a filter that fails on a
row fails the page, wherever that row is. Otherwise the rows that the filter holds for are counted, and
those behind the offset are shown as far as there is room.

Main results:

* `Evaluator.areMatches_matchingFrom` — the matches are the positions of the rows that the filter holds for.
* `Page.shows_cut`, `Page.isCutAt_cutTraced` — what a page shows, and the bounds that it is cut at.
* `page_outcome_determined` — the answer to a request for a page, in all cases.
-/

namespace RowFilter

/-! ## Matches -/

namespace Evaluator

variable {e : Evaluator} {t : Table}

/-- The positions of the rows that a filter holds for, in increasing order. -/
structure AreMatches (e : Evaluator) (t : Table) (found : List Nat) : Prop where
  increasing : found.Pairwise (· < ·)
  mem_iff : ∀ i, i ∈ found ↔ ∃ row, t.row? i = some row ∧ (e.holds row).Answers (.ok true)

theorem areMatches_matchingFrom {bs : List Bool} (h : t.rows.mapM e.verdict = .ok bs) :
    e.AreMatches t (Compiled.matchingFrom 0 bs) := by
  refine ⟨Compiled.matchingFrom_pairwise 0 bs, ?_⟩
  intro i
  rw [Compiled.mem_matchingFrom, Nat.sub_zero, and_iff_right (Nat.zero_le i),
    getElem?_eq_some_iff_of_mapM h]
  simp only [answers_holds_iff]
  rfl

theorem AreMatches.lt_length {found : List Nat} (h : e.AreMatches t found) {i : Nat}
    (hi : i ∈ found) : i < t.rows.length := by
  obtain ⟨row, hrow, _⟩ := (h.mem_iff i).1 hi
  exact (List.getElem?_eq_some_iff.1 hrow).1

end Evaluator

/-! ## Pages -/

namespace Page

variable {c : Compiled} {t : Table} {offset limit : UInt64} {found : List Nat} {page : Page}

/-- The page shows the matches behind the offset, as far as there is room, with their rows. -/
structure Shows (t : Table) (offset limit : UInt64) (found : List Nat) (page : Page) : Prop where
  columns : page.columns = t.columns
  asked : page.offset = offset ∧ page.limit = limit
  total : page.total = found.length
  indices : page.indices = (found.drop offset.toNat).take limit.toNat
  rows : page.rows.map some = page.indices.map t.row?
  size : page.rows.length = page.indices.length
  more : page.hasMore = true ↔ offset.toNat + limit.toNat < page.total

theorem shows_cut (hwords : found.length < wordBound) (hrows : ∀ i ∈ found, i < t.rows.length) :
    Shows t offset limit found (cut t offset limit found) := by
  have hcut : (cut t offset limit found).rows.map some =
      (cut t offset limit found).indices.map t.row? := rows_cut hrows
  have hsize := congrArg List.length hcut
  rw [List.length_map, List.length_map] at hsize
  exact ⟨rfl, ⟨rfl, rfl⟩, rfl, slice_eq_take_drop hwords, hcut, hsize, hasMore_cut_iff hwords⟩

/-- The bounds that were reported are in order and inside the matches, and the page was cut at them. -/
def IsCutAt (found : List Nat) (page : Page) (events : List Event) : Prop :=
  ∃ first stop, .pageCut first stop found.length ∈ events ∧ first ≤ stop ∧ stop ≤ found.length ∧
    page.indices = (found.take stop).drop first

theorem isCutAt_cutTraced (t : Table) (offset limit : UInt64) (found : List Nat) :
    IsCutAt found (cut t offset limit found) (cutTraced t offset limit found).events := by
  -- the offset is a word, so it is not behind the end even where the sum is clamped
  have hoffset : offset.toNat ≤ stop offset limit := by
    have hword := offset.toNat_lt
    unfold stop maxWord wordBound
    omega
  refine ⟨min offset.toNat found.length, min (stop offset limit) found.length,
    Traced.mem_events_bind_left (List.mem_singleton_self _), by omega, Nat.min_le_right _ _, ?_⟩
  show (found.take (stop offset limit)).drop offset.toNat = _
  rw [← List.take_eq_take_min]
  by_cases hbehind : offset.toNat ≤ found.length
  · rw [Nat.min_eq_left hbehind]
  · -- an offset behind the last match leaves nothing, wherever the cut is made
    rw [List.drop_eq_nil_of_le, List.drop_eq_nil_of_le]
    · rw [List.length_take]
      omega
    · rw [List.length_take]
      omega

/-- The answer to a request for a page: which of the four it is, and what it says. -/
inductive Answered (c : Compiled) (t : Table) (offset limit : UInt64) (x : Traced Page) : Prop
  /-- There is no room for a row; nothing else is looked at. -/
  | noRoom (h : limit = 0) (answer : x = .ofExcept (.error (.invalidPagination offset 0)))
  /-- The table lacks a column of the filter; the first one is reported. -/
  | missing (room : limit ≠ 0) {p : Predicate}
    (first : IsFirst (fun p => t.columnIndex? p.column = none) c.predicates p)
    (answer : x.outcome = .error (.columnNotFound p.column))
  /-- The filter fails on some rows; the error is that of the first one. -/
  | failed (room : limit ≠ 0) {e : Evaluator} (evaluator : Evaluator.new t.places c = .ok e) {row : Row}
    {err : FilterError}
    (first : IsFirst (fun row => ∃ err, (e.holds row).Answers (.error err)) t.rows row)
    (fails : (e.holds row).Answers (.error err)) (answer : x.outcome = .error err)
  /-- The filter has an answer for every row. -/
  | shown (room : limit ≠ 0) {e : Evaluator} (evaluator : Evaluator.new t.places c = .ok e)
    (answers : ∀ row ∈ t.rows, ∃ b, (e.holds row).Answers (.ok b)) {found : List Nat}
    (isFound : e.AreMatches t found) {page : Page} (answer : x.outcome = .ok page)
    (shows : Shows t offset limit found page) (cut : IsCutAt found page x.events)

/-- With room for a row, a page is cut out of the matches. -/
theorem run_of_room (room : limit ≠ 0) (c : Compiled) (t : Table) (offset : UInt64) :
    run c t offset limit = c.matchingRows t >>= cutTraced t offset limit := by
  rw [run, checkLimit, if_neg room]
  exact Traced.ext (List.nil_append _) rfl

theorem outcome_run_of_mask_error (room : limit ≠ 0) {err : FilterError}
    (h : (c.mask t).outcome = .error err) : (run c t offset limit).outcome = .error err := by
  rw [run_of_room room, Traced.outcome_bind, Compiled.outcome_matchingRows, h]
  rfl

theorem outcome_mask_of_new {e : Evaluator} (hnew : Evaluator.new t.places c = .ok e) :
    (c.mask t).outcome = t.rows.mapM e.verdict := by
  rw [Compiled.outcome_mask, hnew]
  rfl

/-- A filter with an answer for every row is answered by a page of its matches. -/
theorem answered_of_mapM_eq_ok (hwords : t.rows.length < wordBound) (room : limit ≠ 0) {e : Evaluator}
    (hnew : Evaluator.new t.places c = .ok e) {bs : List Bool} (hbs : t.rows.mapM e.verdict = .ok bs)
    (offset : UInt64) : Answered c t offset limit (run c t offset limit) := by
  have hfound := Evaluator.areMatches_matchingFrom hbs
  have hlength : (Compiled.matchingFrom 0 bs).length ≤ t.rows.length := by
    rw [← length_of_mapM_eq_ok hbs]
    exact Compiled.length_matchingFrom_le 0 bs
  have hmatches : (c.matchingRows t).outcome = .ok (Compiled.matchingFrom 0 bs) := by
    rw [Compiled.outcome_matchingRows, outcome_mask_of_new hnew, hbs]
    rfl
  have hanswers : ∀ row ∈ t.rows, ∃ b, (e.holds row).Answers (.ok b) := by
    intro row hrow
    obtain ⟨i, hi⟩ := List.mem_iff_getElem?.1 hrow
    have hplace := getElem?_of_mapM_eq_ok hbs i
    rw [hi, Option.map_some, eq_comm, Option.map_eq_some_iff] at hplace
    obtain ⟨b, _, hb⟩ := hplace
    exact ⟨b, Evaluator.answers_holds_iff.2 hb.symm⟩
  have hrun : (run c t offset limit).outcome = .ok (cut t offset limit (Compiled.matchingFrom 0 bs)) := by
    rw [run_of_room room, Traced.outcome_bind, hmatches]
    rfl
  refine .shown room hnew hanswers hfound hrun ?_ ?_
  · exact shows_cut (Nat.lt_of_le_of_lt hlength hwords) fun _ => hfound.lt_length
  · -- what the cut reports is reported by the whole
    obtain ⟨first, stop, hevent, hbounds⟩ := isCutAt_cutTraced t offset limit (Compiled.matchingFrom 0 bs)
    rw [run_of_room room]
    exact ⟨first, stop, Traced.mem_events_bind_right hmatches hevent, hbounds⟩

end Page

/-- **Pages against the rows.** For a table whose rows can be counted in words, a request for a page is
refused if it has no room for a row; otherwise it fails for the first column of the filter that the table
lacks, or else with the error of the first row that the filter fails on. In all other cases the page counts
the rows that the filter holds for, shows those behind the offset as far as there is room, and tells
whether there are more of them; the bounds that it is cut at are in order and inside the matches. -/
theorem page_outcome_determined (c : Compiled) {t : Table} (h : t.rows.length < wordBound)
    (offset limit : UInt64) : Page.Answered c t offset limit (Page.run c t offset limit) := by
  by_cases room : limit = 0
  · refine .noRoom room ?_
    rw [Page.run, Page.checkLimit, if_pos room, room]
    rfl
  · cases hnew : Evaluator.new t.places c with
    | error err =>
      obtain ⟨p, hfirst, rfl⟩ := Evaluator.new_eq_error_iff.1 hnew
      refine .missing room hfirst (Page.outcome_run_of_mask_error room ?_)
      rw [Compiled.outcome_mask, hnew]
      rfl
    | ok e =>
      cases hbs : t.rows.mapM e.verdict with
      | error err =>
        obtain ⟨row, hfirst, hfails⟩ := isFirst_of_mapM_eq_error hbs
        simp only [← Evaluator.answers_holds_iff] at hfirst hfails
        have hmask := (Page.outcome_mask_of_new hnew).trans hbs
        exact .failed room hnew hfirst hfails (Page.outcome_run_of_mask_error room hmask)
      | ok bs => exact Page.answered_of_mapM_eq_ok h room hnew hbs offset

/-- The sum of the offset and the limit has left the words, and the page is empty; a row that the filter
fails on fails a page that begins behind it. -/
theorem page_outcome_determined_far :
    let t : Table := .of ["age"] [[.int 1], [.int 3]]
    let found : Compiled := ⟨"", .leaf ⟨"age", .integer, .notNull, .none, none, 0⟩⟩
    let p : Predicate := ⟨"age", .integer, .between, .range (.int 3) (.text "x"), some "3, x", 0⟩
    let clashing : Compiled := ⟨"", .leaf p⟩
    let far : UInt64 := 18446744073709551615
    t.rows.length < wordBound ∧
      (Page.run found t far 2).outcome = .ok ⟨["age"], [], [], 2, far, 2, false⟩ ∧
      Page.Answered found t far 2 (Page.run found t far 2) ∧
      (Page.run clashing t far 2).outcome =
        .error (.evaluation p (.unordered (.int 3) (.text "x"))) ∧
      Page.Answered clashing t far 2 (Page.run clashing t far 2) := by
  intro t found p clashing far
  have hrows : t.rows.length < wordBound := by decide
  exact ⟨hrows, rfl, page_outcome_determined found hrows far 2, rfl,
    page_outcome_determined clashing hrows far 2⟩

end RowFilter
