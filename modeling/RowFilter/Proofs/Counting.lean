import RowFilter.Calendar.Readers
import RowFilter.Proofs.ErrorKinds
import RowFilter.Proofs.Requests
import RowFilter.Proofs.RoundTrip

/-!
# RowFilter — counting and paging

A count and a page come from two paths of their own, and the one with pages has checks that the other has
not. Once a request gets a limit of at least one row, these checks have nothing left to refuse: the two
fail alike, and a page tells the number that the count gives. Since a count knows of no page, neither
depends on where the page begins or how many rows it holds.

Main results:

* `Session.outcome_total` — the total of a page is the count, and so is what takes its place.
* `Session.total_of_same` — requests that differ in their pages only have one total.
* `count_and_filter_agree` — errors and totals of pages, against the count.
-/

namespace RowFilter

/-- Requests for one thing, maybe for different pages of it. -/
structure Request.SameQuestion (r r' : Request) : Prop where
  user : r.user = r'.user
  dataset : r.dataset = r'.dataset
  query : r.query = r'.query

namespace Session

variable {s : Session} {r r' : Request}

/-- The limit that a request gets leaves room for a row. -/
def Grants (s : Session) (r : Request) : Prop :=
  ∃ limit, s.limits.resolve r.limit r.offset = .ok limit ∧ limit ≠ 0

/-- The total of a page is the count, and an error in its place is the error of the count. -/
theorem outcome_total [Calendar.Parsers] (h : s.Grants r) :
    (s.filter r).outcome.map Page.total = (s.count r.user r.dataset r.query).outcome := by
  obtain ⟨limit, hlimit, hpos⟩ := h
  rw [outcome_count]
  -- both go through the compilation, the table and the rows, in this order
  cases hc : (s.compile r.user r.dataset r.query).outcome with
  | error err =>
    rw [outcome_filter, hlimit, hc]
    rfl
  | ok c =>
    cases ht : s.datasets.load r.dataset with
    | error err =>
      rw [outcome_filter, hlimit, hc, ht]
      rfl
    | ok t =>
      rw [outcome_filter_of_compile hlimit hpos hc ht, map_map]
      show _ = (c.matchingRows t).outcome >>= fun found => return found.length
      cases (c.matchingRows t).outcome <;> rfl

/-- Where the page begins and how long it is decides neither the total nor the error. -/
theorem total_of_same [Calendar.Parsers] (h : r.SameQuestion r') (hr : s.Grants r) (hr' : s.Grants r') :
    (s.filter r).outcome.map Page.total = (s.filter r').outcome.map Page.total := by
  rw [outcome_total hr, outcome_total hr', h.user, h.dataset, h.query]

end Session

/-- **Counting and paging agree.** A request that gets a limit of at least one row fails just if the count
fails, with the same error, and gets a page with the count as its total just if the count gives it, at
every offset. So requests that ask the same for different pages all fail with one error or all have one
total. A request with the limit zero is refused with its offset, whatever else there is. -/
theorem count_and_filter_agree [Calendar.Parsers] (s : Session) :
    (∀ r, s.Grants r →
      (∀ err, (s.filter r).outcome = .error err ↔
        (s.count r.user r.dataset r.query).outcome = .error err) ∧
      ∀ n, (s.count r.user r.dataset r.query).outcome = .ok n ↔
        ∃ page, (s.filter r).outcome = .ok page ∧ page.total = n) ∧
    (∀ r r', r.SameQuestion r' → s.Grants r → s.Grants r' →
      (∀ err, (s.filter r).outcome = .error err ↔ (s.filter r').outcome = .error err) ∧
      ∀ page, (s.filter r).outcome = .ok page →
        ∃ page', (s.filter r').outcome = .ok page' ∧ page'.total = page.total) ∧
    ∀ r : Request, r.limit = some 0 →
      (s.filter r).outcome = .error (.invalidPagination r.offset 0) := by
  refine ⟨?_, ?_, fun r hr => s.filter_of_limit_zero r hr⟩
  · intro r hr
    rw [← Session.outcome_total hr]
    refine ⟨fun err => map_eq_error_iff.symm, fun n => ⟨map_eq_ok, ?_⟩⟩
    rintro ⟨page, hpage, rfl⟩
    rw [hpage]
    rfl
  · intro r r' hsame hr hr'
    have htotal := Session.total_of_same hsame hr hr'
    constructor
    · intro err
      rw [← map_eq_error_iff (f := Page.total), htotal, map_eq_error_iff]
    · intro page hpage
      rw [hpage] at htotal
      exact map_eq_ok htotal.symm

/-- The second row cannot be compared, and fails a page far behind both rows as it fails the count. A
request for no rows does not even have its query read. -/
theorem count_and_filter_agree_far :
    let t : Table := .of ["age"] [[.int 0], [.int 3]]
    let s := Session.ofCatalog ⟨[("people", ⟨t, none⟩)]⟩ .empty .usual
    let source := "#\x7bage\x7d between \x7b1, x\x7d"
    let p : Predicate := ⟨"age", .integer, .between, .range (.int 1) (.text "x"), some "1, x", 0⟩
    let far : Request := ⟨"u", "people", source, 18446744073709551615, some 1⟩
    s.Grants far ∧
      (s.count "u" "people" source).outcome = .error (.evaluation p (.unordered (.int 3) (.text "x"))) ∧
      (s.filter far).outcome = .error (.evaluation p (.unordered (.int 3) (.text "x"))) ∧
      (s.filter ⟨"u", "nothing", ")", 7, some 0⟩).outcome = .error (.invalidPagination 7 0) := by
  intro t s source p far
  have hparse : Query.parse source = .ok (.leaf ⟨"age", 0, .between, some "1, x"⟩) := by
    have hsource : source = Query.render (.leaf ⟨"age", 0, .between, some "1, x"⟩) := by
      decide +kernel
    rw [hsource, Query.parse_render_eq (by decide +kernel) (by decide +kernel)]
    rfl
  have hcompile : (s.compile "u" "people" source).outcome = .ok ⟨source, .leaf p⟩ := by
    rw [Session.outcome_compile, hparse]
    rfl
  have hcount : (s.count "u" "people" source).outcome =
      .error (.evaluation p (.unordered (.int 3) (.text "x"))) := by
    rw [Session.outcome_count_of_compile hcompile (t := t) rfl]
    rfl
  have hfar : s.Grants far := ⟨1, rfl, by decide⟩
  obtain ⟨hagree, _, hzero⟩ := count_and_filter_agree s
  exact ⟨hfar, hcount, ((hagree far hfar).1 _).2 hcount, hzero _ rfl⟩

end RowFilter
