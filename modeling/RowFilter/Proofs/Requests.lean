import RowFilter.Proofs.Matches
import RowFilter.Session

/-!
# RowFilter — answers to requests

What a session answers, without what it reports on the way: a page is cut out of the matches of the
compiled query in the loaded table, and a count is their number.

Main results:

* `Session.outcome_filter`, `Session.outcome_count` — the order of the work on a request.
* `Session.outcome_filter_of_compile`, `Session.outcome_count_of_compile` — the answers of a query that
  compiles.
* `Session.filter_eq_ok` — what a page was cut out of.
* `PageLimits.resolve_of_check` — with limits in order a request for rows gets a limit.
-/

namespace RowFilter

/-! ## Limits -/

namespace PageLimits

theorem outcome_resolveTraced (l : PageLimits) (requested : Option UInt64) (offset : UInt64) :
    (l.resolveTraced requested offset).outcome = l.resolve requested offset := by
  rw [resolveTraced, Traced.outcome_bind, Traced.outcome_ofExcept]
  cases l.resolve requested offset with
  | error err => rfl
  | ok granted =>
    cases requested with
    | none => rfl
    | some n =>
      -- a report that a limit was cut does not change it
      by_cases hn : l.largest < n
      · simp [hn]
        rfl
      · simp [hn]
        rfl

/-- With limits in order, a request that is not for no rows gets a positive limit, at any offset. -/
theorem resolve_of_check {l : PageLimits} {requested : Option UInt64} (h : l.check = .ok ())
    (hr : requested ≠ some 0) :
    ∃ n, n ≠ 0 ∧ n.toNat ≤ l.largest.toNat ∧ ∀ offset, l.resolve requested offset = .ok n := by
  obtain ⟨hstandard, hlargest, horder⟩ := (check_ok_iff l).1 h
  have hresolve : ∃ n, n ≠ 0 ∧ ∀ offset, l.resolve requested offset = .ok n := by
    cases requested with
    | none => exact ⟨l.standard, hstandard, fun _ => rfl⟩
    | some n =>
      have hn : n ≠ 0 := fun h => hr (congrArg some h)
      refine ⟨if l.largest < n then l.largest else n, ?_, ?_⟩
      · split
        · exact hlargest
        · exact hn
      · intro offset
        rw [resolve, if_neg hn]
  obtain ⟨n, hn, hall⟩ := hresolve
  exact ⟨n, hn, UInt64.not_lt.1 (resolve_le horder (hall 0)), hall⟩

end PageLimits

/-! ## Pages -/

namespace Page

theorem outcome_run (c : Compiled) (t : Table) (offset limit : UInt64) :
    (run c t offset limit).outcome = (do
      checkLimit offset limit
      let found ← (c.matchingRows t).outcome
      return cut t offset limit found) := by
  rw [run, Traced.outcome_bind, Traced.outcome_ofExcept]
  congr 1
  funext _
  rw [Traced.outcome_bind]
  congr 1

end Page

/-! ## Requests -/

namespace Session

variable [Calendar.Parsers]

/-- The work on a request, in its order. -/
theorem outcome_filter (s : Session) (r : Request) :
    (s.filter r).outcome = (do
      let limit ← s.limits.resolve r.limit r.offset
      let c ← (s.compile r.user r.dataset r.query).outcome
      let t ← s.datasets.load r.dataset
      Page.checkLimit r.offset limit
      let found ← (c.matchingRows t).outcome
      return Page.cut t r.offset limit found) := by
  rw [filter, Traced.outcome_bind, PageLimits.outcome_resolveTraced]
  congr 1
  funext limit
  rw [Traced.outcome_bind]
  congr 1
  funext c
  rw [Traced.outcome_bind, Traced.outcome_ofExcept]
  congr 1
  funext t
  rw [Traced.outcome_bind, Page.outcome_run]
  -- nothing but a report follows the page
  exact bind_pure _

theorem outcome_count (s : Session) (user dataset source : String) :
    (s.count user dataset source).outcome = (do
      let c ← (s.compile user dataset source).outcome
      let t ← s.datasets.load dataset
      let found ← (c.matchingRows t).outcome
      return found.length) := by
  rw [count, Traced.outcome_bind]
  congr 1
  funext c
  rw [Traced.outcome_bind, Traced.outcome_ofExcept]
  congr 1
  funext t
  rw [Traced.outcome_bind]
  congr 1

/-- A page is cut out of the matches, with room for at least one row. -/
theorem filter_eq_ok {s : Session} {r : Request} {page : Page} (h : (s.filter r).outcome = .ok page) :
    ∃ c t found limit, (s.compile r.user r.dataset r.query).outcome = .ok c ∧
      s.datasets.load r.dataset = .ok t ∧ (c.matchingRows t).outcome = .ok found ∧
      s.limits.resolve r.limit r.offset = .ok limit ∧ limit ≠ 0 ∧
      page = Page.cut t r.offset limit found := by
  rw [outcome_filter] at h
  obtain ⟨limit, hlimit, h⟩ := bind_eq_ok h
  obtain ⟨c, hc, h⟩ := bind_eq_ok h
  obtain ⟨t, ht, h⟩ := bind_eq_ok h
  obtain ⟨_, hcheck, h⟩ := bind_eq_ok h
  obtain ⟨found, hfound, h⟩ := bind_eq_ok h
  refine ⟨c, t, found, limit, hc, ht, hfound, hlimit, ?_, (Except.ok.inj h).symm⟩
  intro hzero
  rw [Page.checkLimit, if_pos hzero] at hcheck
  cases hcheck

/-- With a limit, a compiled query and a table, a request is answered from the matches. -/
theorem outcome_filter_of_compile {s : Session} {r : Request} {c : Compiled} {t : Table} {limit : UInt64}
    (hlimit : s.limits.resolve r.limit r.offset = .ok limit) (hpos : limit ≠ 0)
    (hc : (s.compile r.user r.dataset r.query).outcome = .ok c)
    (ht : s.datasets.load r.dataset = .ok t) :
    (s.filter r).outcome = (c.matchingRows t).outcome.map (Page.cut t r.offset limit) := by
  have hcheck : Page.checkLimit r.offset limit = .ok () := by rw [Page.checkLimit, if_neg hpos]
  rw [outcome_filter, hlimit, hc, ht]
  show (do
    Page.checkLimit r.offset limit
    let found ← (c.matchingRows t).outcome
    return Page.cut t r.offset limit found) = _
  rw [hcheck]
  cases (c.matchingRows t).outcome <;> rfl

theorem outcome_count_of_compile {s : Session} {user dataset source : String} {c : Compiled} {t : Table}
    (hc : (s.compile user dataset source).outcome = .ok c) (ht : s.datasets.load dataset = .ok t) :
    (s.count user dataset source).outcome = (c.matchingRows t).outcome.map List.length := by
  rw [outcome_count, hc, ht]
  show ((c.matchingRows t).outcome >>= fun found => return found.length) = _
  cases (c.matchingRows t).outcome <;> rfl

/-- A request whose query has matches is answered by a page of them. -/
theorem filter_of_matches {s : Session} {r : Request} {c : Compiled} {t : Table} {found : List Nat}
    {limit : UInt64} (hc : (s.compile r.user r.dataset r.query).outcome = .ok c)
    (ht : s.datasets.load r.dataset = .ok t) (hfound : (c.matchingRows t).outcome = .ok found)
    (hlimit : s.limits.resolve r.limit r.offset = .ok limit) (hpos : limit ≠ 0) :
    (s.filter r).outcome = .ok (Page.cut t r.offset limit found) := by
  rw [outcome_filter_of_compile hlimit hpos hc ht, hfound]
  rfl

end Session

end RowFilter
