import RowFilter.Calendar.Readers
import RowFilter.Proofs.Requests
import RowFilter.Proofs.RoundTrip

/-!
# RowFilter — walking the pages

A user who wants all matches asks for the first page, and then, as long as there is more, for the page
behind the last one. The offset of the next page is the sum of the offset and the limit of this one; it
is below the number of matches, so it never leaves the words.

Main results:

* `Page.slice_eq_take_drop` — a page holds the next matches, as many as there is room for.
* `Session.Walk.indices_eq_drop` — a walk from an offset gives all matches behind it.
* `Session.exists_walk` — a walk ends.
* `walk_covers` — the walk over the pages of a query gives every match once.
-/

namespace RowFilter

/-! ## One page -/

namespace Page

variable {t : Table} {offset limit : UInt64} {found : List Nat}

/-- As long as the matches can be counted in words, a page holds the next matches, as many as there is
room for. -/
theorem slice_eq_take_drop (h : found.length < wordBound) :
    slice offset limit found = (found.drop offset.toNat).take limit.toNat := by
  unfold slice stop maxWord
  by_cases hsum : offset.toNat + limit.toNat ≤ wordBound - 1
  · rw [Nat.min_eq_left hsum, List.drop_take, Nat.add_sub_cancel_left]
  · -- the sum has left the words, and all matches lie before it
    rw [Nat.min_eq_right (by omega), List.take_of_length_le (by omega), List.take_of_length_le]
    rw [List.length_drop]
    omega

theorem hasMore_cut_iff (h : found.length < wordBound) :
    (cut t offset limit found).hasMore = true ↔ offset.toNat + limit.toNat < found.length := by
  show decide (stop offset limit < found.length) = true ↔ _
  rw [decide_eq_true_iff]
  unfold stop maxWord
  omega

/-- A page that others follow is full. -/
theorem length_indices_of_hasMore (h : found.length < wordBound)
    (hmore : (cut t offset limit found).hasMore = true) :
    (cut t offset limit found).indices.length = limit.toNat := by
  have hlt := (hasMore_cut_iff h).1 hmore
  show (slice offset limit found).length = _
  rw [slice_eq_take_drop h, List.length_take, List.length_drop]
  omega

/-- Every match of a page has its row there, if the matches are rows of the table. -/
theorem rows_cut (h : ∀ i ∈ found, i < t.rows.length) :
    (cut t offset limit found).rows.map some = (cut t offset limit found).indices.map t.row? := by
  show ((slice offset limit found).filterMap t.row?).map some = (slice offset limit found).map t.row?
  have hslice : ∀ i ∈ slice offset limit found, i < t.rows.length := by
    intro i hi
    exact h i (List.mem_of_mem_take (List.mem_of_mem_drop hi))
  generalize slice offset limit found = is at hslice
  induction is with
  | nil => rfl
  | cons i is ih =>
    have hi : i < t.rows.length := hslice i List.mem_cons_self
    have hrow : t.row? i = some t.rows[i] := List.getElem?_eq_getElem hi
    rw [List.filterMap_cons, hrow, List.map_cons, List.map_cons, hrow,
      ih fun j hj => hslice j (List.mem_cons_of_mem i hj)]

end Page

/-! ## Walks -/

/-- The request for the page at an offset. -/
def Request.at (r : Request) (offset : UInt64) : Request := { r with offset }

namespace Session

variable [Calendar.Parsers]

/-- The pages that answer a request from an offset on: one page is asked for, and then, if there is
more, the pages behind it. -/
inductive Walk (s : Session) (r : Request) : UInt64 → List Page → Prop
  | last {offset : UInt64} {page : Page} (answer : (s.filter (r.at offset)).outcome = .ok page)
    (stop : page.hasMore = false) : Walk s r offset [page]
  | more {offset next : UInt64} {page : Page} {pages : List Page}
    (answer : (s.filter (r.at offset)).outcome = .ok page) (more : page.hasMore = true)
    (behind : next.toNat = offset.toNat + page.limit.toNat) (rest : Walk s r next pages) :
    Walk s r offset (page :: pages)

variable {s : Session} {r : Request} {offset : UInt64} {pages : List Page}

theorem Walk.ne_nil (h : s.Walk r offset pages) : pages ≠ [] := by
  cases h with
  | last => exact List.cons_ne_nil _ _
  | more => exact List.cons_ne_nil _ _

/-- There is one walk at most. -/
theorem Walk.unique {pages' : List Page} (h : s.Walk r offset pages) (h' : s.Walk r offset pages') :
    pages' = pages := by
  induction h generalizing pages' with
  | last answer stop =>
    cases h' with
    | last answer' =>
      rw [answer] at answer'
      rw [Except.ok.inj answer']
    | more answer' more' =>
      rw [answer] at answer'
      obtain rfl := Except.ok.inj answer'
      rw [stop] at more'
      cases more'
  | more answer more behind rest ih =>
    cases h' with
    | last answer' stop' =>
      rw [answer] at answer'
      obtain rfl := Except.ok.inj answer'
      rw [more] at stop'
      cases stop'
    | more answer' _ behind' rest' =>
      rw [answer] at answer'
      obtain rfl := Except.ok.inj answer'
      -- both go on at the same offset
      obtain rfl := UInt64.toNat_inj.1 (behind.trans behind'.symm)
      rw [ih rest']

/-- Only the last page says that there is no more. -/
theorem Walk.hasMore (h : s.Walk r offset pages) :
    (∀ p ∈ pages.dropLast, p.hasMore = true) ∧
      ∃ p, pages.getLast? = some p ∧ p.hasMore = false := by
  induction h with
  | last _ stop => exact ⟨fun p hp => (nomatch hp), _, rfl, stop⟩
  | more _ more _ rest ih =>
    obtain ⟨hfront, last, hlast, hstop⟩ := ih
    refine ⟨?_, last, ?_, hstop⟩
    · rw [List.dropLast_cons_of_ne_nil rest.ne_nil]
      exact List.forall_mem_cons.2 ⟨more, hfront⟩
    · rw [List.getLast?_cons, hlast]
      rfl

section Serving

-- the answers to a request whose query has the matches `found` in a table
variable {t : Table} {limit : UInt64} {found : List Nat}

/-- All pages of a walk are cut out of the same matches. -/
theorem Walk.eq_cut (hserve : ∀ o, (s.filter (r.at o)).outcome = .ok (Page.cut t o limit found))
    (h : s.Walk r offset pages) : ∀ p ∈ pages, ∃ o, p = Page.cut t o limit found := by
  have hpage : ∀ {o page}, (s.filter (r.at o)).outcome = .ok page → page = Page.cut t o limit found := by
    intro o page answer
    rw [hserve o] at answer
    exact (Except.ok.inj answer).symm
  induction h with
  | last answer _ => exact List.forall_mem_singleton.2 ⟨_, hpage answer⟩
  | more answer _ _ _ ih => exact List.forall_mem_cons.2 ⟨⟨_, hpage answer⟩, ih⟩

/-- A walk gives all matches from its offset on, in their order. -/
theorem Walk.indices_eq_drop
    (hserve : ∀ o, (s.filter (r.at o)).outcome = .ok (Page.cut t o limit found))
    (hwords : found.length < wordBound) (h : s.Walk r offset pages) :
    pages.flatMap Page.indices = found.drop offset.toNat := by
  induction h with
  | @last o page answer stop =>
    rw [hserve o] at answer
    obtain rfl := Except.ok.inj answer
    have hend : ¬ o.toNat + limit.toNat < found.length := by
      rw [← Page.hasMore_cut_iff hwords, stop]
      decide
    -- the page has room for all that is left
    show Page.slice o limit found ++ [] = _
    rw [List.append_nil, Page.slice_eq_take_drop hwords, List.take_of_length_le]
    rw [List.length_drop]
    omega
  | @more o next page pages answer _ hnext _ ih =>
    rw [hserve o] at answer
    obtain rfl := Except.ok.inj answer
    have hlimit : next.toNat = o.toNat + limit.toNat := hnext
    show Page.slice o limit found ++ pages.flatMap Page.indices = _
    rw [ih, Page.slice_eq_take_drop hwords, hlimit, ← List.drop_drop]
    exact List.take_append_drop _ _

/-- A walk ends, because each page is nearer to the last match. -/
theorem exists_walk (hserve : ∀ o, (s.filter (r.at o)).outcome = .ok (Page.cut t o limit found))
    (hwords : found.length < wordBound) (hlimit : limit ≠ 0) (offset : UInt64) :
    ∃ pages, s.Walk r offset pages := by
  have hpos : 0 < limit.toNat := by
    rcases Nat.eq_zero_or_pos limit.toNat with hzero | hpos
    · exact absurd (UInt64.toNat_inj.1 hzero) hlimit
    · exact hpos
  -- induction on the number of matches that are left
  generalize hleft : found.length - offset.toNat = left
  induction left using Nat.strongRecOn generalizing offset with
  | ind left ih =>
    cases hmore : (Page.cut t offset limit found).hasMore with
    | false => exact ⟨_, .last (hserve offset) hmore⟩
    | true =>
      have hlt := (Page.hasMore_cut_iff hwords).1 hmore
      -- the next offset is below the number of matches, so it is a word
      obtain ⟨next, hnext⟩ : ∃ next : UInt64, next.toNat = offset.toNat + limit.toNat :=
        ⟨_, UInt64.toNat_ofNat_of_lt (Nat.lt_trans hlt hwords)⟩
      obtain ⟨pages, hpages⟩ := ih (found.length - next.toNat) (by omega) next rfl
      exact ⟨_, .more (hserve offset) hmore hnext hpages⟩

end Serving

/-- Pages that show every match of a request once, in order, and each page but the last one in full. -/
structure ShowsAll (s : Session) (r : Request) (pages : List Page) : Prop where
  /-- The positions on the pages are those of the rows that the filter holds for. -/
  found : ∃ c t bs, (s.compile r.user r.dataset r.query).outcome = .ok c ∧
    s.datasets.load r.dataset = .ok t ∧ (c.mask t).outcome = .ok bs ∧
    (∀ i, i ∈ pages.flatMap Page.indices ↔ bs[i]? = some true) ∧
    ∀ p ∈ pages, p.rows.map some = p.indices.map t.row?
  increasing : (pages.flatMap Page.indices).Pairwise (· < ·)
  limit : ∀ p ∈ pages, s.limits.resolve r.limit p.offset = .ok p.limit
  full : ∀ p ∈ pages.dropLast, p.rows.length = p.limit.toNat
  bounded : ∀ p ∈ pages, p.rows.length ≤ s.limits.largest.toNat
  total : ∀ p ∈ pages, p.total = (pages.flatMap Page.indices).length
  more : ∀ p ∈ pages.dropLast, p.hasMore = true
  last : ∃ p, pages.getLast? = some p ∧ p.hasMore = false

/-- A walk from the first match on shows all matches. -/
theorem Walk.showsAll {c : Compiled} {t : Table} {bs : List Bool} {limit : UInt64}
    (hc : (s.compile r.user r.dataset r.query).outcome = .ok c)
    (ht : s.datasets.load r.dataset = .ok t) (hmask : (c.mask t).outcome = .ok bs)
    (hlimit : ∀ o, s.limits.resolve r.limit o = .ok limit)
    (hlargest : limit.toNat ≤ s.limits.largest.toNat)
    (hserve : ∀ o, (s.filter (r.at o)).outcome =
      .ok (Page.cut t o limit (Compiled.matchingFrom 0 bs)))
    (hwords : (Compiled.matchingFrom 0 bs).length < wordBound) (h : s.Walk r 0 pages) :
    s.ShowsAll r pages := by
  have hcut := h.eq_cut hserve
  have hindices : pages.flatMap Page.indices = Compiled.matchingFrom 0 bs :=
    h.indices_eq_drop hserve hwords
  -- the matches are rows of the table, so each of them has its row on its page
  have hrows : ∀ p ∈ pages, p.rows.map some = p.indices.map t.row? := by
    intro p hp
    obtain ⟨o, rfl⟩ := hcut p hp
    refine Page.rows_cut ?_
    intro i hi
    have hbound := (Compiled.matchingFrom_bounds hi).2
    rw [Compiled.length_mask hmask] at hbound
    omega
  have hlength : ∀ p ∈ pages, p.rows.length = p.indices.length := by
    intro p hp
    have hboth := congrArg List.length (hrows p hp)
    rwa [List.length_map, List.length_map] at hboth
  obtain ⟨hmore, hlast⟩ := h.hasMore
  refine ⟨⟨c, t, bs, hc, ht, hmask, ?_, hrows⟩, ?_, ?_, ?_, ?_, ?_, hmore, hlast⟩
  · intro i
    rw [hindices, Compiled.mem_matchingFrom, Nat.sub_zero]
    exact and_iff_right (Nat.zero_le i)
  · rw [hindices]
    exact Compiled.matchingFrom_pairwise 0 bs
  · intro p hp
    obtain ⟨o, rfl⟩ := hcut p hp
    exact hlimit o
  · intro p hp
    have hmem := (List.dropLast_sublist pages).mem hp
    have hmore' := hmore p hp
    rw [hlength p hmem]
    obtain ⟨o, rfl⟩ := hcut p hmem
    exact Page.length_indices_of_hasMore hwords hmore'
  · intro p hp
    rw [hlength p hp]
    obtain ⟨o, rfl⟩ := hcut p hp
    exact Nat.le_trans (Page.slice_length_le o limit _) hlargest
  · intro p hp
    rw [hindices]
    obtain ⟨o, rfl⟩ := hcut p hp
    rfl

end Session

/-- **Walking the pages.** With limits in order, and a request that is not for no rows: if the first page
is answered, and its number of matches fits a word, then asking for the page behind each page while there
is more comes to an end, in one way only, and shows every match once. -/
theorem walk_covers [Calendar.Parsers] {s : Session} (hs : s.limits.check = .ok ()) {r : Request}
    (hr : r.limit ≠ some 0) {first : Page} (h : (s.filter (r.at 0)).outcome = .ok first)
    (hwords : first.total < wordBound) :
    ∃ pages, s.Walk r 0 pages ∧ (∀ pages', s.Walk r 0 pages' → pages' = pages) ∧
      s.ShowsAll r pages := by
  obtain ⟨c, t, found, _, hc, ht, hfound, _, _, rfl⟩ := Session.filter_eq_ok h
  obtain ⟨limit, hpos, hlargest, hlimit⟩ := PageLimits.resolve_of_check hs hr
  rw [Compiled.outcome_matchingRows] at hfound
  obtain ⟨bs, hmask, rfl⟩ := map_eq_ok hfound
  -- the same matches answer the request at every offset
  have hserve : ∀ o, (s.filter (r.at o)).outcome =
      .ok (Page.cut t o limit (Compiled.matchingFrom 0 bs)) := by
    intro o
    refine Session.filter_of_matches hc ht ?_ (hlimit o) hpos
    rw [Compiled.outcome_matchingRows, hmask]
    rfl
  obtain ⟨pages, hwalk⟩ := Session.exists_walk hserve hwords hpos 0
  exact ⟨pages, hwalk, fun _ hwalk' => hwalk.unique hwalk',
    hwalk.showsAll hc ht hmask hlimit hlargest hserve hwords⟩

/-- Three rows on pages of two, for a request of fifty. -/
theorem walk_covers_clamped :
    let table : Table := .of ["age"] [[.int 1], [.int 2], [.int 3]]
    let s : Session := .ofCatalog ⟨[("people", ⟨table, none⟩)]⟩ .empty ⟨1, 2⟩
    let query := Query.render (.leaf ⟨"age", 0, .notNull, none⟩)
    let r : Request := ⟨"u", "people", query, 0, some 50⟩
    s.limits.check = .ok () ∧ r.limit ≠ some 0 ∧
      ∃ first, (s.filter (r.at 0)).outcome = .ok first ∧ first.total < wordBound ∧
        ∃ pages, s.Walk r 0 pages ∧ (∀ pages', s.Walk r 0 pages' → pages' = pages) ∧
          s.ShowsAll r pages := by
  intro table s query r
  have hs : s.limits.check = .ok () := rfl
  have hr : r.limit ≠ some 0 := by decide
  have hparse : Query.parse query = .ok (.leaf ⟨"age", 0, .notNull, none⟩) :=
    Query.parse_render_eq (by decide +kernel) (by decide +kernel)
  have hc : (s.compile r.user r.dataset r.query).outcome =
      .ok ⟨query, .leaf ⟨"age", .integer, .notNull, .none, none, 0⟩⟩ := by
    show (s.compile r.user r.dataset query).outcome = _
    rw [Session.compile, hparse]
    rfl
  have hfirst : (s.filter (r.at 0)).outcome = .ok (Page.cut table 0 2 [0, 1, 2]) :=
    Session.filter_of_matches hc rfl rfl rfl (by decide)
  exact ⟨hs, hr, _, hfirst, by decide, walk_covers hs hr hfirst (by decide)⟩

end RowFilter
