import RowFilter.Evaluate

/-!
# RowFilter — pages of matching rows

A filter is applied to every row of a table, so the number of matches is always exact, and the first row
that has no answer fails the whole. One page is then cut out of the matches: some are skipped, and at
most `limit` are kept. Offsets and limits are 64-bit words; where their sum leaves the words it stays at
the largest one.

Main results:

* `Compiled.outcome_mask` — a mask is the answers of the filter, row by row.
* `Compiled.matchingFrom_bounds`, `Compiled.matchingFrom_pairwise` — the matches are positions in the mask,
  in increasing order.
* `Page.slice_length_le` — a page holds at most `limit` matches.
-/

namespace RowFilter

namespace Compiled

/-- The answer for every row of a table. -/
def mask (c : Compiled) (t : Table) : Traced (List Bool) := do
  let e ← Traced.ofExcept (Evaluator.new t.places c)
  (t.rows.mapM e.holds).traced

theorem outcome_mask (c : Compiled) (t : Table) :
    (c.mask t).outcome = Evaluator.new t.places c >>= fun e => t.rows.mapM e.verdict := by
  simp only [mask, Traced.outcome_bind, Traced.outcome_ofExcept]
  congr 1
  funext e
  exact Noticing.outcome_traced (Noticing.answers_mapM e.answers_holds t.rows)

/-- The positions of a mask that hold, from `index` on. -/
def matchingFrom (index : Nat) : List Bool → List Nat
  | [] => []
  | b :: bs => if b then index :: matchingFrom (index + 1) bs else matchingFrom (index + 1) bs

theorem matchingFrom_bounds {index : Nat} {bs : List Bool} {i : Nat}
    (h : i ∈ matchingFrom index bs) : index ≤ i ∧ i < index + bs.length := by
  induction bs generalizing index with
  | nil => simp [matchingFrom] at h
  | cons b bs ih =>
    unfold matchingFrom at h
    split at h
    · rcases List.mem_cons.1 h with rfl | h
      · simp
      · have := ih h
        simp only [List.length_cons]
        omega
    · have := ih h
      simp only [List.length_cons]
      omega

theorem matchingFrom_pairwise (index : Nat) (bs : List Bool) :
    (matchingFrom index bs).Pairwise (· < ·) := by
  induction bs generalizing index with
  | nil => exact List.Pairwise.nil
  | cons b bs ih =>
    unfold matchingFrom
    split
    · exact List.Pairwise.cons (fun i hi => by have := matchingFrom_bounds hi; omega) (ih _)
    · exact ih _

/-- The positions of the rows of a table that match. -/
def matchingRows (c : Compiled) (t : Table) : Traced (List Nat) := do
  let found := matchingFrom 0 (← c.mask t)
  Traced.report (.rowsMatched found.length t.size)
  return found

end Compiled

/-- One page of matching rows. -/
structure Page where
  columns : List String
  rows : List Row
  /-- The positions of the rows in the table. -/
  indices : List Nat
  /-- Number of matches in the whole table. -/
  total : Nat
  offset : UInt64
  limit : UInt64
  hasMore : Bool
deriving Repr

namespace Page

/-- The largest offset. -/
def maxWord : Nat := wordBound - 1

/-- The offset behind a page. -/
def stop (offset limit : UInt64) : Nat := min (offset.toNat + limit.toNat) maxWord

/-- The matches of a page. -/
def slice (offset limit : UInt64) (found : List Nat) : List Nat :=
  (found.take (stop offset limit)).drop offset.toNat

theorem slice_length_le (offset limit : UInt64) (found : List Nat) :
    (slice offset limit found).length ≤ limit.toNat := by
  simp only [slice, List.length_drop, List.length_take, stop]
  omega

/-- Cuts a page out of the matches. A position behind the table has no row. -/
def cut (t : Table) (offset limit : UInt64) (found : List Nat) : Page :=
  let indices := slice offset limit found
  ⟨t.columns, indices.filterMap t.row?, indices, found.length, offset, limit,
    stop offset limit < found.length⟩

/-- Cuts a page, and reports where. -/
def cutTraced (t : Table) (offset limit : UInt64) (found : List Nat) : Traced Page := do
  Traced.report (.pageCut (min offset.toNat found.length) (min (stop offset limit) found.length)
    found.length)
  return cut t offset limit found

/-- A page has room for at least one row. -/
def checkLimit (offset limit : UInt64) : Except FilterError Unit :=
  if limit = 0 then .error (.invalidPagination offset limit) else .ok ()

/-- Cuts a page out of given matches, if there is room on it. -/
def paginate (t : Table) (offset limit : UInt64) (found : List Nat) : Traced Page := do
  Traced.ofExcept (checkLimit offset limit)
  cutTraced t offset limit found

/-- Applies a filter to a table and cuts a page out of the matches. -/
def run (c : Compiled) (t : Table) (offset limit : UInt64) : Traced Page := do
  Traced.ofExcept (checkLimit offset limit)
  cutTraced t offset limit (← c.matchingRows t)

/-- The record of a row. -/
def recordOf (columns : List String) (row : Row) : Record :=
  .ofMembers (columns.zip (row.map Value.toJson))

/-- The rows as records. -/
def records (p : Page) : List Record := p.rows.map (recordOf p.columns)

/-- The page in JSON. -/
def toJson (p : Page) : Json :=
  .object [("page", .array (p.records.map Record.toJson)), ("total_count", .int p.total),
    ("offset", .int p.offset.toNat), ("limit", .int p.limit.toNat), ("has_more", .bool p.hasMore)]

end Page

end RowFilter
