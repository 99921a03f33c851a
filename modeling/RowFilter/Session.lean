import RowFilter.Catalog
import RowFilter.Page
import RowFilter.PageLimits

/-!
# RowFilter — sessions

A session answers requests from a catalog of schemas, a catalog of datasets, the named lists of its
users and its page limits. Unless it is told otherwise, one catalog serves both purposes. A request
changes nothing.

A request is answered in a fixed order, which decides which of several errors is reported: its limit, its
syntax, the schema, the clauses, the lists, the dataset, and at last the rows.

Main results:

* `Session.filter_of_limit_zero` — a request for no rows fails whatever else it asks.
-/

namespace RowFilter

/-- What requests are answered from. -/
structure Session where
  schemas : Catalog
  /-- A catalog that serves the tables in place of the first one. -/
  separate : Option Catalog
  lists : Literal.NamedLists
  limits : PageLimits

/-- A request for one page. -/
structure Request where
  user : String
  dataset : String
  query : String
  offset : UInt64
  /-- The usual limit counts if none is given. -/
  limit : Option UInt64

namespace Session

/-- A session on one catalog. -/
def ofCatalog (c : Catalog) (lists : Literal.NamedLists) (limits : PageLimits) : Session :=
  ⟨c, none, lists, limits⟩

/-- The catalog that serves the tables. -/
def datasets (s : Session) : Catalog := s.separate.getD s.schemas

/-- Compiles a query. Its syntax is checked before the schema is asked for. -/
def compile [Calendar.Parsers] (s : Session) (user dataset source : String) : Traced Compiled := do
  let query ← Traced.ofExcept (Query.parse source)
  let schema ← Traced.ofExcept (s.schemas.schema dataset)
  Traced.report (.schemaResolved dataset schema.size)
  Compile.formula schema s.lists user source query

/-- Number of matching rows. -/
def count [Calendar.Parsers] (s : Session) (user dataset source : String) : Traced Nat := do
  let compiled ← s.compile user dataset source
  let table ← Traced.ofExcept (s.datasets.load dataset)
  return (← compiled.matchingRows table).length

/-- Answers a request with one page. -/
def filter [Calendar.Parsers] (s : Session) (r : Request) : Traced Page := do
  -- a request for no rows fails before anything else is looked at
  let limit ← s.limits.resolveTraced r.limit r.offset
  let compiled ← s.compile r.user r.dataset r.query
  let table ← Traced.ofExcept (s.datasets.load r.dataset)
  let page ← Page.run compiled table r.offset limit
  Traced.report (.filterDone r.dataset r.user page.total page.rows.length)
  return page

theorem filter_of_limit_zero [Calendar.Parsers] (s : Session) (r : Request) (h : r.limit = some 0) :
    (s.filter r).outcome = .error (.invalidPagination r.offset 0) := by
  simp only [filter, Traced.outcome_bind, PageLimits.resolveTraced, Traced.outcome_ofExcept, h,
    PageLimits.resolve]
  rfl

end Session

end RowFilter
