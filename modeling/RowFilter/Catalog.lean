import RowFilter.Inference

/-!
# RowFilter — catalogs

A catalog holds datasets under their names. A dataset may come with a schema; without one its schema is
inferred from its table each time it is asked for.
-/

namespace RowFilter

/-- A table and its schema, if one was given. -/
structure Dataset where
  table : Table
  schema : Option Schema
deriving Repr

/-- The schema of a dataset. -/
def Dataset.resolvedSchema [Calendar.Parsers] (d : Dataset) : Schema := d.schema.getD d.table.schema

/-- Datasets under their names. -/
abbrev Catalog := Store String Dataset

namespace Catalog

/-- Registers a dataset, in place of an older one. -/
def register (c : Catalog) (name : String) (d : Dataset) : Catalog := c.insert name d

/-- The schema of a dataset. -/
def schema [Calendar.Parsers] (c : Catalog) (name : String) : Except FilterError Schema :=
  match c.find? name with
  | some d => .ok d.resolvedSchema
  | none => .error (.unknownSchema name)

/-- The table of a dataset. -/
def load (c : Catalog) (name : String) : Except FilterError Table :=
  match c.find? name with
  | some d => .ok d.table
  | none => .error (.unknownDataset name)

end Catalog

end RowFilter
