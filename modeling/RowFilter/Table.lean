import RowFilter.Json.Reader
import RowFilter.Record
import RowFilter.Stateful
import RowFilter.Store
import RowFilter.Value

/-!
# RowFilter — tables

A table has columns with distinct names, a map from the names to the places of the columns, and rows as
wide as its columns. Tables are built step by step, from names and rows, or from records: their columns
stand in the order in which they are first seen, and their cells are taken out of them column by column; a
record that lacks a column has nothing there.

Main results:

* `Table.run_addColumn`, `Table.run_pushRow`, `Table.run_addKey` — what one step does to a table.
* `Table.InStep.columnIndex?_eq_some_iff` — a map that is in step finds each column at its place.
* `Table.InStep.withColumn` — a new column keeps the map in step.
* `Table.IsValid.pushRow` — a row that is offered leaves a valid table, whether it is refused or not.
-/

namespace RowFilter

/-- One row; its cells stand in the order of the columns. -/
abbrev Row := List Value

/-- The places of columns, under their names. -/
abbrev Places := Store String Nat

/-- An in-memory dataset. -/
structure Table where
  columns : List String
  places : Places
  rows : List Row
deriving Repr, Inhabited

/-- Why a table cannot be built. -/
inductive TableError
  | duplicateColumn (name : String)
  | rowWidth (row columns : Nat)
  | notRecords
deriving DecidableEq, Repr

/-- The wording of an error. -/
def TableError.message : TableError → String
  | duplicateColumn name => "Duplicate column name: " ++ name
  | rowWidth row columns =>
    "Row has " ++ toString row ++ " values but table has " ++ toString columns ++ " columns"
  | notRecords => "Dataset must be a JSON array of objects"

namespace Table

/-- The place of a column. -/
def columnIndex? (t : Table) (name : String) : Option Nat := t.places.find? name

/-- A row by its position. -/
def row? (t : Table) (index : Nat) : Option Row := t.rows[index]?

/-- Number of rows. -/
def size (t : Table) : Nat := t.rows.length

/-- The cells of one column, from the rows that have one. -/
def columnValues (t : Table) (index : Nat) : List Value := t.rows.filterMap fun r => r[index]?

/-! ## Building tables -/

/-- Work on a table. -/
abbrev Building := Stateful Table TableError

/-- Nothing is there. -/
def empty : Table := ⟨[], .empty, []⟩

/-- The table with one more column, which is put down in the map first. -/
def withColumn (t : Table) (name : String) : Table :=
  { t with places := t.places.insert name t.columns.length, columns := t.columns ++ [name] }

/-- The table with one more row. -/
def withRow (t : Table) (row : Row) : Table := { t with rows := t.rows ++ [row] }

/-- Adds a column, and gives its place. -/
def addColumn (name : String) : Building Nat := do
  let t ← get
  if t.places.contains name then throw (.duplicateColumn name)
  set (t.withColumn name)
  return t.columns.length

/-- Adds columns one after the other. -/
def addColumns : List String → Building PUnit
  | [] => pure ⟨⟩
  | name :: names => do
    let _ ← addColumn name
    addColumns names

/-- Adds a row, if it is as wide as the columns. -/
def pushRow (row : Row) : Building PUnit := do
  let t ← get
  if row.length ≠ t.columns.length then throw (.rowWidth row.length t.columns.length)
  set (t.withRow row)

/-- Adds a column, unless it is there. -/
def addKey (name : String) : Building PUnit := do
  let t ← get
  unless t.places.contains name do
    let _ ← addColumn name

/-- Takes the cell of a column out of a record. -/
def takeCell (name : String) : StateM Record Value := do
  return ((← Record.remove name).map Value.ofJson).getD .null

/-- Takes a row out of a record, column by column. -/
def takeRow (columns : List String) : StateM Record Row := columns.mapM takeCell

/-- Adds the row of a record. -/
def addRecord (r : Record) : Building PUnit :=
  modify fun t => t.withRow ((takeRow t.columns).run r).1

/-- The table that some work makes out of nothing. -/
def built (work : Building PUnit) : Except TableError Table :=
  match work.run.run empty with
  | (.ok _, t) => .ok t
  | (.error e, _) => .error e

/-- A table without rows. -/
def new (names : List String) : Except TableError Table :=
  built (addColumns names)

/-- The table of some records. -/
def ofRecords (records : List Record) : Except TableError Table :=
  built do
    records.forM fun r => r.names.forM addKey
    records.forM addRecord

/-- The record of a JSON object. -/
def recordOfJson? : Json → Option Record
  | .object ms => some (.ofMembers ms)
  | _ => none

/-- The table of a JSON array of objects. -/
def ofJson (j : Json) : Except TableError Table :=
  match j with
  | .array items =>
    match items.mapM recordOfJson? with
    | some records => ofRecords records
    | none => .error .notRecords
  | _ => .error .notRecords

/-- The table of a JSON text. -/
def ofText (s : String) : Except TableError Table :=
  match Json.read? s with
  | some j => ofJson j
  | none => .error .notRecords

/-! ## What the steps do -/

variable {t : Table} {name : String} {row : Row}

theorem run_addColumn (t : Table) (name : String) : (addColumn name).run.run t =
    if t.places.contains name then (.error (.duplicateColumn name), t)
    else (.ok t.columns.length, t.withColumn name) := by
  rw [addColumn, Stateful.run_bind_ok (Stateful.run_get t)]
  split <;> rfl

theorem run_pushRow (t : Table) (row : Row) : (pushRow row).run.run t =
    if row.length = t.columns.length then (.ok ⟨⟩, t.withRow row)
    else (.error (.rowWidth row.length t.columns.length), t) := by
  rw [pushRow, Stateful.run_bind_ok (Stateful.run_get t)]
  by_cases hw : row.length = t.columns.length
  · rw [if_pos hw, if_neg (not_not_intro hw)]
    rfl
  · rw [if_neg hw, if_pos hw]
    rfl

/-- A column that is looked for first is never refused. -/
theorem run_addKey (t : Table) (name : String) : (addKey name).run.run t =
    (.ok ⟨⟩, if t.places.contains name then t else t.withColumn name) := by
  rw [addKey, Stateful.run_bind_ok (Stateful.run_get t)]
  cases h : t.places.contains name with
  | true => rfl
  | false =>
    have hadd := run_addColumn t name
    rw [h] at hadd
    exact Stateful.run_bind_ok hadd

theorem run_addRecord (t : Table) (r : Record) : (addRecord r).run.run t =
    (.ok ⟨⟩, t.withRow ((takeRow t.columns).run r).1) := rfl

/-! ## Valid tables -/

/-- The map of some columns: each name with its place. -/
def placesOf (columns : List String) : Places := ⟨columns.zipIdx⟩

/-- Distinct column names, and a map that is in step with them. -/
structure InStep (t : Table) : Prop where
  nodup : t.columns.Nodup
  places : t.places = placesOf t.columns

/-- A table in step whose rows are as wide as its columns. -/
structure IsValid (t : Table) : Prop extends t.InStep where
  width : ∀ r ∈ t.rows, r.length = t.columns.length

/-- A table with these columns and rows. -/
def of (columns : List String) (rows : List Row) : Table := ⟨columns, placesOf columns, rows⟩

theorem isValid_of {columns : List String} {rows : List Row} (hnodup : columns.Nodup)
    (hwidth : ∀ r ∈ rows, r.length = columns.length) : (of columns rows).IsValid :=
  ⟨⟨hnodup, rfl⟩, hwidth⟩

theorem InStep.eq_of (h : t.InStep) : t = of t.columns t.rows := by
  rw [of, ← h.places]

/-- A map of places finds the first column with a name. -/
theorem find?_placesOf (columns : List String) (name : String) :
    (placesOf columns).find? name = columns.idxOf? name := by
  -- the first place is a variable, since the induction is on the columns
  suffices h : ∀ start, ((columns.zipIdx start).find? fun e => decide (e.1 = name)).map Prod.snd =
      (columns.idxOf? name).map (· + start) by
    have h0 := h 0
    simpa [Store.find?, placesOf] using h0
  induction columns with
  | nil => exact fun _ => rfl
  | cons first columns ih =>
    intro start
    rw [List.zipIdx_cons, List.idxOf?_cons, List.find?_cons]
    by_cases hfirst : first = name
    · simp [hfirst]
    · simp only [hfirst, decide_false, beq_iff_eq, if_false, ih, Option.map_map]
      congr 1
      funext i
      exact Nat.add_right_comm i start 1

theorem InStep.columnIndex?_eq_some_iff (h : t.InStep) {i : Nat} :
    t.columnIndex? name = some i ↔ t.columns[i]? = some name := by
  rw [columnIndex?, h.places, find?_placesOf]
  constructor
  · intro hi
    obtain ⟨hlt, rfl, _⟩ := List.idxOf?_eq_some_iff.1 hi
    exact List.getElem?_eq_getElem hlt
  · intro hi
    obtain ⟨hlt, rfl⟩ := List.getElem?_eq_some_iff.1 hi
    -- no earlier place has the name, because no two places have the same one
    refine List.idxOf?_eq_some_iff.2 ⟨hlt, rfl, fun j hj heq => ?_⟩
    have hsame : j = i := (List.getElem_inj h.nodup).1 heq
    omega

theorem InStep.contains_iff (h : t.InStep) : t.places.contains name = true ↔ name ∈ t.columns := by
  rw [Store.contains, h.places, find?_placesOf, List.isSome_idxOf?]

theorem InStep.columnIndex?_eq_none_iff (h : t.InStep) :
    t.columnIndex? name = none ↔ name ∉ t.columns := by
  rw [← h.contains_iff, Store.contains, columnIndex?]
  cases t.places.find? name <;> simp

theorem inStep_empty : empty.InStep := ⟨List.nodup_nil, rfl⟩

/-- A new column keeps the map in step. -/
theorem InStep.withColumn (h : t.InStep) (hnew : t.places.contains name = false) :
    (t.withColumn name).InStep := by
  have hname : name ∉ t.columns := by
    rw [← h.contains_iff, hnew]
    decide
  refine ⟨?_, ?_⟩
  · refine List.nodup_append.2 ⟨h.nodup, List.pairwise_singleton _ name, ?_⟩
    rintro a ha b hb rfl
    exact hname (List.mem_singleton.1 hb ▸ ha)
  · show t.places.insert name t.columns.length = placesOf (t.columns ++ [name])
    rw [Store.insert_of_contains_eq_false hnew, h.places, placesOf, placesOf, List.zipIdx_append]
    simp

theorem IsValid.withRow (h : t.IsValid) (hrow : row.length = t.columns.length) :
    (t.withRow row).IsValid := by
  refine ⟨⟨h.nodup, h.places⟩, fun r hr => ?_⟩
  rcases List.mem_append.1 hr with hr | hr
  · exact h.width r hr
  · rw [List.mem_singleton.1 hr]
    exact hrow

/-- A row that is offered leaves a valid table, whether it is refused or not. -/
theorem IsValid.pushRow (h : t.IsValid) (row : Row) : ((pushRow row).run.run t).2.IsValid := by
  rw [run_pushRow]
  split
  · rename_i hrow
    exact h.withRow hrow
  · exact h

end Table

end RowFilter
