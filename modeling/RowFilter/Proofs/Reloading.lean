import RowFilter.Page
import RowFilter.Proofs.TableShape

/-!
# RowFilter — tables from the records of a page

A page shows its rows as records: the cells of a row under the names of the columns. Since the names of a
table are distinct and its rows are as wide as its columns, no cell is lost on the way, and the names of
every record are the columns in their order. So the records of all rows make the same table again, unless
there is no row, and so no name, or a cell is a number that JSON does not have.

Main results:

* `Page.members_recordOf` — the record of a row pairs the columns with the cells.
* `Table.namesOf_of_columns` — records over the same columns make a table with these columns.
* `Table.map_cellOfRecord` — a row is read back from its record.
* `table_survives_reloading` — the records of a page in general, and of one that holds a whole table.
-/

namespace RowFilter

namespace Page

variable {columns : List String} {row : Row} {t : Table}

/-! ## Records of rows -/

theorem map_fst_zip (hwidth : row.length = columns.length) :
    (columns.zip (row.map Value.toJson)).map Prod.fst = columns :=
  List.map_fst_zip (Nat.le_of_eq (by rw [List.length_map, hwidth]))

/-- The record of a row pairs the columns with the cells. -/
theorem members_recordOf (hcolumns : columns.Nodup) (hwidth : row.length = columns.length) :
    (recordOf columns row).members = columns.zip (row.map Value.toJson) := by
  refine Json.ofMembers_of_nodup ?_
  rw [map_fst_zip hwidth]
  exact hcolumns

/-- The names of a record are the columns in their order. -/
theorem names_recordOf (hcolumns : columns.Nodup) (hwidth : row.length = columns.length) :
    (recordOf columns row).names = columns := by
  rw [Record.names, members_recordOf hcolumns hwidth, map_fst_zip hwidth]

/-- A cell stands in the record at its place, under the name of its column. -/
theorem getElem?_recordOf (hcolumns : columns.Nodup) (hwidth : row.length = columns.length) {k : Nat}
    {name : String} {cell : Value} (hname : columns[k]? = some name) (hcell : row[k]? = some cell) :
    (recordOf columns row).members[k]? = some (name, cell.toJson) := by
  rw [members_recordOf hcolumns hwidth, List.getElem?_zip_eq_some, List.getElem?_map, hcell]
  exact ⟨hname, rfl⟩

/-- The page shows rows of the table under its columns. Which rows it shows, and in which order, is
open. -/
structure Selects (page : Page) (t : Table) : Prop where
  columns : page.columns = t.columns
  rows : ∀ row ∈ page.rows, row ∈ t.rows

theorem selects_cut (t : Table) (offset limit : UInt64) (found : List Nat) :
    (cut t offset limit found).Selects t := by
  refine ⟨rfl, fun row hrow => ?_⟩
  obtain ⟨i, _, hi⟩ := List.mem_filterMap.1 hrow
  exact List.mem_of_getElem? hi

/-- A page with the positions of all rows holds all rows. -/
theorem rows_cut_of_indices {offset limit : UInt64} {found : List Nat}
    (h : (cut t offset limit found).indices = List.range t.rows.length) :
    (cut t offset limit found).rows = t.rows := by
  have hall : (List.range t.rows.length).map t.row? = t.rows.map some := by
    refine List.ext_getElem (by simp) fun i _ _ => ?_
    simp [Table.row?]
  calc (cut t offset limit found).rows
      = (List.range t.rows.length).filterMap t.row? := by rw [← h]; rfl
    _ = ((List.range t.rows.length).map t.row?).filterMap id := by rw [List.filterMap_map]; rfl
    _ = (t.rows.map some).filterMap id := by rw [hall]
    _ = t.rows.filterMap some := by rw [List.filterMap_map]; rfl
    _ = t.rows := List.filterMap_some

end Page

namespace Table

variable {columns : List String} {row : Row} {t : Table}

/-! ## Tables made of records -/

/-- Records over the same columns make a table with these columns. -/
theorem namesOf_of_columns {records : List Record} (hcolumns : columns.Nodup) (hsome : records ≠ [])
    (h : ∀ r ∈ records, r.names = columns) : namesOf records = columns := by
  -- the first record brings all names, and the others bring no new ones
  have hrest : ∀ rs : List Record, (∀ r ∈ rs, r.names = columns) →
      rs.foldl (fun names r => Compiled.addNames names r.names) columns = columns := by
    intro rs hrs
    induction rs with
    | nil => rfl
    | cons r rs ih =>
      rw [List.foldl_cons, hrs r List.mem_cons_self, Compiled.addNames_of_subset fun _ hn => hn]
      exact ih fun r' hr' => hrs r' (List.mem_cons_of_mem r hr')
  obtain ⟨first, rest, rfl⟩ := List.exists_cons_of_ne_nil hsome
  have hfirst : Compiled.addNames [] columns = [] ++ columns := Compiled.addNames_of_nodup hcolumns
  rw [namesOf, List.foldl_cons, h first List.mem_cons_self, hfirst, List.nil_append]
  exact hrest rest fun r hr => h r (List.mem_cons_of_mem first hr)

/-- A cell is read back from the record of its row. -/
theorem cellOfRecord_recordOf (hcolumns : columns.Nodup) (hwidth : row.length = columns.length) {k : Nat}
    {name : String} {cell : Value} (hname : columns[k]? = some name) (hcell : row[k]? = some cell)
    (hfinite : ∀ x, cell = .float x → x.isFinite = true) :
    cellOfRecord (Page.recordOf columns row) name = cell := by
  have hmember := List.mem_of_getElem? (Page.getElem?_recordOf hcolumns hwidth hname hcell)
  rw [cellOfRecord, Record.member?_eq_some_iff.2 hmember, Option.map_some, Option.getD_some,
    Value.ofJson_toJson hfinite]

/-- A row is read back from its record. -/
theorem map_cellOfRecord (hcolumns : columns.Nodup) (hwidth : row.length = columns.length)
    (hfinite : ∀ x, .float x ∈ row → x.isFinite = true) :
    columns.map (cellOfRecord (Page.recordOf columns row)) = row := by
  refine List.ext_getElem (by rw [List.length_map, hwidth]) fun k hk hk' => ?_
  rw [List.length_map] at hk
  rw [List.getElem_map]
  refine cellOfRecord_recordOf hcolumns hwidth (List.getElem?_eq_getElem hk)
    (List.getElem?_eq_getElem hk') fun x hx => ?_
  exact hfinite x (hx ▸ List.getElem_mem hk')

/-- The records of all rows of a table make the table again. -/
theorem ofRecords_records (ht : t.IsValid) (hsome : t.rows ≠ [])
    (hfinite : ∀ row ∈ t.rows, ∀ x, .float x ∈ row → x.isFinite = true) :
    ofRecords (t.rows.map (Page.recordOf t.columns)) = .ok t := by
  have hnames : namesOf (t.rows.map (Page.recordOf t.columns)) = t.columns := by
    refine namesOf_of_columns ht.nodup (by simpa using hsome) fun r hr => ?_
    obtain ⟨row, hrow, rfl⟩ := List.mem_map.1 hr
    exact Page.names_recordOf ht.nodup (ht.width row hrow)
  have hrows : (t.rows.map (Page.recordOf t.columns)).map
      (fun r => t.columns.map (cellOfRecord r)) = t.rows := by
    rw [List.map_map]
    -- row by row
    have hrow : ∀ row ∈ t.rows, t.columns.map (cellOfRecord (Page.recordOf t.columns row)) = row :=
      fun row hrow => map_cellOfRecord ht.nodup (ht.width row hrow) (hfinite row hrow)
    exact (List.map_congr_left hrow).trans (List.map_id _)
  rw [ofRecords_eq, hnames, hrows, ← ht.eq_of]

end Table

/-- **A table survives being shown and reloaded.** The records of a page that holds a whole table make the
same table again, with the same columns in the same order and the same cells, if it has a row and no cell
is an infinity or what is no number. The records of any page of a table have all columns in their order,
and under each of them the cell of the row in JSON. Every page that is cut out of a table is such a page,
and it holds the whole table if it has the positions of all rows. -/
theorem table_survives_reloading {t : Table} (ht : t.Built) :
    (∀ page : Page, page.columns = t.columns → page.rows = t.rows → t.rows ≠ [] →
      (∀ row ∈ t.rows, ∀ x, .float x ∈ row → x.isFinite = true) →
      Table.ofRecords page.records = .ok t) ∧
    (∀ page : Page, page.Selects t → page.records.length = page.rows.length ∧
      ∀ (i : Nat) (row : Row), page.rows[i]? = some row → ∃ record, page.records[i]? = some record ∧
        record.names = t.columns ∧
        ∀ (k : Nat) (name : String), t.columns[k]? = some name → ∃ cell : Value, row[k]? = some cell ∧
          record.members[k]? = some (name, cell.toJson) ∧ record.member? name = some cell.toJson) ∧
    ∀ offset limit found, (Page.cut t offset limit found).Selects t ∧
      ((Page.cut t offset limit found).indices = List.range t.rows.length →
        (Page.cut t offset limit found).rows = t.rows) := by
  have hvalid := ht.isValid
  refine ⟨?_, ?_, fun offset limit found => ⟨Page.selects_cut t offset limit found,
    Page.rows_cut_of_indices⟩⟩
  · intro page hcolumns hrows hsome hfinite
    rw [Page.records, hcolumns, hrows]
    exact Table.ofRecords_records hvalid hsome hfinite
  · intro page hpage
    refine ⟨List.length_map _, fun i row hrow => ?_⟩
    have hwidth : row.length = t.columns.length := hvalid.width row (hpage.rows row (List.mem_of_getElem? hrow))
    have hnames := Page.names_recordOf hvalid.nodup hwidth
    refine ⟨Page.recordOf t.columns row, ?_, hnames, fun k name hname => ?_⟩
    · rw [Page.records, hpage.columns, List.getElem?_map, hrow]
      rfl
    · -- the row is as wide as the columns, so it has a cell there
      have hk : k < row.length := hwidth ▸ (List.getElem?_eq_some_iff.1 hname).1
      have hcell := Page.getElem?_recordOf hvalid.nodup hwidth hname (List.getElem?_eq_getElem hk)
      exact ⟨row[k], List.getElem?_eq_getElem hk, hcell,
        Record.member?_eq_some_iff.2 (List.mem_of_getElem? hcell)⟩

/-- A table with a column of missing cells, a whole number and a decimal one of the same size; and a page
of it that shows only the second row. -/
theorem table_survives_reloading_missing :
    let two : Binary64 := Binary64.ofInt 2
    let t : Table := .of ["n", "m"] [[.int 2, .null], [.float two, .null]]
    let whole := Page.cut t 0 20 [0, 1]
    let second := Page.cut t 1 20 [0, 1]
    t.Built ∧ whole.columns = t.columns ∧ whole.rows = t.rows ∧ t.rows ≠ [] ∧
      (∀ row ∈ t.rows, ∀ x, .float x ∈ row → x.isFinite = true) ∧
      Table.ofRecords whole.records = .ok t ∧ second.Selects t ∧ second.rows = [[.float two, .null]] ∧
      ∃ record, second.records[0]? = some record ∧ record.names = ["n", "m"] ∧
        record.member? "m" = some .null := by
  intro two t whole second
  have hbuilt : t.Built := Table.built_iff.2 (Table.isValid_of (by decide) (by decide))
  obtain ⟨hwhole, hany, hcut⟩ := table_survives_reloading hbuilt
  have hrows : whole.rows = t.rows := (hcut 0 20 [0, 1]).2 (by decide +kernel)
  have hsome : t.rows ≠ [] := List.cons_ne_nil _ _
  have hfinite : ∀ row ∈ t.rows, ∀ x, .float x ∈ row → x.isFinite = true := by
    intro row hrow x hx
    simp [t, Table.of] at hrow
    rcases hrow with rfl | rfl
    · simp at hx
    · have hx : x = two := by simpa using hx
      rw [hx]
      decide +kernel
  have hsecond : second.rows = [[.float two, .null]] := by decide +kernel
  have hselects : second.Selects t := (hcut 1 20 [0, 1]).1
  refine ⟨hbuilt, rfl, hrows, hsome, hfinite, hwhole whole rfl hrows hsome hfinite, hselects, hsecond, ?_⟩
  obtain ⟨record, hrecord, hnames, hcells⟩ :=
    (hany second hselects).2 0 [.float two, .null] (by rw [hsecond]; rfl)
  obtain ⟨cell, hcell, _, hmember⟩ := hcells 1 "m" rfl
  cases hcell
  exact ⟨record, hrecord, hnames, hmember⟩

end RowFilter
