import RowFilter.Predicate
import RowFilter.Table

/-!
# RowFilter — how tables come about

A table comes about from column names or from records, and is then offered rows. The work goes step by step
on the names, the map of their places and the rows. Every step leaves the three as they belong together,
also a refused one, and what a run of steps makes is put into one equation, by induction on the names or the
records that are still to come. While its row is made a record loses its cells, but no column asks for the
same cell again.

Main results:

* `Table.run_pushRow_eq_ok_iff`, `Table.run_pushRow_eq_error_iff` — a row that is offered.
* `Table.run_addColumns_eq_ok_iff` — columns that are added one after the other.
* `Table.run_addAllKeys`, `Table.run_addRecords` — the two passes over records.
* `Table.new_eq_ok_iff`, `Table.ofRecords_eq` — what names and records make.
* `Table.built_iff` — the tables that come about are those with distinct names and rows of one width.
-/

namespace RowFilter

namespace Table

/-! ## Offered rows -/

variable {t t' : Table} {row : Row} {names : List String}

theorem run_pushRow_eq_ok_iff : (pushRow row).run.run t = (.ok ⟨⟩, t') ↔
    row.length = t.columns.length ∧ t' = t.withRow row := by
  rw [run_pushRow]
  by_cases hw : row.length = t.columns.length
  · rw [if_pos hw]
    constructor
    · intro h
      exact ⟨hw, (Prod.mk.inj h).2.symm⟩
    · rintro ⟨_, rfl⟩
      rfl
  · rw [if_neg hw]
    constructor
    · intro h
      cases (Prod.mk.inj h).1
    · exact fun h => absurd h.1 hw

theorem run_pushRow_eq_error_iff {err : TableError} : (pushRow row).run.run t = (.error err, t') ↔
    row.length ≠ t.columns.length ∧ err = .rowWidth row.length t.columns.length ∧ t' = t := by
  rw [run_pushRow]
  by_cases hw : row.length = t.columns.length
  · rw [if_pos hw]
    constructor
    · intro h
      cases (Prod.mk.inj h).1
    · exact fun h => absurd hw h.1
  · rw [if_neg hw]
    constructor
    · intro h
      obtain ⟨herr, hsame⟩ := Prod.mk.inj h
      exact ⟨hw, (Except.error.inj herr).symm, hsame.symm⟩
    · rintro ⟨_, rfl, rfl⟩
      rfl

/-! ## Columns one after the other -/

/-- Names that are added to a table in step are all there in the end, if none of them comes again. -/
theorem run_addColumns_eq_ok_iff (h : t.InStep) :
    (addColumns names).run.run t = (.ok ⟨⟩, t') ↔
      (t.columns ++ names).Nodup ∧ t' = of (t.columns ++ names) t.rows := by
  -- induction on the names that are still to come, for every table in step
  induction names generalizing t with
  | nil =>
    rw [List.append_nil, ← h.eq_of]
    constructor
    · intro hrun
      exact ⟨h.nodup, (Prod.mk.inj hrun).2.symm⟩
    · rintro ⟨_, rfl⟩
      rfl
  | cons n ns ih =>
    rw [addColumns, Stateful.run_bind, run_addColumn]
    cases hn : t.places.contains n with
    | true =>
      constructor
      · intro hrun
        cases (Prod.mk.inj hrun).1
      · rintro ⟨hnodup, _⟩
        -- the name would be there twice
        exact absurd rfl ((List.nodup_append.1 hnodup).2.2 n (h.contains_iff.1 hn) n List.mem_cons_self)
    | false =>
      rw [List.append_cons]
      exact ih (h.withColumn hn)

theorem built_eq_ok_iff {work : Building PUnit} :
    built work = .ok t ↔ work.run.run empty = (.ok ⟨⟩, t) := by
  unfold built
  rcases work.run.run empty with ⟨r, t'⟩
  cases r with
  | error e =>
    constructor
    · intro h
      cases h
    · intro h
      cases (Prod.mk.inj h).1
  | ok a =>
    constructor
    · intro h
      cases h
      rfl
    · intro h
      rw [← (Prod.mk.inj h).2]

theorem new_eq_ok_iff : Table.new names = .ok t ↔ names.Nodup ∧ t = of names [] := by
  rw [Table.new, built_eq_ok_iff, run_addColumns_eq_ok_iff inStep_empty]
  rfl

/-! ## Records one after the other -/

/-- The names of all records in the order in which they are first seen. -/
def namesOf (records : List Record) : List String :=
  records.foldl (fun names r => Compiled.addNames names r.names) []

/-- The cell of a record under a name. -/
def cellOfRecord (r : Record) (name : String) : Value := ((r.member? name).map Value.ofJson).getD .null

/-- Names that are looked for first are added to a table in step where they are new. -/
theorem run_addKeys (h : t.InStep) (names : List String) :
    (names.forM addKey).run.run t = (.ok ⟨⟩, of (Compiled.addNames t.columns names) t.rows) ∧
      (of (Compiled.addNames t.columns names) t.rows).InStep := by
  induction names generalizing t with
  | nil =>
    show _ = (_, of t.columns t.rows) ∧ (of t.columns t.rows).InStep
    rw [← h.eq_of]
    exact ⟨rfl, h⟩
  | cons n ns ih =>
    have hadd := run_addKey t n
    have hrun : ((n :: ns).forM addKey).run.run t = _ := Stateful.run_bind_ok hadd
    rw [hrun]
    cases hn : t.places.contains n with
    | true =>
      -- the map has the name just if the columns have it, since the two are in step
      have hnames : Compiled.addNames t.columns (n :: ns) = Compiled.addNames t.columns ns := by
        rw [Compiled.addNames, List.foldl_cons, if_pos (h.contains_iff.1 hn)]
        rfl
      rw [hnames]
      exact ih h
    | false =>
      have hnew : n ∉ t.columns := by
        rw [← h.contains_iff, hn]
        decide
      have hnames : Compiled.addNames t.columns (n :: ns) = Compiled.addNames (t.columns ++ [n]) ns := by
        rw [Compiled.addNames, List.foldl_cons, if_neg hnew]
        rfl
      rw [hnames]
      exact ih (h.withColumn hn)

/-- The first pass over some records adds their names to a table in step. -/
theorem run_addAllKeys (h : t.InStep) (records : List Record) : ∃ t',
    (records.forM fun r => r.names.forM addKey).run.run t = (.ok ⟨⟩, t') ∧ t'.InStep ∧
      t'.columns = records.foldl (fun names r => Compiled.addNames names r.names) t.columns ∧
      t'.rows = t.rows := by
  induction records generalizing t with
  | nil => exact ⟨t, rfl, h, rfl, rfl⟩
  | cons r rs ih =>
    obtain ⟨hfirst, hstep⟩ := run_addKeys h r.names
    obtain ⟨t', hrest, hstep', hcolumns, hrows⟩ := ih hstep
    exact ⟨t', (Stateful.run_bind_ok hfirst).trans hrest, hstep', hcolumns, hrows⟩

/-- What has been taken out of a record is not missed, since no column comes again. -/
theorem run_takeRow {columns : List String} (h : columns.Nodup) (r : Record) :
    ((takeRow columns).run r).1 = columns.map (cellOfRecord r) := by
  -- induction on the columns, for what is left of the record
  induction columns generalizing r with
  | nil => rfl
  | cons name columns ih =>
    obtain ⟨hname, hcolumns⟩ := List.nodup_cons.1 h
    have hrow : ((takeRow (name :: columns)).run r).1 =
        ((takeCell name).run r).1 :: ((takeRow columns).run ((takeCell name).run r).2).1 := by
      rw [takeRow, List.mapM_cons]
      rfl
    have hcell : ((takeCell name).run r).1 = cellOfRecord r name := by
      rw [cellOfRecord, ← Record.remove_fst]
      rfl
    have hrest : columns.map (cellOfRecord ((takeCell name).run r).2) = columns.map (cellOfRecord r) := by
      refine List.map_congr_left fun other hother => ?_
      have hne : other ≠ name := by
        rintro rfl
        exact hname hother
      rw [cellOfRecord, cellOfRecord, ← Record.member?_remove_of_ne hne r]
      rfl
    rw [hrow, hcell, ih hcolumns, hrest, List.map_cons]

/-- The second pass over some records adds their rows. -/
theorem run_addRecords (h : t.columns.Nodup) (records : List Record) :
    (records.forM addRecord).run.run t = (.ok ⟨⟩,
      { t with rows := t.rows ++ records.map fun r => t.columns.map (cellOfRecord r) }) := by
  induction records generalizing t with
  | nil =>
    rw [List.map_nil, List.append_nil]
    rfl
  | cons r rs ih =>
    have hfirst := run_addRecord t r
    rw [run_takeRow h] at hfirst
    have hrun : ((r :: rs).forM addRecord).run.run t = _ := Stateful.run_bind_ok hfirst
    rw [hrun, List.map_cons, List.append_cons]
    exact ih h

/-- Records always make a table, which has a row for each of them. -/
theorem ofRecords_eq (records : List Record) : ofRecords records =
    .ok (of (namesOf records) (records.map fun r => (namesOf records).map (cellOfRecord r))) := by
  obtain ⟨t, hkeys, hstep, hcolumns, hrows⟩ := run_addAllKeys inStep_empty records
  -- the second pass starts where the first one ended, with all columns and no row
  rw [ofRecords, built_eq_ok_iff, Stateful.run_bind_ok hkeys, run_addRecords hstep.nodup,
    hstep.places, hcolumns, hrows]
  rfl

theorem nodup_namesOf (records : List Record) : (namesOf records).Nodup := by
  obtain ⟨t, _, hstep, hcolumns, _⟩ := run_addAllKeys inStep_empty records
  have hnames : t.columns = namesOf records := hcolumns
  exact hnames ▸ hstep.nodup

theorem isValid_ofRecords {records : List Record} (h : ofRecords records = .ok t) : t.IsValid := by
  rw [ofRecords_eq] at h
  cases h
  refine isValid_of (nodup_namesOf records) fun row hrow => ?_
  obtain ⟨r, _, rfl⟩ := List.mem_map.1 hrow
  exact List.length_map _

/-! ## Tables that come about -/

/-- The tables that come about: one without rows or one made of records, and then rows offered to it, each
of which may be refused. -/
inductive Built : Table → Prop
  | new {names : List String} {t : Table} (h : Table.new names = .ok t) : Built t
  | ofRecords {records : List Record} {t : Table} (h : Table.ofRecords records = .ok t) : Built t
  | pushRow {t : Table} (built : Built t) (row : Row) : Built ((Table.pushRow row).run.run t).2

theorem Built.isValid (h : t.Built) : t.IsValid := by
  induction h with
  | new h =>
    obtain ⟨hnodup, rfl⟩ := new_eq_ok_iff.1 h
    exact isValid_of hnodup (List.forall_mem_nil _)
  | ofRecords h => exact isValid_ofRecords h
  | pushRow _ row ih => exact ih.pushRow row

/-- Rows of the right width can be offered one after the other. -/
theorem Built.append {columns : List String} {rows more : List Row} (h : Built (of columns rows))
    (hwidth : ∀ row ∈ more, row.length = columns.length) : Built (of columns (rows ++ more)) := by
  induction more generalizing rows with
  | nil =>
    rw [List.append_nil]
    exact h
  | cons row more ih =>
    have hpush : (Table.pushRow row).run.run (of columns rows) = (.ok ⟨⟩, of columns (rows ++ [row])) :=
      run_pushRow_eq_ok_iff.2 ⟨hwidth row List.mem_cons_self, rfl⟩
    have hbuilt := h.pushRow row
    rw [hpush] at hbuilt
    rw [List.append_cons]
    exact ih hbuilt fun row hrow => hwidth row (List.mem_cons_of_mem _ hrow)

/-- The tables that come about are exactly the valid ones. -/
theorem built_iff : t.Built ↔ t.IsValid := by
  constructor
  · exact Built.isValid
  · -- a valid table is made of its names, and then offered its rows
    intro h
    have hnew : Built (of t.columns []) := .new (new_eq_ok_iff.2 ⟨h.nodup, rfl⟩)
    have hrows := hnew.append h.width
    rw [List.nil_append, ← h.eq_of] at hrows
    exact hrows

end Table

end RowFilter
