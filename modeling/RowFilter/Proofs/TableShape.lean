import RowFilter.Proofs.CompileOutcome
import RowFilter.Proofs.InferredTypes
import RowFilter.Proofs.ShortCircuit
import RowFilter.Proofs.TableBuilding

/-!
# RowFilter — the shape of tables

However a table came about, its names are distinct, each name is found at its place, and every row has a
cell under every column. A table of records has their names in the order in which they are first seen, and
holds every record. A filter whose columns are all there finds its cells in all rows.

Main results:

* `FirstSeen.addNames` — names are collected in the order in which they are first seen.
* `Table.keeps_ofRecords` — a table made of records loses none of them.
* `Evaluator.new_eq_error_iff` — the first column that is not there is the one that is missed.
* `table_stays_aligned` — the shape of a table, and what an evaluator can rely on.
-/

namespace RowFilter

namespace Table

variable {t : Table}

/-- Distinct names, each of them found at its place, and a cell for every name in every row. -/
structure Aligned (t : Table) : Prop where
  nodup : t.columns.Nodup
  index : ∀ name i, t.columnIndex? name = some i ↔ t.columns[i]? = some name
  width : ∀ row ∈ t.rows, row.length = t.columns.length

theorem IsValid.aligned (h : t.IsValid) : t.Aligned :=
  ⟨h.nodup, fun _ _ => h.columnIndex?_eq_some_iff, h.width⟩

end Table

/-! ## Names in the order in which they are first seen -/

/-- The names of a list, without repetitions, in the order in which they are first seen. -/
structure FirstSeen (all names : List String) : Prop where
  mem_iff : ∀ name, name ∈ names ↔ name ∈ all
  order : names.Pairwise fun a b => all.idxOf a < all.idxOf b

/-- A name is added behind the others just if it has not been seen. -/
theorem FirstSeen.step {all names : List String} (h : FirstSeen all names) (last : String) :
    FirstSeen (all ++ [last]) (if last ∈ names then names else names ++ [last]) := by
  -- a name keeps its place whatever comes behind it
  have hplace : ∀ name ∈ names, (all ++ [last]).idxOf name = all.idxOf name := by
    intro name hname
    rw [List.idxOf_append, if_pos ((h.mem_iff name).1 hname)]
  have horder : names.Pairwise fun a b =>
      (all ++ [last]).idxOf a < (all ++ [last]).idxOf b := by
    refine h.order.imp_of_mem ?_
    intro a b ha hb hlt
    rw [hplace a ha, hplace b hb]
    exact hlt
  by_cases hlast : last ∈ names
  · rw [if_pos hlast]
    refine ⟨?_, horder⟩
    intro name
    rw [List.mem_append, List.mem_singleton, h.mem_iff]
    constructor
    · exact .inl
    · rintro (hname | rfl)
      · exact hname
      · exact (h.mem_iff name).1 hlast
  · rw [if_neg hlast]
    have hnew : last ∉ all := fun hall => hlast ((h.mem_iff last).2 hall)
    refine ⟨?_, List.pairwise_append.2 ⟨horder, List.pairwise_singleton _ _, ?_⟩⟩
    · intro name
      rw [List.mem_append, List.mem_append, h.mem_iff]
    · intro a ha b hb
      obtain rfl := List.mem_singleton.1 hb
      rw [hplace a ha, List.idxOf_append, if_neg hnew, List.idxOf_cons_self, Nat.zero_add]
      exact List.idxOf_lt_length_of_mem ((h.mem_iff a).1 ha)

theorem FirstSeen.addNames {all names : List String} (h : FirstSeen all names) (more : List String) :
    FirstSeen (all ++ more) (Compiled.addNames names more) := by
  induction more generalizing all names with
  | nil =>
    rw [List.append_nil]
    exact h
  | cons name more ih =>
    rw [List.append_cons]
    exact ih (h.step name)

theorem firstSeen_nil : FirstSeen [] [] := ⟨fun _ => .rfl, List.Pairwise.nil⟩

namespace Table

/-- The names of all records, record by record. -/
def keysOf (records : List Record) : List String := records.flatMap Record.names

theorem firstSeen_namesOf (records : List Record) : FirstSeen (keysOf records) (namesOf records) := by
  -- the records so far are a variable, since the induction is on those that follow
  suffices h : ∀ {all names : List String}, FirstSeen all names → FirstSeen (all ++ keysOf records)
      (records.foldl (fun names r => Compiled.addNames names r.names) names) from h firstSeen_nil
  induction records with
  | nil =>
    intro all names h
    rw [keysOf, List.flatMap_nil, List.append_nil]
    exact h
  | cons r records ih =>
    intro all names h
    rw [keysOf, List.flatMap_cons, ← List.append_assoc]
    exact ih (h.addNames _)

/-- The table holds the records and nothing else: its columns are their names, and its rows are the records
in their order, with nothing under the names that a record lacks. -/
structure Keeps (t : Table) (records : List Record) : Prop where
  columns : FirstSeen (keysOf records) t.columns
  size : t.rows.length = records.length
  cells : ∀ (i : Nat) (r : Record), records[i]? = some r → ∃ row, t.row? i = some row ∧
    row.length = t.columns.length ∧
    ∀ key ∈ t.columns, ∃ cell, cellOf t.places key row = .ok cell ∧
      (key ∉ r.names → cell = .null) ∧ ∀ v, (key, v) ∈ r.members → cell = Value.ofJson v

/-- A row whose cells are given by their names has each of them under its name. -/
theorem InStep.cellOf_map {t : Table} (h : t.InStep) (f : String → Value) {key : String}
    (hkey : key ∈ t.columns) : cellOf t.places key (t.columns.map f) = .ok (f key) := by
  obtain ⟨i, hi⟩ := List.mem_iff_getElem?.1 hkey
  have hplace : t.places.find? key = some i := h.columnIndex?_eq_some_iff.2 hi
  rw [cellOf, hplace, Option.bind_some, List.getElem?_map, hi]
  rfl

theorem keeps_ofRecords {t : Table} {records : List Record} (h : ofRecords records = .ok t) :
    t.Keeps records := by
  have ht := isValid_ofRecords h
  rw [ofRecords_eq] at h
  cases h
  refine ⟨firstSeen_namesOf records, List.length_map _, fun i r hr => ?_⟩
  -- the row has a cell for every name of the table, whichever names the record has
  refine ⟨(namesOf records).map (cellOfRecord r), ?_, List.length_map _, fun key hkey => ?_⟩
  · show (records.map fun r => (namesOf records).map (cellOfRecord r))[i]? = _
    rw [List.getElem?_map, hr]
    rfl
  · refine ⟨_, ht.cellOf_map (cellOfRecord r) hkey, fun hlacks => ?_, fun v hv => ?_⟩
    · rw [cellOfRecord, Record.member?, Json.member?_of_not_mem hlacks]
      rfl
    · rw [cellOfRecord, Record.member?_eq_some_iff.2 hv]
      rfl

/-- Records are read as they are. -/
theorem ofJson_records (records : List Record) :
    ofJson (.array (records.map Record.toJson)) = ofRecords records := by
  have hrecords : (records.map Record.toJson).mapM recordOfJson? = some records := by
    induction records with
    | nil => rfl
    | cons r records ih =>
      rw [List.map_cons, List.mapM_cons, ih, Record.toJson, recordOfJson?, Record.ofMembers_members]
      rfl
  unfold ofJson
  simp only
  rw [hrecords]

end Table

/-! ## What a filter needs of a table -/

theorem isFirst_iff_find? {α : Type} {p : α → Bool} {xs : List α} {x : α} :
    xs.find? p = some x ↔ IsFirst (fun x => p x = true) xs x := by
  constructor
  · intro h
    induction xs with
    | nil => cases h
    | cons y ys ih =>
      rw [List.find?_cons] at h
      cases hy : p y with
      | true =>
        rw [hy] at h
        cases h
        exact .head hy
      | false =>
        rw [hy] at h
        exact .tail (by rw [hy]; decide) (ih h)
  · intro h
    induction h with
    | head here => exact List.find?_cons_of_pos here
    | tail not_here _ ih => rw [List.find?_cons_of_neg not_here, ih]

/-- Names that come again do not change which of them is the first with a property. -/
theorem Compiled.find?_addNames (p : String → Bool) (seen names : List String) :
    (addNames seen names).find? p = (seen.find? p).or (names.find? p) := by
  induction names generalizing seen with
  | nil => exact Option.or_none.symm
  | cons n ns ih =>
    show (addNames (if n ∈ seen then seen else seen ++ [n]) ns).find? p = _
    rw [ih]
    by_cases hn : n ∈ seen
    · rw [if_pos hn]
      cases hp : p n with
      | false => rw [List.find?_cons_of_neg (by rw [hp]; decide)]
      | true =>
        -- a name with the property was seen before, so no later one counts
        have hsome : (seen.find? p).isSome = true := List.find?_isSome.2 ⟨n, hn, hp⟩
        obtain ⟨first, hfirst⟩ := Option.isSome_iff_exists.1 hsome
        rw [hfirst, Option.some_or, Option.some_or]
    · rw [if_neg hn, List.find?_append, Option.or_assoc]
      congr 1
      cases hp : p n with
      | false =>
        rw [List.find?_cons_of_neg (by rw [hp]; decide), List.find?_cons_of_neg (by rw [hp]; decide)]
        rfl
      | true =>
        rw [List.find?_cons_of_pos hp, List.find?_cons_of_pos hp]
        rfl

namespace Predicate

variable {p : Predicate} {cell : Value} {err : FilterError}

theorem exists_fault_of_order {literal : Value} (h : p.order cell literal = .error err) :
    ∃ fault, err = .evaluation p fault := by
  unfold order at h
  split at h
  · cases h
  · cases h
    exact ⟨_, rfl⟩

theorem exists_fault_of_isWithin {low high : Value} (h : p.isWithin cell low high = .error err) :
    ∃ fault, err = .evaluation p fault := by
  unfold isWithin at h
  split at h
  · cases h
  · rcases bind_eq_error h with h | ⟨lowOrder, _, h⟩
    · exact exists_fault_of_order h
    · split at h
      · cases h
      · rcases bind_eq_error h with h | ⟨highOrder, _, h⟩
        · exact exists_fault_of_order h
        · cases h

theorem exists_fault_of_apply {op : Operator} (h : p.apply op cell = .error err) :
    ∃ fault, err = .evaluation p fault := by
  unfold apply at h
  split at h
  · cases h
  · split at h
    · cases h
    · split at h
      all_goals first
        | exact exists_fault_of_order (map_eq_error_iff.1 h)
        | exact exists_fault_of_isWithin h
        | cases h
      exact ⟨_, rfl⟩

/-- A predicate has no errors but its own. -/
theorem exists_fault_of_answer (h : p.answer cell = .error err) :
    ∃ fault, err = .evaluation p fault := by
  unfold answer at h
  split at h
  · exact exists_fault_of_apply (map_eq_error_iff.1 h)
  · exact exists_fault_of_apply h

end Predicate

namespace Evaluator

variable {places : Places} {c : Compiled} {e : Evaluator}

/-- An evaluator misses the column of the first predicate whose column is not there. -/
theorem new_eq_error_iff {err : FilterError} : new places c = .error err ↔
    ∃ p, IsFirst (fun p => places.find? p.column = none) c.predicates p ∧
      err = .columnNotFound p.column := by
  have habsent : ∀ p : Predicate, (!places.contains p.column) = true ↔ places.find? p.column = none := by
    intro p
    simp [Store.contains]
  have hfind : (c.columns.find? fun name => !places.contains name) =
      (c.predicates.find? fun p => !places.contains p.column).map Predicate.column := by
    rw [Compiled.columns, Compiled.find?_addNames, List.find?_map]
    exact Option.none_or
  have hfirst : ∀ p, (c.predicates.find? fun p => !places.contains p.column) = some p ↔
      IsFirst (fun p => places.find? p.column = none) c.predicates p := by
    intro p
    rw [isFirst_iff_find?]
    simp only [habsent]
  unfold new
  rw [hfind]
  cases hp : c.predicates.find? fun p => !places.contains p.column with
  | none =>
    constructor
    · intro h
      cases h
    · rintro ⟨p, hisFirst, _⟩
      rw [(hfirst p).2 hisFirst] at hp
      cases hp
  | some p =>
    constructor
    · intro h
      cases h
      exact ⟨p, (hfirst p).1 hp, rfl⟩
    · rintro ⟨p', hisFirst, rfl⟩
      rw [((hfirst p).1 hp).unique hisFirst]
      rfl

variable {t : Table} (ht : t.InStep)
include ht

/-- An evaluator for the columns of a table finds its cells in all rows of their width. -/
theorem testLeaf_ne_columnNotFound (hnew : new t.places c = .ok e) {row : Row}
    (hrow : row.length = t.columns.length) {leaf : Nat × Predicate} (hleaf : leaf ∈ e.leaves)
    (seen : List Clash) (name : String) :
    ((e.testLeaf row leaf).run.run seen).1 ≠ .error (.columnNotFound name) := by
  obtain ⟨rfl, hcolumns⟩ := new_eq_ok hnew
  have hp : leaf.2 ∈ c.predicates := by
    rw [Compiled.predicates, ← Formula.map_snd_leaves_number]
    exact List.mem_map_of_mem hleaf
  have hcolumn := ht.contains_iff.1 (hcolumns _ (Compiled.mem_columns.2 ⟨_, hp, rfl⟩))
  obtain ⟨cell, hcell⟩ := ht.cellOf_of_mem hcolumn hrow
  rw [testLeaf_result, answer, hcell]
  intro h
  obtain ⟨fault, hfault⟩ := Predicate.exists_fault_of_answer h
  cases hfault

theorem holds_ne_columnNotFound (hnew : new t.places c = .ok e) {row : Row}
    (hrow : row.length = t.columns.length) (seen : List Clash) (name : String) :
    ((e.holds row).run.run seen).1 ≠ .error (.columnNotFound name) := by
  intro h
  obtain ⟨leaf, hleaf, herr⟩ := exists_leaf_of_holds_error h
  exact testLeaf_ne_columnNotFound ht hnew hrow hleaf [] name (herr [])

end Evaluator

/-- **Tables stay aligned.** However a table came about, its names are distinct, each of them is found just
at its place, and every row has one cell for each of them; a row of another width is refused and changes
nothing, and any other row becomes the last one. Names make a table just if they are distinct. Records
always make one, which holds all of them. So an evaluator for a table is refused exactly for the first
column of its filter that is not there, and one that is not refused never misses a column on a row of the
table. -/
theorem table_stays_aligned :
    (∀ t : Table, t.Built → t.Aligned ∧ ∀ row t',
      (∀ err, (Table.pushRow row).run.run t = (.error err, t') ↔ row.length ≠ t.columns.length ∧
        err = .rowWidth row.length t.columns.length ∧ t' = t) ∧
      ((Table.pushRow row).run.run t = (.ok ⟨⟩, t') ↔ row.length = t.columns.length ∧
        t' = { t with rows := t.rows ++ [row] })) ∧
    (∀ names t, Table.new names = .ok t ↔ names.Nodup ∧ t = .of names []) ∧
    (∀ records, ∃ t, Table.ofRecords records = .ok t ∧
      Table.ofJson (.array (records.map Record.toJson)) = .ok t ∧ t.Keeps records) ∧
    ∀ (t : Table) (c : Compiled), t.Built →
      (∀ err, Evaluator.new t.places c = .error err ↔
        ∃ p, IsFirst (fun p => p.column ∉ t.columns) c.predicates p ∧
          err = .columnNotFound p.column) ∧
      ∀ e, Evaluator.new t.places c = .ok e → ∀ row ∈ t.rows, ∀ seen name,
        (∀ leaf ∈ e.leaves,
          ((e.testLeaf row leaf).run.run seen).1 ≠ .error (.columnNotFound name)) ∧
        ((e.holds row).run.run seen).1 ≠ .error (.columnNotFound name) := by
  refine ⟨?_, fun _ _ => Table.new_eq_ok_iff, ?_, ?_⟩
  · intro t ht
    exact ⟨ht.isValid.aligned, fun row t' =>
      ⟨fun _ => Table.run_pushRow_eq_error_iff, Table.run_pushRow_eq_ok_iff⟩⟩
  · intro records
    have hrecords := Table.ofRecords_eq records
    exact ⟨_, hrecords, (Table.ofJson_records records).trans hrecords, Table.keeps_ofRecords hrecords⟩
  · intro t c ht
    have hstep := ht.isValid.toInStep
    constructor
    · intro err
      have habsent (p : Predicate) : t.places.find? p.column = none ↔ p.column ∉ t.columns :=
        hstep.columnIndex?_eq_none_iff
      rw [Evaluator.new_eq_error_iff]
      simp only [habsent]
    · intro e hnew row hrow seen name
      have hwidth := ht.isValid.width row hrow
      exact ⟨fun _ hleaf => Evaluator.testLeaf_ne_columnNotFound hstep hnew hwidth hleaf seen name,
        Evaluator.holds_ne_columnNotFound hstep hnew hwidth seen name⟩

/-- Two records with different names, then a row that is too short and one that fits. The filter with the
column `k` misses it, though it comes behind another one. -/
theorem table_stays_aligned_records :
    let first : Record := ⟨[("n", .int 1)], by decide⟩
    let second : Record := ⟨[("m", .bool true), ("n", .null)], by decide⟩
    let t : Table := .of ["n", "m"] [[.int 1, .null], [.null, .bool true]]
    let refused := (Table.pushRow [.int 2]).run.run t
    let pushed := (Table.pushRow [.int 2, .null]).run.run refused.2
    let p : Predicate := ⟨"m", .boolean, .null, .none, none, 0⟩
    let q : Predicate := ⟨"k", .integer, .notNull, .none, none, 12⟩
    Table.ofRecords [first, second] = .ok t ∧ t.Built ∧
      refused = (.error (.rowWidth 1 2), t) ∧
      pushed = (.ok ⟨⟩, .of ["n", "m"] [[.int 1, .null], [.null, .bool true], [.int 2, .null]]) ∧
      pushed.2.Built ∧ pushed.2.Aligned ∧
      (∃ e, Evaluator.new pushed.2.places ⟨"", .leaf p⟩ = .ok e ∧ [.int 2, .null] ∈ pushed.2.rows ∧
        ∀ seen name,
          ((e.holds [.int 2, .null]).run.run seen).1 ≠ .error (.columnNotFound name)) ∧
      Evaluator.new pushed.2.places ⟨"", .all [.leaf p, .group (.leaf q)]⟩ =
        .error (.columnNotFound "k") := by
  intro first second t refused pushed p q
  have hrecords : Table.ofRecords [first, second] = .ok t := rfl
  have hbuilt : t.Built := .ofRecords hrecords
  have hbuilt' : pushed.2.Built := (hbuilt.pushRow _).pushRow _
  have hnew : Evaluator.new pushed.2.places ⟨"", .leaf p⟩ =
      .ok ⟨Table.placesOf ["n", "m"], (Formula.leaf p).number⟩ := rfl
  have hrow : [.int 2, .null] ∈ pushed.2.rows := by decide +kernel
  have hk : IsFirst (fun p => p.column ∉ pushed.2.columns) [p, q] q :=
    .tail (by decide +kernel) (.head (by decide +kernel))
  obtain ⟨haligned, _, _, hnews⟩ := table_stays_aligned
  have hrefused : refused = (.error (.rowWidth 1 2), t) :=
    (((haligned t hbuilt).2 [.int 2] t).1 _).2 ⟨by decide, rfl, rfl⟩
  refine ⟨hrecords, hbuilt, hrefused, rfl, hbuilt', (haligned _ hbuilt').1, ⟨_, hnew, hrow, ?_⟩, ?_⟩
  · intro seen name
    exact ((hnews _ _ hbuilt').2 _ hnew _ hrow seen name).2
  · exact ((hnews _ _ hbuilt').1 _).2 ⟨q, hk, rfl⟩

end RowFilter
