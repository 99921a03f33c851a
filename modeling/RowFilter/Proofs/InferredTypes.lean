import RowFilter.Catalog
import RowFilter.Evaluate
import RowFilter.Literal.Cast

/-!
# RowFilter — what inferred types promise

A column of an inferred type holds only cells that its type admits: whole numbers in an `integer` column,
numbers of both sorts in a `float` column, truth values in a `boolean` one, and missing cells everywhere;
all other mixes have a type that compares as text. A literal that reads as a value of a numeric or boolean
type is of the same sort, and never an infinity. So a cell and a literal of such a type always have an
order, unless the literal did not read and stayed a text.

Main results:

* `Inference.admits_columnType` — the inferred type of a column admits each of its cells.
* `Table.admits_of_schema` — the same for a schema that was inferred from a table.
* `Literal.read?_eq_none_of_unordered` — only a literal that stayed a text has no order with a cell.
-/

namespace RowFilter

/-! ## Cells of a type -/

namespace LogicalType

/-- The cells that a column may hold when this is its inferred type. -/
inductive Admits : LogicalType → Value → Prop
  | null (type : LogicalType) : Admits type .null
  | bool (b : Bool) : Admits .boolean (.bool b)
  | int (i : Int64) : Admits .integer (.int i)
  /-- A whole number among decimal ones. -/
  | widened (i : Int64) : Admits .float (.int i)
  | float (x : Binary64) : Admits .float (.float x)
  | textual {type : LogicalType} (h : type.isTextual = true) (v : Value) : Admits type v

end LogicalType

namespace Inference

open Calendar (Parsers)
open LogicalType (Admits)

/-- A cell that is not missing is admitted by its own type. -/
theorem admits_kind [Parsers] {v : Value} {type : LogicalType} (h : kind v = some type) : type.Admits v := by
  cases v with
  | null => cases h
  | bool b =>
    cases h
    exact .bool b
  | int i =>
    cases h
    exact .int i
  | float x =>
    cases h
    exact .float x
  | text s =>
    cases h
    exact .textual (isTextual_textType s) _

/-- What one of two types admits, the type of both together admits. -/
theorem admits_join {a b both : LogicalType} {v : Value} (hjoin : join a b = some both)
    (h : a.Admits v) : both.Admits v := by
  unfold join at hjoin
  split at hjoin
  · cases hjoin
    exact h
  · split at hjoin
    · rename_i hmix
      cases hjoin
      rcases hmix with ⟨rfl, rfl⟩ | ⟨rfl, rfl⟩
      · -- a whole number among decimal ones
        cases h with
        | null => exact .null _
        | int i => exact .widened i
        | textual htextual => cases htextual
      · exact h
    · split at hjoin
      · cases hjoin
        exact .textual rfl v
      · cases hjoin

/-- The scan never forgets: what the type so far admits and what is still to come are admitted by the
type in the end. -/
theorem admits_columnTypeFrom [Parsers] {seen : LogicalType} {vs : List Value} {v : Value}
    (h : seen.Admits v ∨ v ∈ vs) : (columnTypeFrom seen vs).Admits v := by
  -- induction on the cells that are still to come, for every type so far
  induction vs generalizing seen with
  | nil =>
    rcases h with h | h
    · exact h
    · cases h
  | cons w vs ih =>
    unfold columnTypeFrom
    cases hkind : kind w with
    | none =>
      rcases h with h | h
      · exact ih (.inl h)
      · rcases List.mem_cons.1 h with rfl | h
        · rw [(kind_null v).1 hkind]
          exact .null _
        · exact ih (.inr h)
    | some type =>
      simp only
      cases hjoin : join seen type with
      -- the scan ends here, and `unknown` admits everything
      | none => exact .textual rfl v
      | some both =>
        refine ih ?_
        rcases h with h | h
        · exact .inl (admits_join hjoin h)
        · rcases List.mem_cons.1 h with rfl | h
          · -- the cell at hand is on the other side of the join
            rw [join_comm] at hjoin
            exact .inl (admits_join hjoin (admits_kind hkind))
          · exact .inr h

/-- The inferred type of a column admits each of its cells. -/
theorem admits_columnType [Parsers] {vs : List Value} {v : Value} (h : v ∈ vs) : (columnType vs).Admits v := by
  induction vs with
  | nil => cases h
  | cons w vs ih =>
    unfold columnType
    cases hkind : kind w with
    | none =>
      rcases List.mem_cons.1 h with rfl | h
      · rw [(kind_null v).1 hkind]
        exact .null _
      · exact ih h
    | some type =>
      show (columnTypeFrom type vs).Admits v
      rcases List.mem_cons.1 h with rfl | h
      · exact admits_columnTypeFrom (.inl (admits_kind hkind))
      · exact admits_columnTypeFrom (.inr h)

/-! ## Inferred schemas -/

theorem mem_schemaFrom [Parsers] {t : Table} {index : Nat} {names : List String} {name : String}
    {type : LogicalType} (h : (name, type) ∈ schemaFrom t index names) :
    ∃ i, names[i]? = some name ∧ type = columnType (t.columnValues (index + i)) := by
  induction names generalizing index with
  | nil => cases h
  | cons first names ih =>
    rcases List.mem_cons.1 h with heq | h
    · cases heq
      exact ⟨0, rfl, rfl⟩
    · obtain ⟨i, hi, htype⟩ := ih h
      have hplace : index + 1 + i = index + (i + 1) := by omega
      rw [hplace] at htype
      exact ⟨i + 1, by rw [List.getElem?_cons_succ, hi], htype⟩

end Inference

/-- An inferred schema gives a column the type of the cells at its place. -/
theorem Table.schema_eq_some [Calendar.Parsers] {t : Table} (ht : t.IsValid) {name : String}
    {type : LogicalType} (h : t.schema.find? name = some type) :
    ∃ i, t.columnIndex? name = some i ∧ type = Inference.columnType (t.columnValues i) := by
  obtain ⟨i, hi, htype⟩ := Inference.mem_schemaFrom (Store.mem_of_find?_ofList h)
  rw [Nat.zero_add] at htype
  exact ⟨i, ht.columnIndex?_eq_some_iff.2 hi, htype⟩

/-- A schema that was inferred from a table admits the cells of the table. -/
theorem Table.admits_of_schema [Calendar.Parsers] {t : Table} (ht : t.IsValid) {name : String}
    {type : LogicalType} (htype : t.schema.find? name = some type) {row : Row} (hrow : row ∈ t.rows)
    {cell : Value} (hcell : cellOf t.places name row = .ok cell) : type.Admits cell := by
  obtain ⟨i, hi, rfl⟩ := Table.schema_eq_some ht htype
  obtain ⟨j, hj, hget⟩ := cellOf_eq_ok hcell
  -- the schema and the row look at the same place
  obtain rfl : i = j := Option.some.inj (hi.symm.trans hj)
  exact Inference.admits_columnType (List.mem_filterMap.2 ⟨row, hrow, hget⟩)

/-! ## Numbers that have an order -/

namespace Binary64

theorem word_ofWord (neg : Bool) {w : Nat} (h : w < signBit) : (ofWord neg w).word = w := by
  unfold word ofWord
  unfold signBit at *
  -- the sign is the one bit above the magnitude, and both fit the word
  cases neg with
  | false =>
    simp only [Bool.false_eq_true, if_false, UInt64.toNat_ofNat']
    omega
  | true =>
    simp only [if_true, UInt64.toNat_ofNat']
    omega

theorem isNaN_ofRatio (neg : Bool) (num den : Nat) : (ofRatio neg num den).isNaN = false := by
  -- what is too large for the format rounds to infinity at most
  have hle : nearestWord num den ≤ infinityWord := Nat.min_le_right _ _
  have hlt : nearestWord num den < signBit := Nat.lt_of_le_of_lt hle (by decide)
  rw [isNaN, ofRatio, word_ofWord neg hlt]
  simp only [decide_eq_false_iff_not]
  omega

theorem isNaN_of_isFinite {x : Binary64} (h : x.isFinite = true) : x.isNaN = false := by
  simp only [isFinite, isNaN, decide_eq_true_eq, decide_eq_false_iff_not] at *
  omega

end Binary64

namespace Value

/-- A number that has a place in the order of numbers. -/
def IsNumber (v : Value) : Prop := ∃ x, v.number? = some x ∧ x.isNaN = false

theorem isNumber_int (i : Int64) : (int i).IsNumber := ⟨_, rfl, Binary64.isNaN_ofRatio _ _ _⟩

theorem isNumber_float {x : Binary64} (h : x.isNaN = false) : (float x).IsNumber := ⟨x, rfl, h⟩

/-- Two numbers have an order. -/
theorem IsNumber.compare? {a b : Value} (ha : a.IsNumber) (hb : b.IsNumber) :
    a.compare? b ≠ none := by
  obtain ⟨x, hx, hxn⟩ := ha
  obtain ⟨y, hy, hyn⟩ := hb
  have horder : x.compare? y ≠ none := by simp [Binary64.compare?, hxn, hyn]
  cases a with
  | null | bool | text => cases hx
  | int i =>
    cases b with
    | null | bool | text => cases hy
    -- two integers compare as such, and all other numbers as floating-point ones
    | int j => simp [Value.compare?]
    | float y' =>
      cases hx
      cases hy
      exact horder
  | float x' =>
    cases b with
    | null | bool | text => cases hy
    | int j | float y' =>
      cases hx
      cases hy
      exact horder

end Value

/-! ## Literals of a type -/

namespace Literal

open LogicalType (Admits)

theorem isNumber_of_readFinite? {s : List Char} {v : Value}
    (h : (readFinite? s).map Value.float = some v) : v.IsNumber := by
  obtain ⟨x, hx, rfl⟩ := Option.map_eq_some_iff.1 h
  exact Value.isNumber_float (Binary64.isNaN_of_isFinite (Option.filter_eq_some_iff.1 hx).2)

/-- A cell that an inferred numeric or boolean type admits has an order with every literal that reads as
a value of the type. -/
theorem compare?_of_read? {type : LogicalType} {cell literal : Value} {s : List Char}
    (htype : type.isTextual = false) (hadmits : type.Admits cell) (hcell : cell.isNull = false)
    (hnan : ∀ x, cell = .float x → x.isNaN = false) (hread : read? type s = some literal) :
    cell.compare? literal ≠ none := by
  cases hadmits with
  | null => cases hcell
  | textual htextual =>
    rw [htextual] at htype
    cases htype
  | bool b =>
    obtain ⟨b', _, rfl⟩ := Option.map_eq_some_iff.1 hread
    simp [Value.compare?]
  | int i =>
    refine (Value.isNumber_int i).compare? ?_
    -- a whole number, or else a decimal one
    rcases Option.or_eq_some_iff.1 hread with hint | ⟨_, hfloat⟩
    · obtain ⟨j, _, rfl⟩ := Option.map_eq_some_iff.1 hint
      exact Value.isNumber_int j
    · exact isNumber_of_readFinite? hfloat
  | widened i => exact (Value.isNumber_int i).compare? (isNumber_of_readFinite? hread)
  | float x =>
    exact (Value.isNumber_float (hnan x rfl)).compare? (isNumber_of_readFinite? hread)

/-- A literal that has no order with such a cell did not read as a value of the type. -/
theorem read?_eq_none_of_unordered {type : LogicalType} {cell : Value} {raw : List Char}
    (htype : type.isTextual = false) (hadmits : type.Admits cell) (hcell : cell.isNull = false)
    (hnan : ∀ x, cell = .float x → x.isNaN = false) (h : cell.compare? (cast raw type) = none) :
    read? type (unquote raw) = none := by
  cases hread : read? type (unquote raw) with
  | none => rfl
  | some literal =>
    have hcast : cast raw type = literal := by rw [cast, hread, Option.getD_some]
    rw [hcast] at h
    exact absurd h (compare?_of_read? htype hadmits hcell hnan hread)

theorem cast_of_read?_eq_none {raw : List Char} {type : LogicalType}
    (h : read? type (unquote raw) = none) : cast raw type = .text (String.ofList (unquote raw)) := by
  rw [cast, h, Option.getD_none]

/-- A literal that does not read as a value of its type is reported. -/
theorem events_castTraced_of_read?_eq_none {raw : List Char} {type : LogicalType}
    (h : read? type (unquote raw) = none) : (castTraced raw type).events =
      [.castFallback (String.ofList (unquote raw)) type] := by
  have hnone : (read? type (unquote raw)).isNone = true := by rw [h, Option.isNone_none]
  simp only [castTraced, hnone, if_true]
  rfl

end Literal

end RowFilter
