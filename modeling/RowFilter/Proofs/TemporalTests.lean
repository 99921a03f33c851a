import RowFilter.Proofs.CalendarOrder
import RowFilter.Proofs.CalendarReaders
import RowFilter.Proofs.ColumnKinds
import RowFilter.Proofs.InferredTypes

/-!
# RowFilter — order tests on columns of dates and times

A column of dates or of times is textual, so the evaluator compares the texts of its cells with the text of
the literal. Where these are written alike, that is the order in time, and `<`, `<=`, `>`, `>=` and `between`
select a period. Where the parts of a date or a time are not padded, it is not. The first holds for every
calendar library that keeps to the documentation of its formats.

Main results:

* `Inference.inTime_eq_compare` — texts that are written alike have their order in time.
* `Inference.inTime_of_spellsDate`, `Inference.inTime_of_spellsTime` — texts have the order of what they spell.
* `Inference.null_or_textType` — what the cells of a temporal column are.
* `temporal_order_of_alike` — what order tests and ranges let through on such a column.
-/

namespace RowFilter

/-! ## Texts of temporal types -/

namespace Inference

open Calendar (Date Parsers SameLayout SpellsDate SpellsTime Time)

/-- The day that a text stands for. -/
def dateOf? [Parsers] (a : String) : Option Date := Parsers.date? dateFormat (Text.trim a.toList)

/-- The time of day that a text stands for, in the first format that it is written in. -/
def timeOf? [Parsers] (a : String) : Option Time :=
  timeFormats.findSome? fun format => Parsers.time? format (Text.trim a.toList)

/-- The order in time of two texts of a type, as days or as times of day. -/
def inTime [Parsers] (type : LogicalType) (a b : String) : Option Ordering :=
  match type with
  | .date => do return (← dateOf? a).order (← dateOf? b)
  | .time => do return (← timeOf? a).order (← timeOf? b)
  | _ => none

/-- Two texts are written alike: in the same layout, and without a minus in front of a year. -/
structure WrittenAlike (a b : String) : Prop where
  layout : SameLayout a.toList b.toList
  unsigned : (Text.trim a.toList).head? ≠ some '-'

theorem isSome_dateOf? [Parsers] {a : String} (h : textType a = .date) :
    (dateOf? a).isSome = true := by
  unfold textType at h
  simp only at h
  split at h
  · cases h
  · split at h
    · assumption
    · split at h <;> cases h

theorem isSome_timeOf? [Parsers] {a : String} (h : textType a = .time) :
    (timeOf? a).isSome = true := by
  unfold textType at h
  simp only at h
  split at h
  · cases h
  · split at h
    · cases h
    · split at h
      · rename_i hany
        rw [timeOf?, List.findSome?_isSome_iff]
        exact List.any_eq_true.1 hany
      · cases h

/-- A text of type `date` spells the day that it stands for. -/
theorem exists_spellsDate [Parsers] (hlaws : Parsers.Laws) {a : String} (h : textType a = .date) :
    ∃ d, dateOf? a = some d ∧ SpellsDate (Text.trim a.toList) d := by
  obtain ⟨d, hd⟩ := Option.isSome_iff_exists.1 (isSome_dateOf? h)
  exact ⟨d, hd, hlaws.date hd⟩

/-- A text of type `time` spells the time of day that it stands for, with its second or without it. -/
theorem exists_spellsTime [Parsers] (hlaws : Parsers.Laws) {a : String} (h : textType a = .time) :
    ∃ t, timeOf? a = some t ∧ SpellsTime (Text.trim a.toList) t := by
  obtain ⟨t, ht⟩ := Option.isSome_iff_exists.1 (isSome_timeOf? h)
  obtain ⟨format, hformat, htime⟩ := List.exists_of_findSome?_eq_some ht
  simp only [timeFormats, List.mem_cons, List.not_mem_nil, or_false] at hformat
  rcases hformat with rfl | rfl
  · exact ⟨t, ht, .inl (hlaws.seconds htime)⟩
  · exact ⟨t, ht, .inr (hlaws.minutes htime)⟩

/-- Days are in the order of the dates that their texts spell, however these are written. -/
theorem inTime_of_spellsDate [Parsers] (hlaws : Parsers.Laws) {a b : String}
    (ha : textType a = .date) (hb : textType b = .date) {d e : Date}
    (hd : SpellsDate (Text.trim a.toList) d) (he : SpellsDate (Text.trim b.toList) e)
    (hunsigned : (Text.trim a.toList).head? ≠ some '-')
    (hunsigned' : (Text.trim b.toList).head? ≠ some '-') :
    inTime .date a b = some (d.order e) := by
  obtain ⟨d', hdate, hspells⟩ := exists_spellsDate hlaws ha
  obtain ⟨e', hdate', hspells'⟩ := exists_spellsDate hlaws hb
  rw [← Text.trimStart_trim] at hunsigned hunsigned'
  rw [inTime, hdate, hdate', hspells.unique hd hunsigned, hspells'.unique he hunsigned']
  rfl

theorem inTime_of_spellsTime [Parsers] (hlaws : Parsers.Laws) {a b : String}
    (ha : textType a = .time) (hb : textType b = .time) {t u : Time}
    (ht : SpellsTime (Text.trim a.toList) t) (hu : SpellsTime (Text.trim b.toList) u) :
    inTime .time a b = some (t.order u) := by
  obtain ⟨t', htime, hspells⟩ := exists_spellsTime hlaws ha
  obtain ⟨u', htime', hspells'⟩ := exists_spellsTime hlaws hb
  rw [inTime, htime, htime', hspells.unique ht, hspells'.unique hu]
  rfl

/-- Texts of a temporal type that are written alike have the order of what they stand for. -/
theorem inTime_eq_compare [Parsers] (hlaws : Parsers.Laws) {type : LogicalType}
    (htype : type = .date ∨ type = .time) {a b : String} (ha : textType a = type)
    (hb : textType b = type) (h : WrittenAlike a b) : inTime type a b = some (compare a b) := by
  obtain ⟨hlayout, hcompare⟩ := h.layout.trim
  rw [← Text.compare_toList, hcompare]
  rcases htype with rfl | rfl
  · obtain ⟨d, hd, hspells⟩ := exists_spellsDate hlaws ha
    obtain ⟨e, he, hspells'⟩ := exists_spellsDate hlaws hb
    have hunsigned : (Text.trimStart (Text.trim a.toList)).head? ≠ some '-' := by
      rw [Text.trimStart_trim]
      exact h.unsigned
    rw [Calendar.compare_of_dates hlayout hunsigned hspells hspells', inTime, hd, he]
    rfl
  · obtain ⟨t, ht, hspells⟩ := exists_spellsTime hlaws ha
    obtain ⟨u, hu, hspells'⟩ := exists_spellsTime hlaws hb
    rw [Calendar.compare_of_times hlayout hspells hspells', inTime, ht, hu]
    rfl

instance (a b : String) : Decidable (WrittenAlike a b) :=
  decidable_of_iff (SameLayout a.toList b.toList ∧ (Text.trim a.toList).head? ≠ some '-')
    ⟨fun h => ⟨h.1, h.2⟩, fun h => ⟨h.layout, h.unsigned⟩⟩

/-- A literal is of a type, and a cell with a text is written like it. -/
structure Suits [Parsers] (type : LogicalType) (literal : String) (cell : Value) : Prop where
  textType_eq : textType literal = type
  alike : ∀ a, cell = .text a → WrittenAlike a literal

/-- A cell is a text that comes before a literal, with it or behind it in time, as a test wants. -/
def standsInTime [Parsers] (type : LogicalType) (test : Ordering → Bool) (cell : Value)
    (literal : String) : Bool :=
  match cell with
  | .text a => (inTime type a literal).any test
  | _ => false

/-- A cell is missing, or it has the order in time that its text has. -/
def Follows [Parsers] (type : LogicalType) (cell : Value) (literal : String) : Prop :=
  cell = .null ∨ ∃ a, cell = .text a ∧ inTime type a literal = some (compare a literal)

/-- The cells of a column that is inferred to be temporal are missing or texts of its type. -/
theorem null_or_textType [Parsers] {vs : List Value} {type : LogicalType}
    (htype : type = .date ∨ type = .time) (h : columnType vs = type) {v : Value} (hv : v ∈ vs) :
    v = .null ∨ ∃ a, v = .text a ∧ textType a = type := by
  -- two different types never join to a date or a time, so every cell is of this one
  have honly : Only (IsTextOf type) vs := by
    have htyped := columnType_eq_iff.1 h
    rcases htype with rfl | rfl
    all_goals
      cases htyped with
      | common _ only => exact only
  by_cases hnull : v = .null
  · exact .inl hnull
  · exact .inr (honly v hv hnull)

end Inference

/-! ## Order tests on temporal columns -/

/-- The operators that compare with one literal, and the orders that they let through. -/
def Operator.orderTests : List (Operator × (Ordering → Bool)) :=
  [(.lt, Ordering.isLT), (.le, Ordering.isLE), (.gt, Ordering.isGT), (.ge, Ordering.isGE)]

namespace Predicate

open Inference (Follows standsInTime)

variable {p : Predicate} {type : LogicalType} {cell : Value} {b low high : String}

/-- Each order operator asks for the order of the cell and its literal. -/
theorem apply_order [Calendar.Parsers] (hp : p.type.isTextual = true) (hoperand : p.operand = .scalar (.text b))
    (h : Follows type cell b) {op : Operator} {test : Ordering → Bool}
    (hop : (op, test) ∈ Operator.orderTests) :
    p.apply op cell = .ok (standsInTime type test cell b) := by
  simp only [Operator.orderTests, List.mem_cons, Prod.mk.injEq, List.not_mem_nil, or_false] at hop
  rcases h with rfl | ⟨a, rfl, htime⟩
  · -- a missing cell passes no test
    rcases hop with ⟨rfl, rfl⟩ | ⟨rfl, rfl⟩ | ⟨rfl, rfl⟩ | ⟨rfl, rfl⟩ <;> rfl
  · have horder : p.order (.text a) (.text b) = .ok (compare a b) := order_of_isTextual rfl hp
    have hstands (test : Ordering → Bool) : standsInTime type test (.text a) b = test (compare a b) := by
      rw [standsInTime, htime, Option.any_some]
    rcases hop with ⟨rfl, rfl⟩ | ⟨rfl, rfl⟩ | ⟨rfl, rfl⟩ | ⟨rfl, rfl⟩
    all_goals
      simp only [apply, Value.isNull, hoperand, horder, hstands, reduceCtorEq, Bool.false_eq_true,
        if_false]
      cases compare a b <;> rfl

/-- A range asks for both orders. -/
theorem apply_between [Calendar.Parsers] (hp : p.type.isTextual = true)
    (hoperand : p.operand = .range (.text low) (.text high)) (hlow : Follows type cell low)
    (hhigh : Follows type cell high) : p.apply .between cell =
      .ok (standsInTime type Ordering.isGE cell low && standsInTime type Ordering.isLE cell high) := by
  rcases hlow with rfl | ⟨a, rfl, hlow⟩
  · rfl
  · obtain hnull | ⟨_, ha, hhigh⟩ := hhigh
    · cases hnull
    cases ha
    have horder (b : String) : p.order (.text a) (.text b) = .ok (compare a b) :=
      order_of_isTextual rfl hp
    rw [apply_range hoperand rfl, standsInTime, standsInTime, hlow, hhigh, Option.any_some,
      Option.any_some]
    simp only [isWithin, horder, Value.isNull, Bool.or_self, Bool.false_eq_true, if_false]
    cases compare a low <;> cases compare a high <;> rfl

end Predicate

/-- A cell of an inferred temporal column follows the literals that suit it. -/
theorem Table.follows_of_suits [Calendar.Parsers] (hlaws : Calendar.Parsers.Laws) {t : Table}
    (ht : t.IsValid) {column : String} {type : LogicalType} (htype : type = .date ∨ type = .time)
    (hschema : t.schema.find? column = some type) {row : Row} (hrow : row ∈ t.rows) {cell : Value}
    (hcell : cellOf t.places column row = .ok cell) {literal : String}
    (h : Inference.Suits type literal cell) : Inference.Follows type cell literal := by
  obtain ⟨i, hi, hinferred⟩ := Table.schema_eq_some ht hschema
  obtain ⟨j, hj, hget⟩ := cellOf_eq_ok hcell
  obtain rfl : i = j := Option.some.inj (hi.symm.trans hj)
  have hmem : cell ∈ t.columnValues i := List.mem_filterMap.2 ⟨row, hrow, hget⟩
  rcases Inference.null_or_textType htype hinferred.symm hmem with hnull | ⟨a, ha, htext⟩
  · exact .inl hnull
  · exact .inr ⟨a, ha, Inference.inTime_eq_compare hlaws htype htext h.textType_eq (h.alike a ha)⟩

namespace Compile

open Inference (Follows standsInTime)
open Literal (NamedLists)
open Query (Clause)

variable {schema : Schema} {places : Places} {c : Clause} {type : LogicalType} {row : Row}
  {cell : Value}

/-- The text of a literal, without the blanks and quotes around it. -/
def literalText (raw : List Char) : String := String.ofList (Literal.unquote raw)

theorem cast_of_textual (raw : List Char) (htextual : type.isTextual = true) :
    Literal.cast raw type = .text (literalText raw) :=
  Literal.cast_of_isTextual raw htextual

/-- The test of a clause that orders a textual column against a literal. -/
def orderPredicate (c : Clause) (type : LogicalType) : Predicate :=
  ⟨c.column, type, c.operator, .scalar (.text (literalText (rawOf c))), c.value, c.offset⟩

theorem gives_order_apply (hschema : schema.find? c.column = some type)
    (htextual : type.isTextual = true) (hcell : cellOf places c.column row = .ok cell)
    (hop : c.operator ∈ Operator.orderTests.map Prod.fst) (lists : NamedLists) (user : String) :
    Gives schema lists user places (.leaf c) row
      ((orderPredicate c type).apply c.operator cell) := by
  have hplain : c.operator.shape = .scalar ∧ c.operator ≠ .is ∧ takesList c.operator = false ∧
      takesRange c.operator = false ∧ c.operator.isText = false ∧ c.operator.negates? = none := by
    revert hop
    generalize c.operator = op
    revert op
    decide
  obtain ⟨hshape, his, hlist, hrange, htext, hpositive⟩ := hplain
  have hcheck : checkClause schema c = .ok (c, type) := by
    rw [checkClause, hschema]
    simp only [Operator.supports, htext, hrange, Bool.not_false, Bool.true_or, if_true,
      Bool.false_eq_true, if_false]
  have hpredicate : plainPredicate user [] (c, type) = .ok (orderPredicate c type) := by
    rw [plainPredicate_scalar hshape his, cast_of_textual _ htextual]
    rfl
  have hgives : Gives schema lists user places (.leaf c) row ((orderPredicate c type).answer cell) :=
    gives_leaf hcheck hlist hpredicate hcell
  rwa [Predicate.answer_of_positive hpositive] at hgives

/-- Such a clause lets a cell through just if it stands in time as the operator asks. -/
theorem gives_order_test [Calendar.Parsers] (hschema : schema.find? c.column = some type)
    (htextual : type.isTextual = true) (hcell : cellOf places c.column row = .ok cell)
    {test : Ordering → Bool} (hop : (c.operator, test) ∈ Operator.orderTests)
    (h : Follows type cell (literalText (rawOf c))) (lists : NamedLists) (user : String) :
    Gives schema lists user places (.leaf c) row
      (.ok (standsInTime type test cell (literalText (rawOf c)))) := by
  have hgives := gives_order_apply hschema htextual hcell (List.mem_map_of_mem (f := Prod.fst) hop)
    lists user
  rwa [Predicate.apply_order (p := orderPredicate c type) htextual rfl h hop] at hgives

/-- A clause on a range of a textual column. -/
theorem gives_between_test [Calendar.Parsers] (hop : c.operator = .between)
    (hschema : schema.find? c.column = some type) (htextual : type.isTextual = true)
    (hcell : cellOf places c.column row = .ok cell) {low high : List Char}
    (hbounds : Literal.bounds (rawOf c) = .ok (low, high))
    (hlow : Follows type cell (literalText low)) (hhigh : Follows type cell (literalText high))
    (lists : NamedLists) (user : String) : Gives schema lists user places (.leaf c) row
      (.ok (standsInTime type Ordering.isGE cell (literalText low) &&
        standsInTime type Ordering.isLE cell (literalText high))) := by
  have hcheck : checkClause schema c = .ok (c, type) := by
    rw [checkClause, hschema, hop]
    show (Literal.bounds (rawOf c)).map _ = _
    rw [hbounds]
    rfl
  let p : Predicate :=
    ⟨c.column, type, c.operator, .range (.text (literalText low)) (.text (literalText high)), c.value,
      c.offset⟩
  have hpredicate : plainPredicate user [] (c, type) = .ok p := by
    rw [plainPredicate_range (by rw [hop]; rfl) hbounds, cast_of_textual _ htextual,
      cast_of_textual _ htextual]
  have hgives : Gives schema lists user places (.leaf c) row (p.answer cell) :=
    gives_leaf hcheck (by rw [hop]; rfl) hpredicate hcell
  have hoperator : p.operator = .between := hop
  rwa [Predicate.answer_of_positive (by rw [hoperator]; rfl), hoperator,
    Predicate.apply_between htextual rfl hlow hhigh] at hgives

end Compile

open Inference (textType WrittenAlike Suits inTime standsInTime)
open Compile (Gives literalText)

/-- **Order on temporal columns.** Texts that are both days, or both times of day, and that are written alike
have the order in time of what they stand for, if the calendar library keeps to its documentation. So on a
column whose type was inferred to be one of the two, an order test or a range whose literals are of that type
lets through exactly the rows that it asks for, as long as the cells are written like the literals; missing
cells are never let through. -/
theorem temporal_order_of_alike [Calendar.Parsers] (hlaws : Calendar.Parsers.Laws) {type : LogicalType}
    (htype : type = .date ∨ type = .time) :
    (∀ a b, textType a = type → textType b = type → WrittenAlike a b →
      inTime type a b = some (compare a b)) ∧
    ∀ (t : Table) (column : String), t.IsValid → t.schema.find? column = some type →
      ∀ row ∈ t.rows, ∀ cell, cellOf t.places column row = .ok cell → ∀ lists user offset,
      (∀ op test, (op, test) ∈ Operator.orderTests → ∀ raw : String,
        Suits type (literalText raw.toList) cell →
        Gives t.schema lists user t.places (.leaf ⟨column, offset, op, some raw⟩) row
          (.ok (standsInTime type test cell (literalText raw.toList)))) ∧
      (∀ raw low high, Literal.bounds raw.toList = .ok (low, high) →
        Suits type (literalText low) cell → Suits type (literalText high) cell →
        Gives t.schema lists user t.places (.leaf ⟨column, offset, .between, some raw⟩) row
          (.ok (standsInTime type Ordering.isGE cell (literalText low) &&
            standsInTime type Ordering.isLE cell (literalText high)))) := by
  have htextual : type.isTextual = true := by rcases htype with rfl | rfl <;> rfl
  refine ⟨fun a b ha hb => Inference.inTime_eq_compare hlaws htype ha hb, ?_⟩
  intro t column ht hschema row hrow cell hcell lists user offset
  have hfollows {literal : String} (h : Suits type literal cell) :
      Inference.Follows type cell literal := Table.follows_of_suits hlaws ht htype hschema hrow hcell h
  constructor
  · intro op test hop raw hsuits
    exact Compile.gives_order_test (c := ⟨column, offset, op, some raw⟩) hschema htextual hcell hop
      (hfollows hsuits) lists user
  · intro raw low high hbounds hlow hhigh
    exact Compile.gives_between_test (c := ⟨column, offset, .between, some raw⟩) rfl hschema htextual
      hcell hbounds (hfollows hlow) (hfollows hhigh) lists user

/-- Two days of one month, in a column with a missing cell. -/
theorem temporal_order_of_alike_days :
    let t : Table := .of ["d"] [[.text "2024-01-09"], [.null]]
    Calendar.Parsers.Laws ∧ t.IsValid ∧ t.schema.find? "d" = some .date ∧
      textType "2024-01-10" = .date ∧ WrittenAlike "2024-01-09" "2024-01-10" ∧
      inTime .date "2024-01-09" "2024-01-10" = some (compare "2024-01-09" "2024-01-10") ∧
      Gives t.schema .empty "u" t.places (.leaf ⟨"d", 0, .lt, some "'2024-01-10'"⟩)
        [.text "2024-01-09"] (.ok true) ∧
      Gives t.schema .empty "u" t.places (.leaf ⟨"d", 0, .lt, some "'2024-01-10'"⟩) [.null]
        (.ok false) := by
  intro t
  have ht : t.IsValid := Table.isValid_of (by decide) (by decide)
  have hschema : t.schema.find? "d" = some .date := by decide +kernel
  have hliteral : literalText "'2024-01-10'".toList = "2024-01-10" := by decide +kernel
  have hday : textType "2024-01-10" = .date := by decide +kernel
  have halike : WrittenAlike "2024-01-09" "2024-01-10" := by decide +kernel
  obtain ⟨htexts, hrows⟩ := temporal_order_of_alike Calendar.laws_readers (.inl (Eq.refl LogicalType.date))
  have htest (cell : Value) (hrow : [cell] ∈ t.rows)
      (h : ∀ a, cell = .text a → WrittenAlike a "2024-01-10") :
      Gives t.schema .empty "u" t.places (.leaf ⟨"d", 0, .lt, some "'2024-01-10'"⟩) [cell]
        (.ok (standsInTime .date Ordering.isLT cell "2024-01-10")) := by
    have hgives := (hrows t "d" ht hschema [cell] hrow cell rfl .empty "u" 0).1 .lt Ordering.isLT
      (by simp [Operator.orderTests]) "'2024-01-10'"
    rw [hliteral] at hgives
    exact hgives ⟨hday, h⟩
  have hbefore : standsInTime .date Ordering.isLT (.text "2024-01-09") "2024-01-10" = true := by
    decide +kernel
  refine ⟨Calendar.laws_readers, ht, hschema, hday, halike, htexts _ _ (by decide +kernel) hday halike, ?_, ?_⟩
  · rw [← hbefore]
    refine htest _ (by simp [t, Table.of]) ?_
    rintro a ha
    cases ha
    exact halike
  · refine htest _ (by simp [t, Table.of]) ?_
    intro a ha
    cases ha

/-- Days and times whose parts are not padded. Both texts of each pair are of one type, and the one that is
earlier in time comes later in the order of the texts, so an order test on the column does not hold. No other
calendar library that keeps to its documentation and reads these texts has them in another order. -/
theorem temporal_order_not_of_unpadded :
    let t : Table := .of ["d"] [[.text "2024-1-9"]]
    Calendar.Parsers.Laws ∧ t.IsValid ∧ t.schema.find? "d" = some .date ∧
      textType "2024-1-9" = .date ∧ textType "2024-1-10" = .date ∧
      inTime .date "2024-1-9" "2024-1-10" = some .lt ∧ compare "2024-1-9" "2024-1-10" = .gt ∧
      Gives t.schema .empty "u" t.places (.leaf ⟨"d", 0, .lt, some "2024-1-10"⟩)
        [.text "2024-1-9"] (.ok false) ∧
      textType "9:05" = .time ∧ textType "10:00" = .time ∧
      inTime .time "9:05" "10:00" = some .lt ∧ compare "9:05" "10:00" = .gt ∧
      ∀ [Calendar.Parsers], Calendar.Parsers.Laws →
        (textType "2024-1-9" = .date → textType "2024-1-10" = .date →
          inTime .date "2024-1-9" "2024-1-10" = some .lt) ∧
        (textType "9:05" = .time → textType "10:00" = .time →
          inTime .time "9:05" "10:00" = some .lt) := by
  intro t
  have ht : t.IsValid := Table.isValid_of (by decide) (by decide)
  have hschema : t.schema.find? "d" = some .date := by decide +kernel
  have hlater : compare "2024-1-9" "2024-1-10" = .gt := by decide +kernel
  have hgives : Gives t.schema .empty "u" t.places (.leaf ⟨"d", 0, .lt, some "2024-1-10"⟩)
      [.text "2024-1-9"] (.ok false) := by
    have hliteral : literalText "2024-1-10".toList = "2024-1-10" := by decide +kernel
    have happly : Gives t.schema .empty "u" t.places (.leaf ⟨"d", 0, .lt, some "2024-1-10"⟩)
        [.text "2024-1-9"] ((Compile.orderPredicate ⟨"d", 0, .lt, some "2024-1-10"⟩ .date).apply .lt
          (.text "2024-1-9")) :=
      Compile.gives_order_apply hschema rfl rfl (by simp [Operator.orderTests]) .empty "u"
    have hfalse : (Compile.orderPredicate ⟨"d", 0, .lt, some "2024-1-10"⟩ .date).apply .lt
        (.text "2024-1-9") = .ok false := by
      show ((Compile.orderPredicate ⟨"d", 0, .lt, some "2024-1-10"⟩ .date).order (.text "2024-1-9")
        (.text (literalText "2024-1-10".toList))).map (· == .lt) = _
      rw [hliteral, Predicate.order_of_isTextual rfl rfl]
      show Except.ok (compare "2024-1-9" "2024-1-10" == .lt) = _
      rw [hlater]
      rfl
    rwa [hfalse] at happly
  -- the texts spell the same days and times in every library
  have hnumber (digits : String) (n : Nat) (h : digits.toList.all Decimal.isDigit = true ∧
      1 ≤ digits.toList.length ∧ n = Decimal.digitsValue 0 digits.toList) :
      Calendar.SpellsNumber ([] ++ digits.toList) n :=
    .of_digits (List.forall_mem_nil _) ⟨List.all_eq_true.1 h.1, h.2⟩
  have hday (day : String) {n : Nat} (h : Calendar.SpellsNumber day.toList n) :
      Calendar.SpellsDate ("2024-1-".toList ++ day.toList) ⟨2024, 1, n⟩ :=
    ⟨"2024".toList, "1".toList, day.toList, rfl, .unsigned (hnumber "2024" 2024 (by decide)),
      hnumber "1" 1 (by decide), h⟩
  have hminutes (hour minute : String) {m n : Nat} (hm : Calendar.SpellsNumber hour.toList m)
      (hn : Calendar.SpellsNumber minute.toList n) :
      Calendar.SpellsTime (hour.toList ++ ':' :: minute.toList) ⟨m, n, 0⟩ :=
    .inr ⟨hour.toList, minute.toList, rfl, hm, hn, rfl⟩
  refine ⟨Calendar.laws_readers, ht, hschema, by decide +kernel, by decide +kernel,
    by decide +kernel, hlater, hgives, by decide +kernel, by decide +kernel, by decide +kernel,
    by decide +kernel, ?_⟩
  intro _ hlaws
  constructor
  · intro hnine hten
    exact Inference.inTime_of_spellsDate hlaws hnine hten
      (hday "9" (hnumber "9" 9 (by decide))) (hday "10" (hnumber "10" 10 (by decide)))
      (by decide +kernel) (by decide +kernel)
  · intro hnine hten
    exact Inference.inTime_of_spellsTime hlaws hnine hten
      (hminutes "9" "05" (hnumber "9" 9 (by decide)) (hnumber "05" 5 (by decide)))
      (hminutes "10" "00" (hnumber "10" 10 (by decide)) (hnumber "00" 0 (by decide)))

end RowFilter
