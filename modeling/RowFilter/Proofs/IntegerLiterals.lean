import Mathlib.Data.List.Induction
import Mathlib.Data.Nat.Digits.Defs
import RowFilter.Proofs.CompoundTests
import RowFilter.Proofs.InferredTypes
import RowFilter.Proofs.NamedLists
import RowFilter.Proofs.NumericOrder

/-!
# RowFilter — integers in literals

A numeral is a sign, or none, and digits. It stands for the sum of its digits by their places, and there may
be any number of them. A literal of an integer column is an integer just if what is left of it without
blanks and quotes is a numeral whose number fits a word with a sign; a numeral whose number does not fit is
taken for a floating-point number, never for another integer.

Integers are written as numerals. So the text of an integer is read back as that integer, and a clause that
compares a column with it holds for the cells that are equal to it and for no other integers.

Main results:

* `readInt?_eq_some_iff` — which texts are read as integers, and as which.
* `Literal.cast_integer_eq_int_iff` — which literals are integers.
* `isNumeral_toString` — an integer is written as a numeral.
* `Compile.gives_integer_equation` — an equation with a numeral is exact.
-/

namespace RowFilter

namespace Decimal

/-! ## Numerals -/

/-- The sum of digits by their places: ones, tens, hundreds and so on from the end. -/
def placeValue (ds : List Char) : Nat := Nat.ofDigits 10 (ds.reverse.map digitValue)

/-- One ASCII digit or more. -/
def IsDigits (ds : List Char) : Prop := ds ≠ [] ∧ ∀ d ∈ ds, isDigit d = true

/-- A text is a numeral that stands for a number. -/
inductive IsNumeral : List Char → Int → Prop
  | plain {ds : List Char} : IsDigits ds → IsNumeral ds (placeValue ds)
  | plus {ds : List Char} : IsDigits ds → IsNumeral ('+' :: ds) (placeValue ds)
  | minus {ds : List Char} : IsDigits ds → IsNumeral ('-' :: ds) (-placeValue ds)

instance (ds : List Char) : Decidable (IsDigits ds) :=
  decidable_of_iff (ds ≠ [] ∧ ds.all isDigit = true) (and_congr_right fun _ => List.all_eq_true)

theorem digitsValue_eq_placeValue (ds : List Char) : digitsValue 0 ds = placeValue ds := by
  induction ds using List.reverseRecOn with
  | nil => rfl
  | append_singleton ds d ih =>
    rw [digitsValue_append, ih, placeValue, placeValue, List.reverse_append]
    show 10 * Nat.ofDigits 10 (ds.reverse.map digitValue) + digitValue d = _
    rw [List.reverse_singleton, List.singleton_append, List.map_cons, Nat.ofDigits_cons, Nat.add_comm]

theorem IsDigits.not_sign {c : Char} {ds : List Char} (h : IsDigits (c :: ds)) :
    c ≠ '-' ∧ c ≠ '+' := by
  have hc := h.2 c List.mem_cons_self
  constructor
  · rintro rfl
    cases hc
  · rintro rfl
    cases hc

theorem splitSign_of_isDigits {ds : List Char} (h : IsDigits ds) : splitSign ds = (false, ds) := by
  cases ds with
  | nil => exact absurd rfl h.1
  | cons c ds =>
    obtain ⟨hminus, hplus⟩ := h.not_sign
    unfold splitSign
    split
    · rename_i he
      exact absurd (List.cons.inj he).1 hminus
    · rename_i he
      exact absurd (List.cons.inj he).1 hplus
    · rfl

theorem eq_of_splitSign {s ds : List Char} {negative : Bool} (h : splitSign s = (negative, ds)) :
    (negative = true ∧ s = '-' :: ds) ∨ (negative = false ∧ (s = '+' :: ds ∨ s = ds)) := by
  unfold splitSign at h
  split at h
  · cases h
    exact .inl ⟨rfl, rfl⟩
  · cases h
    exact .inr ⟨rfl, .inl rfl⟩
  · cases h
    exact .inr ⟨rfl, .inr rfl⟩

/-- Behind the sign only digits are read. -/
theorem readInt?_of_splitSign {s ds : List Char} {negative : Bool}
    (h : splitSign s = (negative, ds)) : readInt? s =
      if IsDigits ds then some (if negative then -(placeValue ds : Int) else placeValue ds)
      else none := by
  have hdigits : IsDigits ds ↔ ¬ (ds.isEmpty || !ds.all isDigit) = true := by
    simp [IsDigits]
  rw [readInt?, h]
  simp only [hdigits, digitsValue_eq_placeValue, ite_not]

/-- Exactly the numerals are read as integers, each as the number that it stands for. -/
theorem readInt?_eq_some_iff {s : List Char} {n : Int} : readInt? s = some n ↔ IsNumeral s n := by
  constructor
  · intro h
    rcases hsplit : splitSign s with ⟨negative, ds⟩
    rw [readInt?_of_splitSign hsplit] at h
    split at h
    · rename_i hds
      obtain ⟨rfl, rfl⟩ | ⟨rfl, rfl | rfl⟩ := eq_of_splitSign hsplit
      · cases h
        exact .minus hds
      · cases h
        exact .plus hds
      · cases h
        exact .plain hds
    · cases h
  · intro h
    cases h with
    | plain hds =>
      rw [readInt?_of_splitSign (splitSign_of_isDigits hds), if_pos hds]
      rfl
    | plus hds =>
      rw [readInt?_of_splitSign (splitSign.eq_2 _), if_pos hds]
      rfl
    | minus hds =>
      rw [readInt?_of_splitSign (splitSign.eq_1 _), if_pos hds]
      rfl

/-- A numeral stands for one number. -/
theorem IsNumeral.unique {s : List Char} {m n : Int} (hm : IsNumeral s m) (hn : IsNumeral s n) :
    m = n :=
  Option.some.inj ((readInt?_eq_some_iff.2 hm).symm.trans (readInt?_eq_some_iff.2 hn))

/-! ## Integers are written as numerals -/

theorem isDigits_toDigits (n : Nat) : IsDigits (Nat.toDigits 10 n) :=
  ⟨Nat.toDigits_ne_nil, fun _ hd => Nat.isDigit_of_mem_toDigits (by decide) (by decide) hd⟩

theorem placeValue_toDigits (n : Nat) : placeValue (Nat.toDigits 10 n) = n := by
  rw [← digitsValue_eq_placeValue]
  exact Nat.ofDigitChars_toDigits (by decide) (by decide)

theorem isNumeral_toString (i : Int) : IsNumeral (toString i).toList i := by
  cases i with
  | ofNat n =>
    show IsNumeral n.repr.toList n
    rw [Nat.repr_eq_ofList_toDigits, String.toList_ofList]
    have h := IsNumeral.plain (isDigits_toDigits n)
    rwa [placeValue_toDigits] at h
  | negSucc n =>
    have hwritten : (toString (Int.negSucc n)).toList = '-' :: Nat.toDigits 10 (n + 1) := by
      show ("-" ++ (n + 1).repr).toList = _
      rw [String.toList_append, Nat.repr_eq_ofList_toDigits, String.toList_ofList,
        String.toList_ofList, List.singleton_append]
    have h := IsNumeral.minus (isDigits_toDigits (n + 1))
    rw [placeValue_toDigits] at h
    rw [hwritten]
    exact h

/-- A numeral consists of digits and signs. -/
theorem not_mem_of_isNumeral {s : List Char} {n : Int} (h : IsNumeral s n) {c : Char}
    (hc : isDigit c = false) (hplus : c ≠ '+') (hminus : c ≠ '-') : c ∉ s := by
  have hdigits : ∀ {ds}, IsDigits ds → c ∉ ds := by
    intro ds hds hmem
    rw [hds.2 c hmem] at hc
    cases hc
  cases h with
  | plain hds => exact hdigits hds
  | plus hds => exact List.not_mem_cons_of_ne_of_not_mem hplus (hdigits hds)
  | minus hds => exact List.not_mem_cons_of_ne_of_not_mem hminus (hdigits hds)

end Decimal

/-! ## Literals of integer columns -/

namespace Literal

open Decimal (IsNumeral)

variable {raw : List Char} {n : Int} {i : Int64}

theorem readInt64?_eq_some_iff {s : List Char} : readInt64? s = some i ↔ IsNumeral s i.toInt := by
  rw [readInt64?, Option.bind_eq_some_iff, ← Decimal.readInt?_eq_some_iff]
  constructor
  · rintro ⟨n, hn, hi⟩
    rw [hn, toInt64?_eq_some_iff.1 hi]
  · intro h
    exact ⟨i.toInt, h, toInt64?_eq_some_iff.2 rfl⟩

/-- A literal of an integer column is an integer just if it is a numeral for that integer. -/
theorem cast_integer_eq_int_iff : cast raw .integer = .int i ↔ IsNumeral (unquote raw) i.toInt := by
  rw [← readInt64?_eq_some_iff, cast]
  show (((readInt64? (unquote raw)).map Value.int).or
    ((readFinite? (unquote raw)).map Value.float)).getD _ = _ ↔ _
  cases hint : readInt64? (unquote raw) with
  | some j => simp
  | none =>
    -- a floating-point number or a text
    cases readFinite? (unquote raw) <;> simp

/-- A numeral is an integer just if its number fits a word with a sign. -/
theorem exists_cast_integer_iff (h : IsNumeral (unquote raw) n) :
    (∃ i, cast raw .integer = .int i) ↔ -2 ^ 63 ≤ n ∧ n ≤ 2 ^ 63 - 1 := by
  constructor
  · rintro ⟨i, hi⟩
    obtain rfl := h.unique (cast_integer_eq_int_iff.1 hi)
    exact ⟨i.le_toInt, Int.le_sub_one_of_lt i.toInt_lt⟩
  · rintro ⟨hlow, hhigh⟩
    refine ⟨Int64.ofInt n, cast_integer_eq_int_iff.2 ?_⟩
    rwa [Int64.toInt_ofInt_of_le hlow (Int.lt_of_le_sub_one hhigh)]

/-- The text of an integer has no blanks or quotes around it. -/
theorem unquote_intText (i : Int64) :
    unquote (Value.int i).toText.toList = (toString i.toInt).toList :=
  unquote_eq_self_iff.2 (isBare_of_isPlain (Decimal.all_isPlain_intRepr i.toInt))

theorem cast_intText (i : Int64) : cast (Value.int i).toText.toList .integer = .int i := by
  rw [cast_integer_eq_int_iff, unquote_intText]
  exact Decimal.isNumeral_toString i.toInt

end Literal

/-! ## Equations on integer columns -/

theorem Predicate.equals_int {p : Predicate} (hp : p.type = .integer) (i j : Int64) :
    p.equals (.int i) (.int j) = decide (i = j) := by
  have horder : p.order? (.int i) (.int j) = some (compare (i.toInt : ℚ) (j.toInt : ℚ)) := by
    rw [Predicate.order?, hp, ← Value.compare?_int]
    rfl
  rw [Predicate.equals, horder, Bool.eq_iff_iff, beq_iff_eq, Option.some.injEq, compare_eq_iff_eq,
    Int.cast_inj, Int64.toInt_inj, decide_eq_true_iff]

namespace Query

open Text (occursIn)

/-- A literal without quotes ends at the first closing brace. -/
theorem cutBalanced_of_quoteless {s : List Char} (hsingle : '\'' ∉ s) (hdouble : '"' ∉ s)
    (hclose : closeBrace ∉ s) (fresh : Bool) (after : List Char) :
    cutBalanced ⟨none, fresh⟩ (s ++ closeBrace :: after) = some (s, after) := by
  induction s generalizing fresh with
  | nil => simp [cutBalanced]
  | cons c s ih =>
    rw [List.mem_cons, not_or] at hsingle hdouble hclose
    -- no quote opens at this character
    have hstep : ∃ fresh', ElementState.step ⟨none, fresh⟩ c = ⟨none, fresh'⟩ := by
      simp only [ElementState.step, Ne.symm hsingle.1, Ne.symm hdouble.1, decide_false, Bool.or_self,
        Bool.false_and, Bool.false_eq_true, if_false]
      split
      · exact ⟨_, rfl⟩
      · split <;> exact ⟨_, rfl⟩
    obtain ⟨fresh', hstep⟩ := hstep
    rw [List.cons_append, cutBalanced, if_neg (by simp [Ne.symm hclose.1]), hstep,
      ih hsingle.2 hdouble.2 hclose.2]
    rfl

/-- A comparison with a numeral is read as it stands. -/
theorem parse_numeral {column literal : String} {n : Int} (hne : column.toList ≠ [])
    (htrim : Text.trim column.toList = column.toList) (hcolumn : closeBrace ∉ column.toList)
    (h : Decimal.IsNumeral literal.toList n) :
    parse (comparison column literal) = .ok (.leaf ⟨column, 0, .eq, some literal⟩) := by
  have hnot {c : Char} := Decimal.not_mem_of_isNumeral h (c := c)
  refine (readAs_comparison hne htrim hcolumn ?_ ?_).parse_eq_ok
  · rw [cutLiteral, ElementState.start, cutBalanced_of_quoteless (hnot rfl (by decide) (by decide))
      (hnot rfl (by decide) (by decide)) (hnot rfl (by decide) (by decide))]
    rfl
  · rw [← Bool.not_eq_true, Text.occursIn_iff]
    rintro ⟨before, after, hliteral⟩
    exact hnot (c := '#') rfl (by decide) (by decide) (by simp [hliteral])

end Query

namespace Compile

open Query (Clause)
open Literal (NamedLists)

/-- An equation with a numeral holds for the cell that is its number, and for no other integer. -/
theorem gives_integer_equation {schema : Schema} {places : Places} {c : Clause} {row : Row}
    {i k : Int64} (hop : c.operator = .eq) (hschema : schema.find? c.column = some .integer)
    (hcell : cellOf places c.column row = .ok (.int k))
    (hliteral : Decimal.IsNumeral (Literal.unquote (rawOf c)) i.toInt) (lists : NamedLists)
    (user : String) : Gives schema lists user places (.leaf c) row (.ok (decide (k = i))) := by
  let p : Predicate := ⟨c.column, .integer, .eq, .scalar (.int i), c.value, c.offset⟩
  have hgives : Gives schema lists user places (.leaf c) row
      (.ok (false ^^ (!(Value.int k).isNull && p.equals (.int k) (Literal.cast (rawOf c) .integer)))) :=
    gives_equation false hop hschema hcell rfl
  rw [Literal.cast_integer_eq_int_iff.2 hliteral, Predicate.equals_int rfl, Bool.false_xor] at hgives
  exact hgives

end Compile

open Query (comparison closeBrace parse)
open Compile (Gives)
open Decimal (IsNumeral)

/-- **Integer literals.** A literal of an integer column is an integer just if it is a numeral for it, so a
numeral whose number does not fit 64 bits is no integer at all. The text of an integer is cast back to that
integer. So a query that compares a column with the text is read as that comparison, and where the schema
has the column as integer, the query is true of an integer cell just if the cell is the integer. -/
theorem integer_literals_exact :
    (∀ raw i, Literal.cast raw .integer = .int i ↔ IsNumeral (Literal.unquote raw) i.toInt) ∧
    (∀ raw n, IsNumeral (Literal.unquote raw) n →
      ((∃ i, Literal.cast raw .integer = .int i) ↔ -2 ^ 63 ≤ n ∧ n ≤ 2 ^ 63 - 1)) ∧
    (∀ i, Literal.cast (Value.int i).toText.toList .integer = .int i) ∧
    (∀ (i : Int64) (column : String), column.toList ≠ [] →
      Text.trim column.toList = column.toList → closeBrace ∉ column.toList →
      ∃ f, parse (comparison column (Value.int i).toText) = .ok f ∧
        ∀ schema lists user places row k, schema.find? column = some .integer →
          cellOf places column row = .ok (.int k) →
          Gives schema lists user places f row (.ok (decide (k = i)))) := by
  refine ⟨fun raw i => Literal.cast_integer_eq_int_iff, fun raw n => Literal.exists_cast_integer_iff,
    Literal.cast_intText, ?_⟩
  intro i column hne htrim hcolumn
  have htext : IsNumeral (Value.int i).toText.toList i.toInt := Decimal.isNumeral_toString i.toInt
  refine ⟨_, Query.parse_numeral hne htrim hcolumn htext, ?_⟩
  intro schema lists user places row k hschema hcell
  refine Compile.gives_integer_equation rfl hschema hcell ?_ lists user
  show IsNumeral (Literal.unquote (Value.int i).toText.toList) i.toInt
  rw [Literal.unquote_intText]
  exact htext

/-- The least integer, written with a sign, and the number below it, in quotes and with zeros in front. -/
theorem integer_literals_exact_least :
    let least : Int64 := Int64.minValue
    let places := Table.placesOf ["n"]
    let schema : Schema := ⟨[("n", .integer)]⟩
    Literal.cast " -9223372036854775808 ".toList .integer = .int least ∧
      (∀ i, Literal.cast "'-0009223372036854775809'".toList .integer ≠ .int i) ∧
      ∃ f, parse (comparison "n" "-9223372036854775808") = .ok f ∧
        Gives schema .empty "u" places f [.int least] (.ok true) ∧
        Gives schema .empty "u" places f [.int (least + 1)] (.ok false) := by
  intro least places schema
  obtain ⟨hcast, hrange, _, hquery⟩ := integer_literals_exact
  have hleast : Literal.cast " -9223372036854775808 ".toList .integer = .int least := by
    refine (hcast _ _).2 ?_
    have hunquote : Literal.unquote " -9223372036854775808 ".toList =
        '-' :: "9223372036854775808".toList := by decide +kernel
    rw [hunquote]
    exact .minus (by decide +kernel)
  have hbelow : ∀ i, Literal.cast "'-0009223372036854775809'".toList .integer ≠ .int i := by
    have hunquote : Literal.unquote "'-0009223372036854775809'".toList =
        '-' :: "0009223372036854775809".toList := by decide +kernel
    have hnumeral : IsNumeral (Literal.unquote "'-0009223372036854775809'".toList)
        (-9223372036854775809) := by
      rw [hunquote]
      exact .minus (by decide +kernel)
    intro i hi
    exact absurd ((hrange _ _ hnumeral).1 ⟨i, hi⟩) (by decide)
  obtain ⟨f, hf, hgives⟩ := hquery least "n" (by decide) (by decide +kernel) (by decide +kernel)
  exact ⟨hleast, hbelow, f, hf, hgives schema .empty "u" places [.int least] least rfl rfl,
    hgives schema .empty "u" places [.int (least + 1)] (least + 1) rfl rfl⟩

end RowFilter
