import Mathlib.Data.List.Forall2
import Mathlib.Data.List.Induction
import Mathlib.Data.String.Basic
import Mathlib.Order.Compare
import RowFilter.Calendar
import RowFilter.Proofs.NamedLists

/-!
# RowFilter — dates and times in the order of their texts

Texts are compared character by character, dates and times number by number. The two orders agree on texts
in the same *layout*, which have digits at the same places and the same characters everywhere else: blanks,
signs and separators are then the same, and a number has as many digits in one text as in the other, so its
digits are in the order of its value. Without a common layout they need not agree, since the parts of a date
may be written with one digit or two.

Two texts in the same layout have their separators at the same places, so they are compared piece by piece,
and the pieces are numbers. A negative year is the exception, because its digits go the other way. So a text
also stands for one date or time at most: it is in the same layout as itself.

Main results:

* `Decimal.compare_digits` — numbers of one length are in the order of their texts.
* `Calendar.SameLayout.split` — texts in the same layout are compared piece by piece.
* `Calendar.compare_of_dates`, `Calendar.compare_of_times` — the order of texts is the order in time.
* `Calendar.SpellsDate.unique`, `Calendar.SpellsTime.unique` — what a text stands for.
-/

namespace RowFilter

namespace Text

/-! ## The order of texts -/

theorem compare_cons (c d : Char) (s t : List Char) :
    compare (c :: s) (d :: t) = (compare c d).then (compare s t) :=
  List.compareLex_cons_cons

theorem compare_self (s : List Char) : compare s s = .eq := Std.ReflCmp.compare_self

theorem compare_eq_lt_iff {s t : List Char} : compare s t = .lt ↔ s < t := by
  induction s generalizing t with
  | nil => cases t <;> simp [compare, List.compareLex]
  | cons c s ih =>
    cases t with
    | nil => simp [compare, List.compareLex]
    | cons d t =>
      rw [compare_cons, Ordering.then_eq_lt, ih, List.cons_lt_cons_iff,
        Std.LawfulLTCmp.eq_lt_iff_lt, Std.LawfulEqCmp.compare_eq_iff_eq]

/-- Texts are compared character by character. -/
theorem compare_toList (a b : String) : compare a.toList b.toList = compare a b := by
  have hlt (a b : String) : compare a b = .lt ↔ compare a.toList b.toList = .lt := by
    rw [compare_eq_lt_iff, Std.LawfulLTCmp.eq_lt_iff_lt, String.lt_iff_toList_lt]
  cases h : compare a b with
  | lt => exact (hlt a b).1 h
  | eq =>
    rw [Std.LawfulEqCmp.compare_eq_iff_eq.1 h]
    exact compare_self _
  | gt =>
    rw [Std.OrientedCmp.gt_iff_lt] at h ⊢
    exact (hlt b a).1 h

/-- Of two texts that begin with parts of one length, the parts are compared first. -/
theorem compare_append {p q : List Char} (h : p.length = q.length) (s t : List Char) :
    compare (p ++ s) (q ++ t) = (compare p q).then (compare s t) := by
  induction p generalizing q with
  | nil =>
    rw [List.length_eq_zero_iff.1 h.symm]
    rfl
  | cons c p ih =>
    cases q with
    | nil => cases h
    | cons d q =>
      rw [List.cons_append, List.cons_append, compare_cons, compare_cons, ih (Nat.succ.inj h),
        Ordering.then_assoc]

end Text

namespace Decimal

/-! ## The order of digits -/

/-- Two comparisons that go the same way. -/
theorem compare_congr {α β : Type} [LinearOrder α] [LinearOrder β] {a b : α} {c d : β}
    (hlt : a < b ↔ c < d) (hgt : b < a ↔ d < c) : compare a b = compare c d := by
  rcases lt_trichotomy a b with h | rfl | h
  · rw [compare_lt_iff_lt.2 h, compare_lt_iff_lt.2 (hlt.1 h)]
  · have heq : c = d := le_antisymm (not_lt.1 fun h => lt_irrefl _ (hgt.2 h))
      (not_lt.1 fun h => lt_irrefl _ (hlt.2 h))
    rw [compare_eq_iff_eq.2 rfl, compare_eq_iff_eq.2 heq]
  · rw [compare_gt_iff_gt.2 h, compare_gt_iff_gt.2 (hgt.1 h)]

theorem toNat_of_isDigit {d : Char} (h : isDigit d = true) :
    d.toNat = 48 + digitValue d ∧ digitValue d < 10 := by
  simp only [isDigit, Bool.and_eq_true, decide_eq_true_eq] at h
  have hlow : 48 ≤ d.toNat := h.1
  have hhigh : d.toNat ≤ 57 := h.2
  rw [digitValue, show '0'.toNat = 48 from rfl]
  omega

theorem compare_digit {d e : Char} (hd : isDigit d = true) (he : isDigit e = true) :
    compare d e = compare (digitValue d) (digitValue e) := by
  have hd := (toNat_of_isDigit hd).1
  have he := (toNat_of_isDigit he).1
  have hlt (c c' : Char) : c < c' ↔ c.toNat < c'.toNat := UInt32.lt_iff_toNat_lt
  refine compare_congr ?_ ?_
  · rw [hlt]
    omega
  · rw [hlt]
    omega

/-- Of two numbers the tens are compared before the ones. -/
theorem compare_tens {v w x y : Nat} (hx : x < 10) (hy : y < 10) :
    compare (10 * v + x) (10 * w + y) = (compare v w).then (compare x y) := by
  rcases Nat.lt_trichotomy v w with h | rfl | h
  · rw [Nat.compare_eq_lt.2 h, Nat.compare_eq_lt.2 (by omega)]
    rfl
  · rw [Nat.compare_eq_eq.2 rfl]
    rcases Nat.lt_trichotomy x y with h | rfl | h
    · rw [Nat.compare_eq_lt.2 h, Nat.compare_eq_lt.2 (by omega)]
      rfl
    · rw [Nat.compare_eq_eq.2 rfl, Nat.compare_eq_eq.2 rfl]
      rfl
    · rw [Nat.compare_eq_gt.2 h, Nat.compare_eq_gt.2 (by omega)]
      rfl
  · rw [Nat.compare_eq_gt.2 h, Nat.compare_eq_gt.2 (by omega)]
    rfl

/-- Numbers of one length are in the order of their texts. -/
theorem compare_digits {ds es : List Char} (h : ds.length = es.length)
    (hds : ∀ d ∈ ds, isDigit d = true) (hes : ∀ e ∈ es, isDigit e = true) :
    compare ds es = compare (digitsValue 0 ds) (digitsValue 0 es) := by
  induction ds using List.reverseRecOn generalizing es with
  | nil =>
    rw [List.length_eq_zero_iff.1 h.symm]
    rfl
  | append_singleton ds d ih =>
    rcases List.eq_nil_or_concat es with rfl | ⟨es, e, rfl⟩
    · simp at h
    · rw [List.concat_eq_append] at h hes ⊢
      obtain ⟨hds, hd⟩ := List.forall_mem_append.1 hds
      obtain ⟨hes, he⟩ := List.forall_mem_append.1 hes
      have hlength : ds.length = es.length := by simpa using h
      have hd := hd d List.mem_cons_self
      have he := he e List.mem_cons_self
      rw [Text.compare_append hlength, ih hlength hds hes, Text.compare_cons, compare_digit hd he,
        digitsValue_append, digitsValue_append]
      show _ = compare (10 * _ + _) (10 * _ + _)
      rw [compare_tens (toNat_of_isDigit hd).2 (toNat_of_isDigit he).2]
      cases compare (digitValue d) (digitValue e) <;> rfl

end Decimal

namespace Calendar

open Decimal (isDigit digitValue digitsValue)
open Text (isBlank trim trimStart trimEnd)

/-! ## Layouts -/

/-- Both are digits, or both are the same character. -/
def SamePlace (c d : Char) : Prop := (isDigit c = true ∧ isDigit d = true) ∨ c = d

instance (c d : Char) : Decidable (SamePlace c d) :=
  inferInstanceAs (Decidable (_ ∨ _))

/-- Two texts have digits at the same places and the same characters at all others. -/
abbrev SameLayout (s t : List Char) : Prop := List.Forall₂ SamePlace s t

theorem isBlank_of_isDigit {c : Char} (h : isDigit c = true) : isBlank c = false := by
  have hc := Decimal.toNat_of_isDigit h
  refine Literal.isBlank_of_isPlain ?_
  simp only [Literal.isPlain, Bool.and_eq_true, decide_eq_true_eq, show '-'.toNat = 45 from rfl,
    show 'z'.toNat = 122 from rfl]
  omega

theorem isDigit_of_isBlank {c : Char} (h : isBlank c = true) : isDigit c = false := by
  rw [← Bool.not_eq_true]
  intro hdigit
  rw [isBlank_of_isDigit hdigit] at h
  cases h

theorem SamePlace.isBlank_eq {c d : Char} (h : SamePlace c d) : isBlank c = isBlank d := by
  rcases h with ⟨hc, hd⟩ | rfl
  · rw [isBlank_of_isDigit hc, isBlank_of_isDigit hd]
  · rfl

theorem SamePlace.eq_of_left {c d : Char} (h : SamePlace c d) (hc : isDigit c = false) : d = c := by
  rcases h with ⟨hdigit, _⟩ | rfl
  · rw [hc] at hdigit
    cases hdigit
  · rfl

theorem SamePlace.symm {c d : Char} (h : SamePlace c d) : SamePlace d c := by
  rcases h with ⟨hc, hd⟩ | rfl
  · exact .inl ⟨hd, hc⟩
  · exact .inr rfl

theorem SamePlace.eq_iff {c d : Char} (h : SamePlace c d) {x : Char} (hx : isDigit x = false) :
    c = x ↔ d = x := by
  constructor
  · rintro rfl
    exact h.eq_of_left hx
  · rintro rfl
    exact h.symm.eq_of_left hx

theorem SameLayout.symm {s t : List Char} (h : SameLayout s t) : SameLayout t s :=
  List.Forall₂.flip (h.imp fun _ _ => SamePlace.symm)

/-- A character that is no digit is in front of both texts or of neither. -/
theorem SameLayout.head?_eq_some_iff {s t : List Char} (h : SameLayout s t) {c : Char}
    (hc : isDigit c = false) : s.head? = some c ↔ t.head? = some c := by
  cases h with
  | nil => exact Iff.rfl
  | cons hplace _ => simpa using hplace.eq_iff hc

/-- So it is at any place. -/
theorem SameLayout.mem_iff {s t : List Char} (h : SameLayout s t) {c : Char}
    (hc : isDigit c = false) : c ∈ s ↔ c ∈ t := by
  induction h with
  | nil => exact Iff.rfl
  | cons hplace _ ih =>
    rw [List.mem_cons, List.mem_cons, ih, eq_comm, hplace.eq_iff hc, eq_comm]

/-- The blanks in front of two texts in the same layout are the same. -/
theorem SameLayout.exists_blanks {s t : List Char} (h : SameLayout s t) :
    ∃ gap, s = gap ++ trimStart s ∧ t = gap ++ trimStart t ∧
      SameLayout (trimStart s) (trimStart t) := by
  induction h with
  | nil => exact ⟨[], rfl, rfl, .nil⟩
  | @cons c d s t hplace hrest ih =>
    cases hc : isBlank c with
    | true =>
      obtain ⟨gap, hs, ht, hrest⟩ := ih
      obtain rfl : d = c := hplace.eq_of_left (isDigit_of_isBlank hc)
      have hdrop (s : List Char) : trimStart (d :: s) = trimStart s :=
        List.dropWhile_cons_of_pos hc
      rw [hdrop, hdrop]
      exact ⟨d :: gap, congrArg _ hs, congrArg _ ht, hrest⟩
    | false =>
      rw [Text.trimStart_eq_self hc, Text.trimStart_eq_self (hplace.isBlank_eq ▸ hc)]
      exact ⟨[], rfl, rfl, .cons hplace hrest⟩

/-- Without digits the texts are the same. -/
theorem SameLayout.eq_of_blanks {s t : List Char} (h : SameLayout s t)
    (hs : ∀ c ∈ s, isBlank c = true) : s = t := by
  induction h with
  | nil => rfl
  | @cons c d s t hplace _ ih =>
    obtain ⟨hc, hs⟩ := List.forall_mem_cons.1 hs
    rw [ih hs, hplace.eq_of_left (isDigit_of_isBlank hc)]

/-- So are the blanks around them, and they make no difference to the order. -/
theorem SameLayout.trim {s t : List Char} (h : SameLayout s t) :
    SameLayout (trim s) (trim t) ∧ compare s t = compare (Text.trim s) (Text.trim t) := by
  obtain ⟨gap, hs, ht, hstart⟩ := h.exists_blanks
  obtain ⟨tail, hs', ht', hend⟩ := SameLayout.exists_blanks (List.forall₂_reverse_iff.2 hstart)
  have hlayout : SameLayout (Text.trim s) (Text.trim t) := List.forall₂_reverse_iff.2 hend
  -- behind the trimmed texts stand the same blanks
  have hback {u v : List Char} (hu : u.reverse = tail ++ v) : u = v.reverse ++ tail.reverse := by
    rw [← List.reverse_append, ← hu, List.reverse_reverse]
  have hs : s = gap ++ (Text.trim s ++ tail.reverse) := hs.trans (congrArg _ (hback hs'))
  have ht : t = gap ++ (Text.trim t ++ tail.reverse) := ht.trans (congrArg _ (hback ht'))
  refine ⟨hlayout, ?_⟩
  calc compare s t
      = compare (gap ++ (Text.trim s ++ tail.reverse)) (gap ++ (Text.trim t ++ tail.reverse)) := by
        rw [← hs, ← ht]
    _ = compare (Text.trim s) (Text.trim t) := by
        rw [Text.compare_append rfl, Text.compare_self, Text.compare_append hlayout.length_eq,
          Text.compare_self]
        cases compare (Text.trim s) (Text.trim t) <;> rfl

/-! ## Texts piece by piece -/

/-- Texts in the same layout that are cut at a separator before which there is no other one are cut at the
same place, and the pieces in front are compared first. -/
theorem SameLayout.split {c : Char} (hc : isDigit c = false) {p q s t : List Char}
    (h : SameLayout (p ++ c :: s) (q ++ c :: t)) (hp : c ∉ p) (hq : c ∉ q) :
    SameLayout p q ∧ SameLayout s t ∧
      compare (p ++ c :: s) (q ++ c :: t) = (compare p q).then (compare s t) := by
  have hpieces : SameLayout p q ∧ SameLayout s t := by
    induction p generalizing q with
    | nil =>
      cases q with
      | nil => exact ⟨.nil, (List.forall₂_cons.1 h).2⟩
      | cons e q =>
        -- the other separator is at the place of the first one
        have he : e = c := (List.forall₂_cons.1 h).1.eq_of_left hc
        exact absurd (he ▸ List.mem_cons_self) hq
    | cons d p ih =>
      cases q with
      | nil =>
        have hd : d = c := (List.forall₂_cons.1 h).1.symm.eq_of_left hc
        exact absurd (hd ▸ List.mem_cons_self) hp
      | cons e q =>
        obtain ⟨hplace, hrest⟩ := List.forall₂_cons.1 h
        obtain ⟨hfront, hback⟩ := ih hrest (List.not_mem_of_not_mem_cons hp)
          (List.not_mem_of_not_mem_cons hq)
        exact ⟨.cons hplace hfront, hback⟩
  refine ⟨hpieces.1, hpieces.2, ?_⟩
  rw [Text.compare_append hpieces.1.length_eq, Text.compare_cons, compare_eq_iff_eq.2 rfl,
    Ordering.eq_then]

/-- What a number is spelled with. -/
theorem SpellsNumber.not_mem {s : List Char} {n : Nat} (h : SpellsNumber s n) {c : Char}
    (hdigit : isDigit c = false) (hblank : isBlank c = false) : c ∉ s := by
  obtain ⟨gap, hgap, hds, _⟩ := h
  intro hc
  rcases List.mem_append.1 hc with hc | hc
  · rw [hgap c hc] at hblank
    cases hblank
  · rw [hds c hc] at hdigit
    cases hdigit

theorem trimStart_append {gap : List Char} (hgap : ∀ c ∈ gap, isBlank c = true) (s : List Char) :
    trimStart (gap ++ s) = trimStart s :=
  List.dropWhile_append_of_pos hgap

/-- Behind its blanks a number is digits. -/
theorem SpellsNumber.digits_trimStart {s : List Char} {n : Nat} (h : SpellsNumber s n) :
    (∀ c ∈ trimStart s, isDigit c = true) ∧ n = digitsValue 0 (trimStart s) := by
  obtain ⟨gap, hgap, hds, hne⟩ := h
  rename_i ds
  rw [trimStart_append hgap]
  cases ds with
  | nil => exact absurd rfl hne
  | cons d ds =>
    rw [Text.trimStart_eq_self (isBlank_of_isDigit (hds d List.mem_cons_self))]
    exact ⟨hds, rfl⟩

variable {s t : List Char}

/-- Numbers in the same layout have their order. -/
theorem compare_of_numbers {m n : Nat} (h : SameLayout s t) (hs : SpellsNumber s m)
    (ht : SpellsNumber t n) : compare s t = compare m n := by
  obtain ⟨gap, hgap, hgap', hlayout⟩ := h.exists_blanks
  obtain ⟨hds, rfl⟩ := hs.digits_trimStart
  obtain ⟨hes, rfl⟩ := ht.digits_trimStart
  calc compare s t
      = compare (gap ++ trimStart s) (gap ++ trimStart t) := by rw [← hgap, ← hgap']
    _ = compare (trimStart s) (trimStart t) := by
        rw [Text.compare_append rfl, Text.compare_self, Ordering.eq_then]
    _ = compare (digitsValue 0 (trimStart s)) (digitsValue 0 (trimStart t)) :=
        Decimal.compare_digits hlayout.length_eq hds hes

theorem compare_natCast (m n : Nat) : compare (m : Int) (n : Int) = compare m n :=
  Decimal.compare_congr Int.ofNat_lt Int.ofNat_lt

/-- A year without a minus in front has none at all. -/
theorem SpellsYear.not_mem {y : Int} (h : SpellsYear s y) {rest : List Char}
    (hminus : (trimStart (s ++ rest)).head? ≠ some '-') : '-' ∉ s := by
  cases h with
  | unsigned h => exact h.not_mem rfl rfl
  | plus gap hgap hds =>
    intro hmem
    rcases List.mem_append.1 hmem with hmem | hmem
    · cases hgap _ hmem
    · rcases List.mem_cons.1 hmem with heq | hmem
      · cases heq
      · cases hds _ hmem
  | minus gap hgap _ =>
    refine absurd ?_ hminus
    rw [List.append_assoc, trimStart_append hgap, List.cons_append, Text.trimStart_eq_self rfl]
    rfl

/-- Years without a minus, in the same layout, have their order. -/
theorem compare_of_years {y z : Int} (h : SameLayout s t) (hs : SpellsYear s y) (ht : SpellsYear t z)
    (hminus : '-' ∉ s) (hminus' : '-' ∉ t) : compare s t = compare y z := by
  -- a plus is in front of both years or of neither
  have hplus : '+' ∈ s ↔ '+' ∈ t := h.mem_iff rfl
  cases hs with
  | unsigned hs =>
    cases ht with
    | unsigned ht => rw [compare_natCast, compare_of_numbers h hs ht]
    | plus => exact absurd (hplus.2 List.mem_append_cons_self) (hs.not_mem rfl rfl)
    | minus => exact absurd List.mem_append_cons_self hminus'
  | plus gap hgap hds =>
    cases ht with
    | unsigned ht => exact absurd (hplus.1 List.mem_append_cons_self) (ht.not_mem rfl rfl)
    | plus gap' hgap' hes =>
      have hnone {gap : List Char} (hgap : ∀ c ∈ gap, isBlank c = true) : '+' ∉ gap :=
        fun hmem => nomatch hgap _ hmem
      obtain ⟨hgaps, hdigits, hcompare⟩ := h.split rfl (hnone hgap) (hnone hgap')
      rw [hcompare, hgaps.eq_of_blanks hgap, Text.compare_self, Ordering.eq_then, compare_natCast,
        Decimal.compare_digits hdigits.length_eq hds hes]
    | minus => exact absurd List.mem_append_cons_self hminus'
  | minus => exact absurd List.mem_append_cons_self hminus

/-! ## Dates and times -/

/-- The order of two days. -/
def Date.order (d e : Date) : Ordering :=
  (compare d.year e.year).then ((compare d.month e.month).then (compare d.day e.day))

/-- The order of two times of one day. -/
def Time.order (t u : Time) : Ordering :=
  (compare t.hour u.hour).then ((compare t.minute u.minute).then (compare t.second u.second))

/-- Days that are neither before nor after one another are the same. -/
theorem Date.eq_of_order_eq {d e : Date} (h : d.order e = .eq) : d = e := by
  obtain ⟨hyear, hrest⟩ := Ordering.then_eq_eq.1 h
  obtain ⟨hmonth, hday⟩ := Ordering.then_eq_eq.1 hrest
  rw [compare_eq_iff_eq] at hyear hmonth hday
  cases d
  cases e
  simp_all

theorem Time.eq_of_order_eq {t u : Time} (h : t.order u = .eq) : t = u := by
  obtain ⟨hhour, hrest⟩ := Ordering.then_eq_eq.1 h
  obtain ⟨hminute, hsecond⟩ := Ordering.then_eq_eq.1 hrest
  rw [compare_eq_iff_eq] at hhour hminute hsecond
  cases t
  cases u
  simp_all

/-- Dates are compared part by part, and every part keeps the order. -/
theorem compare_of_dates {d e : Date} (h : SameLayout s t) (hminus : (trimStart s).head? ≠ some '-')
    (hs : SpellsDate s d) (ht : SpellsDate t e) : compare s t = d.order e := by
  obtain ⟨_, _, _, hstart⟩ := h.exists_blanks
  have hminus' : (trimStart t).head? ≠ some '-' := mt (hstart.head?_eq_some_iff rfl).2 hminus
  obtain ⟨year, month, day, rfl, hyear, hmonth, hday⟩ := hs
  obtain ⟨year', month', day', rfl, hyear', hmonth', hday'⟩ := ht
  -- a year with a minus would be cut at it
  have hnone := hyear.not_mem hminus
  have hnone' := hyear'.not_mem hminus'
  obtain ⟨hyears, hrest, hcompare⟩ := h.split rfl hnone hnone'
  obtain ⟨hmonths, hdays, hcompare'⟩ := hrest.split rfl (hmonth.not_mem rfl rfl) (hmonth'.not_mem rfl rfl)
  rw [hcompare, hcompare', compare_of_years hyears hyear hyear' hnone hnone',
    compare_of_numbers hmonths hmonth hmonth', compare_of_numbers hdays hday hday']
  rfl

/-- A time with seconds and one without are not written in the same layout. -/
theorem not_sameLayout_seconds_minutes {a b : Time} (hs : SpellsSeconds s a) (ht : SpellsMinutes t b) :
    ¬ SameLayout s t := by
  intro h
  obtain ⟨hour, minute, second, rfl, hhour, _, _⟩ := hs
  obtain ⟨hour', minute', rfl, hhour', hminute', _⟩ := ht
  obtain ⟨_, hrest, _⟩ := h.split rfl (hhour.not_mem rfl rfl) (hhour'.not_mem rfl rfl)
  -- the colon in front of the second has no counterpart
  exact hminute'.not_mem rfl rfl ((hrest.mem_iff rfl).1 List.mem_append_cons_self)

theorem compare_of_seconds {a b : Time} (h : SameLayout s t) (hs : SpellsSeconds s a)
    (ht : SpellsSeconds t b) : compare s t = a.order b := by
  obtain ⟨hour, minute, second, rfl, hhour, hminute, hsecond⟩ := hs
  obtain ⟨hour', minute', second', rfl, hhour', hminute', hsecond'⟩ := ht
  obtain ⟨hhours, hrest, hcompare⟩ := h.split rfl (hhour.not_mem rfl rfl) (hhour'.not_mem rfl rfl)
  obtain ⟨hminutes, hseconds, hcompare'⟩ :=
    hrest.split rfl (hminute.not_mem rfl rfl) (hminute'.not_mem rfl rfl)
  rw [hcompare, hcompare', compare_of_numbers hhours hhour hhour',
    compare_of_numbers hminutes hminute hminute', compare_of_numbers hseconds hsecond hsecond']
  rfl

theorem compare_of_minutes {a b : Time} (h : SameLayout s t) (hs : SpellsMinutes s a)
    (ht : SpellsMinutes t b) : compare s t = a.order b := by
  obtain ⟨hour, minute, rfl, hhour, hminute, hzero⟩ := hs
  obtain ⟨hour', minute', rfl, hhour', hminute', hzero'⟩ := ht
  obtain ⟨hhours, hminutes, hcompare⟩ := h.split rfl (hhour.not_mem rfl rfl) (hhour'.not_mem rfl rfl)
  rw [hcompare, compare_of_numbers hhours hhour hhour',
    compare_of_numbers hminutes hminute hminute', Time.order, hzero, hzero',
    compare_eq_iff_eq.2 rfl, Ordering.then_eq]

/-- A time in a text, with its second or without it. -/
def SpellsTime (s : List Char) (t : Time) : Prop := SpellsSeconds s t ∨ SpellsMinutes s t

theorem compare_of_times {a b : Time} (h : SameLayout s t) (hs : SpellsTime s a) (ht : SpellsTime t b) :
    compare s t = a.order b := by
  rcases hs with hs | hs
  · rcases ht with ht | ht
    · exact compare_of_seconds h hs ht
    · exact absurd h (not_sameLayout_seconds_minutes hs ht)
  · rcases ht with ht | ht
    · exact absurd h.symm (not_sameLayout_seconds_minutes ht hs)
    · exact compare_of_minutes h hs ht

theorem SameLayout.refl (s : List Char) : SameLayout s s :=
  List.forall₂_same.2 fun _ _ => .inr rfl

/-- A text spells one date at most. -/
theorem SpellsDate.unique {d e : Date} (hs : SpellsDate s d) (hs' : SpellsDate s e)
    (hminus : (trimStart s).head? ≠ some '-') : d = e := by
  refine Date.eq_of_order_eq ?_
  rw [← compare_of_dates (.refl s) hminus hs hs', Text.compare_self]

theorem SpellsTime.unique {a b : Time} (hs : SpellsTime s a) (hs' : SpellsTime s b) : a = b := by
  refine Time.eq_of_order_eq ?_
  rw [← compare_of_times (.refl s) hs hs', Text.compare_self]

end Calendar

end RowFilter
