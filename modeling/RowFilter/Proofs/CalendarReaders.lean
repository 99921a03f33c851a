import RowFilter.Calendar.Readers

/-!
# RowFilter — what the readers of dates and times take

Each reader takes a piece from the front of a text, and the piece spells what was read. Put together, the
pieces of a whole text are those that the documentation of the formats speaks of.

Main results:

* `Calendar.takes_short`, `Calendar.takes_year` — the pieces that spell a number and a year.
* `Calendar.laws_readers` — the readers follow the documentation of a calendar library.
-/

namespace RowFilter.Calendar

open Decimal (isDigit digitsValue)
open Text (isBlank)

/-- What a reader takes is a piece from the front, and the piece spells what was read. -/
def Takes {α : Type} (x : Scan α) (spells : List Char → α → Prop) : Prop :=
  ∀ {s a s'}, x s = some (a, s') → ∃ p, s = p ++ s' ∧ spells p a

/-- A reader behind another one. -/
theorem run_bind_eq_some {α β : Type} {x : Scan α} {f : α → Scan β} {s s'' : List Char} {b : β}
    (h : (x >>= f) s = some (b, s'')) : ∃ a s', x s = some (a, s') ∧ f a s' = some (b, s'') := by
  obtain ⟨⟨a, s'⟩, ha, hb⟩ := Option.bind_eq_some_iff.1 h
  exact ⟨a, s', ha, hb⟩

theorem takes_blanks : Takes Scan.blanks fun p _ => ∀ c ∈ p, isBlank c = true := by
  intro s _ s' h
  cases h
  exact ⟨s.takeWhile isBlank, List.takeWhile_append_dropWhile.symm, List.all_eq_true.1 List.all_takeWhile⟩

theorem takes_char (c : Char) : Takes (Scan.char c) fun p _ => p = [c] := by
  intro s _ s' h
  unfold Scan.char at h
  split at h
  · split at h
    · rename_i hd
      cases h
      exact ⟨[c], by rw [hd]; rfl, rfl⟩
    · cases h
  · cases h

theorem takes_number (least most : Nat) : Takes (Scan.number least most) fun p n =>
    (∀ c ∈ p, isDigit c = true) ∧ least ≤ p.length ∧ n = digitsValue 0 p := by
  intro s n s' h
  simp only [Scan.number] at h
  split at h
  · cases h
  · rename_i hlength
    cases h
    have hfront : Scan.leadingDigits most s <+: s :=
      (List.takeWhile_prefix _).trans (List.take_prefix most s)
    exact ⟨_, (List.prefix_iff_eq_append.1 hfront).symm, List.all_eq_true.1 List.all_takeWhile,
      Nat.le_of_not_lt hlength, rfl⟩

theorem takes_anyNumber : Takes Scan.anyNumber fun p n =>
    (∀ c ∈ p, isDigit c = true) ∧ 1 ≤ p.length ∧ n = digitsValue 0 p := by
  intro s n s' h
  exact takes_number 1 s.length h

/-- Blanks and digits spell a number. -/
theorem SpellsNumber.of_digits {gap ds : List Char} {n : Nat} (hgap : ∀ c ∈ gap, isBlank c = true)
    (hds : (∀ c ∈ ds, isDigit c = true) ∧ 1 ≤ ds.length ∧ n = digitsValue 0 ds) :
    SpellsNumber (gap ++ ds) n := by
  obtain ⟨hdigits, hlength, rfl⟩ := hds
  exact .digits gap hgap hdigits (List.ne_nil_of_length_pos hlength)

theorem takes_short : Takes Scan.short SpellsNumber := by
  intro s n s' h
  obtain ⟨_, s₁, hblanks, hnumber⟩ := run_bind_eq_some h
  obtain ⟨gap, hs, hgap⟩ := takes_blanks hblanks
  obtain ⟨ds, hs₁, hds⟩ := takes_number 1 2 hnumber
  exact ⟨gap ++ ds, by rw [hs, hs₁, List.append_assoc], .of_digits hgap hds⟩

/-- What is taken behind a sign. -/
theorem exists_of_sign {f : Nat → Int} {rest s s' : List Char} {y : Int}
    (h : (set rest >>= fun _ => Scan.anyNumber >>= fun n => pure (f n) : Scan Int) s = some (y, s')) :
    ∃ ds, rest = ds ++ s' ∧ (∀ c ∈ ds, isDigit c = true) ∧ y = f (digitsValue 0 ds) := by
  obtain ⟨_, s₁, hset, hnumber⟩ := run_bind_eq_some h
  cases hset
  obtain ⟨n, s₂, hn, hreturn⟩ := run_bind_eq_some hnumber
  cases hreturn
  obtain ⟨ds, hrest, hds, _, rfl⟩ := takes_anyNumber hn
  exact ⟨ds, hrest, hds, rfl⟩

theorem takes_year : Takes Scan.year SpellsYear := by
  intro s y s' h
  obtain ⟨_, s₁, hblanks, hsigned⟩ := run_bind_eq_some h
  obtain ⟨gap, hs, hgap⟩ := takes_blanks hblanks
  obtain ⟨front, s₂, hget, hyear⟩ := run_bind_eq_some hsigned
  obtain ⟨rfl, rfl⟩ : s₁ = front ∧ s₁ = s₂ := by
    cases hget
    exact ⟨rfl, rfl⟩
  -- a minus, a plus, or neither
  split at hyear
  · obtain ⟨ds, rfl, hds, rfl⟩ := exists_of_sign (f := fun n => -n) hyear
    exact ⟨gap ++ '-' :: ds, by rw [hs, List.append_assoc, List.cons_append], .minus gap hgap hds⟩
  · obtain ⟨ds, rfl, hds, rfl⟩ := exists_of_sign (f := fun n => n) hyear
    exact ⟨gap ++ '+' :: ds, by rw [hs, List.append_assoc, List.cons_append], .plus gap hgap hds⟩
  · obtain ⟨n, s₃, hn, hreturn⟩ := run_bind_eq_some hyear
    cases hreturn
    obtain ⟨ds, hs₁, hds⟩ := takes_number 1 4 hn
    exact ⟨gap ++ ds, by rw [hs, hs₁, List.append_assoc], .unsigned (.of_digits hgap hds)⟩

/-- What stands in front of a separator. -/
theorem exists_of_bind_char {α β : Type} {x : Scan α} {spells : List Char → α → Prop}
    (hx : Takes x spells) {c : Char} {f : α → Scan β} {s s' : List Char} {b : β}
    (h : (x >>= fun a => Scan.char c >>= fun _ => f a) s = some (b, s')) :
    ∃ p a rest, s = p ++ c :: rest ∧ spells p a ∧ f a rest = some (b, s') := by
  obtain ⟨a, s₁, ha, hseparator⟩ := run_bind_eq_some h
  obtain ⟨_, s₂, hc, hrest⟩ := run_bind_eq_some hseparator
  obtain ⟨p, hs, hp⟩ := hx ha
  obtain ⟨_, hs₁, rfl⟩ := takes_char c hc
  exact ⟨p, a, s₂, by rw [hs, hs₁]; rfl, hp, hrest⟩

theorem whole_eq_some {α : Type} {x : Scan α} {a : α} {s : List Char} (h : x.whole s = some a) :
    x s = some (a, []) := by
  unfold Scan.whole at h
  split at h
  · rename_i a' hx
    cases h
    exact hx
  · cases h

/-- A last number, with nothing behind it. -/
theorem spellsNumber_of_short {s : List Char} {n : Nat} (h : Scan.short s = some (n, [])) :
    SpellsNumber s n := by
  obtain ⟨p, rfl, hp⟩ := takes_short h
  rwa [List.append_nil]

theorem spellsDate_of_readDate? {s : List Char} {d : Date} (h : readDate? s = some d) :
    SpellsDate s d := by
  have hscan : Scan.date s = some (d, []) := whole_eq_some (Option.filter_eq_some_iff.1 h).1
  obtain ⟨year, y, s₁, rfl, hyear, hmonths⟩ := exists_of_bind_char takes_year hscan
  obtain ⟨month, m, day, rfl, hmonth, hdays⟩ := exists_of_bind_char takes_short hmonths
  obtain ⟨n, _, hday, hreturn⟩ := run_bind_eq_some hdays
  cases hreturn
  exact ⟨year, month, day, rfl, hyear, hmonth, spellsNumber_of_short hday⟩

theorem takes_minutes : Takes Scan.minutes SpellsMinutes := by
  intro s t s' h
  obtain ⟨hour, k, s₁, rfl, hhour, hminutes⟩ := exists_of_bind_char takes_short h
  obtain ⟨m, _, hm, hreturn⟩ := run_bind_eq_some hminutes
  cases hreturn
  obtain ⟨minute, rfl, hminute⟩ := takes_short hm
  exact ⟨hour ++ ':' :: minute, by rw [List.append_assoc, List.cons_append], hour, minute, rfl, hhour,
    hminute, rfl⟩

/-- The readers follow the documentation of a calendar library. -/
theorem laws_readers : Parsers.Laws where
  date := spellsDate_of_readDate?
  seconds := by
    intro s t h
    have hscan : Scan.seconds s = some (t, []) := whole_eq_some (Option.filter_eq_some_iff.1 h).1
    obtain ⟨_, u, second, rfl, ⟨hour, minute, rfl, hhour, hminute, _⟩, hseconds⟩ :=
      exists_of_bind_char takes_minutes hscan
    obtain ⟨n, _, hsecond, hreturn⟩ := run_bind_eq_some hseconds
    cases hreturn
    exact ⟨hour, minute, second, by rw [List.append_assoc, List.cons_append], hhour, hminute,
      spellsNumber_of_short hsecond⟩
  minutes := by
    intro s t h
    have hscan : Scan.minutes s = some (t, []) := whole_eq_some (Option.filter_eq_some_iff.1 h).1
    obtain ⟨p, rfl, hminutes⟩ := takes_minutes hscan
    rwa [List.append_nil]

end RowFilter.Calendar
