import RowFilter.Decimal.Numeral
import RowFilter.Text.Blank

/-!
# RowFilter — dates and times in text

Texts are read as dates and times by a calendar library, in formats written like those of `strftime`. The
library is a parameter of the program, `Parsers`, and what is proved about the program holds for each of
them. Where the meaning of a format matters, its documentation is a hypothesis, `Parsers.Laws`: a numeric
item is digits with any blanks in front, a year may have a sign, and a time without seconds is that of the
full minute. `RowFilter.Calendar.Readers` has the library that runs.
-/

namespace RowFilter.Calendar

open Decimal (isDigit digitsValue)
open Text (isBlank)

/-- A day of the Gregorian calendar, which goes on before its introduction. -/
structure Date where
  year : Int
  month : Nat
  day : Nat
deriving DecidableEq, Repr

/-- A time of day; the second may be 60. -/
structure Time where
  hour : Nat
  minute : Nat
  second : Nat
deriving DecidableEq, Repr

/-- A calendar library: the texts that it reads in each format, and what they stand for. -/
class Parsers where
  /-- Is the text the stamp of an internet message? -/
  isStamp : List Char → Bool
  /-- Is the text a date together with a time, in a format? -/
  isDateTime : String → List Char → Bool
  /-- The date that a text is, in a format. -/
  date? : String → List Char → Option Date
  /-- The time of day that a text is, in a format. -/
  time? : String → List Char → Option Time

/-- A number in a text: digits, with blanks in front or not. -/
inductive SpellsNumber : List Char → Nat → Prop
  | digits (gap : List Char) {ds : List Char} : (∀ c ∈ gap, isBlank c = true) →
      (∀ c ∈ ds, isDigit c = true) → ds ≠ [] → SpellsNumber (gap ++ ds) (digitsValue 0 ds)

/-- A year in a text: a number, or a sign behind blanks and then digits. -/
inductive SpellsYear : List Char → Int → Prop
  | unsigned {s : List Char} {n : Nat} : SpellsNumber s n → SpellsYear s n
  | plus (gap : List Char) {ds : List Char} : (∀ c ∈ gap, isBlank c = true) →
      (∀ c ∈ ds, isDigit c = true) → SpellsYear (gap ++ '+' :: ds) (digitsValue 0 ds : Nat)
  | minus (gap : List Char) {ds : List Char} : (∀ c ∈ gap, isBlank c = true) →
      (∀ c ∈ ds, isDigit c = true) → SpellsYear (gap ++ '-' :: ds) (-(digitsValue 0 ds : Nat))

/-- A date in a text: its year, its month and its day, with dashes between them. -/
def SpellsDate (s : List Char) (d : Date) : Prop :=
  ∃ year month day, s = year ++ '-' :: (month ++ '-' :: day) ∧
    SpellsYear year d.year ∧ SpellsNumber month d.month ∧ SpellsNumber day d.day

/-- A time in a text: its hour, its minute and its second, with colons between them. -/
def SpellsSeconds (s : List Char) (t : Time) : Prop :=
  ∃ hour minute second, s = hour ++ ':' :: (minute ++ ':' :: second) ∧
    SpellsNumber hour t.hour ∧ SpellsNumber minute t.minute ∧ SpellsNumber second t.second

/-- A time in a text that does not have a second, which is zero. -/
def SpellsMinutes (s : List Char) (t : Time) : Prop :=
  ∃ hour minute, s = hour ++ ':' :: minute ∧
    SpellsNumber hour t.hour ∧ SpellsNumber minute t.minute ∧ t.second = 0

/-- What the documentation of a calendar library says of the formats for dates and for times of day. -/
structure Parsers.Laws [Parsers] : Prop where
  date : ∀ {s : List Char} {d : Date}, date? "%Y-%m-%d" s = some d → SpellsDate s d
  seconds : ∀ {s : List Char} {t : Time}, time? "%H:%M:%S" s = some t → SpellsSeconds s t
  minutes : ∀ {s : List Char} {t : Time}, time? "%H:%M" s = some t → SpellsMinutes s t

end RowFilter.Calendar
