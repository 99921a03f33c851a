import RowFilter.Calendar

/-!
# RowFilter — the readers of dates and times

The calendar library that runs. Dates are written `year-month-day` and times `hour:minute` or
`hour:minute:second`. Blanks may stand in front of each number; months, days and the parts of a time have
one or two digits. A year without a sign has one to four digits, and with a sign any number of them. A
second may be a leap second. The stamps of internet messages are stricter: every number has its full width,
a fraction of a second may follow, and the offset from universal time is given.
-/

namespace RowFilter.Calendar

open Decimal (isDigit digitsValue)

/-- Every fourth year, but of the full centuries only every fourth one. -/
def isLeap (year : Int) : Bool := year % 4 = 0 && (year % 100 ≠ 0 || year % 400 = 0)

/-- The number of days of a month. -/
def daysIn (year : Int) (month : Nat) : Nat :=
  if month = 2 then if isLeap year then 29 else 28
  else if month = 4 || month = 6 || month = 9 || month = 11 then 30
  else 31

/-- The years that dates may have. -/
def isYear (year : Int) : Bool := -262143 ≤ year && year ≤ 262142

/-- Is there such a day? -/
def Date.isValid (d : Date) : Bool :=
  isYear d.year && 1 ≤ d.month && d.month ≤ 12 && 1 ≤ d.day && d.day ≤ daysIn d.year d.month

/-- Is there such a time? -/
def Time.isValid (t : Time) : Bool := t.hour ≤ 23 && t.minute ≤ 59 && t.second ≤ 60

/-! ## Reading -/

/-- A reader takes characters from the front of a text, or fails. -/
abbrev Scan := StateT (List Char) Option

namespace Scan

/-- Takes one given character. -/
def char (c : Char) : Scan Unit := fun s =>
  match s with
  | d :: rest => if d = c then some ((), rest) else none
  | [] => none

/-- Takes one of the given characters. -/
def oneOf (cs : List Char) : Scan Unit := fun s =>
  match s with
  | d :: rest => if d ∈ cs then some ((), rest) else none
  | [] => none

/-- Takes all blanks in front. -/
def blanks : Scan Unit := fun s => some ((), Text.trimStart s)

/-- The digits in front, at most `most` of them. -/
def leadingDigits (most : Nat) (s : List Char) : List Char := (s.take most).takeWhile isDigit

/-- Takes at least `least` and at most `most` digits. -/
def number (least most : Nat) : Scan Nat := fun s =>
  let ds := leadingDigits most s
  if ds.length < least then none else some (digitsValue 0 ds, s.drop ds.length)

/-- Takes all digits in front, at least one. -/
def anyNumber : Scan Nat := fun s => number 1 s.length s

/-- Takes a number of one or two digits behind blanks. -/
def short : Scan Nat := do
  blanks
  number 1 2

/-- Takes a year behind blanks. -/
def year : Scan Int := do
  blanks
  match ← get with
  | '-' :: rest => do
    set rest
    return -(← anyNumber)
  | '+' :: rest => do
    set rest
    return (← anyNumber : Nat)
  | _ => return (← number 1 4 : Nat)

/-- Takes a date. -/
def date : Scan Date := do
  let y ← year
  char '-'
  let m ← short
  char '-'
  let d ← short
  return ⟨y, m, d⟩

/-- Takes an hour and a minute. -/
def minutes : Scan Time := do
  let h ← short
  char ':'
  let m ← short
  return ⟨h, m, 0⟩

/-- Takes an hour, a minute and a second. -/
def seconds : Scan Time := do
  let t ← minutes
  char ':'
  let s ← short
  return { t with second := s }

/-- Takes a fraction of a second, if there is one. -/
def fraction : Scan Unit := do
  match ← get with
  | '.' :: rest => do
    set rest
    discard anyNumber
  | _ => return ()

/-- Takes an offset from universal time, in minutes. -/
def offset : Scan Nat := do
  match ← get with
  | 'Z' :: rest => do
    set rest
    return 0
  | 'z' :: rest => do
    set rest
    return 0
  | _ => do
    oneOf ['+', '-', Char.ofNat 0x2212]
    let h ← number 2 2
    char ':'
    let m ← number 2 2
    -- the hour is checked together with the minute, by the caller
    if 59 < m then failure
    return 60 * h + m

/-- Takes the stamp of an internet message. -/
def stamp : Scan (Date × Time) := do
  let y ← number 4 4
  char '-'
  let mo ← number 2 2
  char '-'
  let d ← number 2 2
  oneOf ['t', 'T', ' ']
  let h ← number 2 2
  char ':'
  let mi ← number 2 2
  char ':'
  let s ← number 2 2
  fraction
  let off ← offset
  if 23 * 60 + 59 < off then failure
  return (⟨y, mo, d⟩, ⟨h, mi, s⟩)

/-- Runs a reader on a whole text. -/
def whole {α : Type} (x : Scan α) (s : List Char) : Option α :=
  match x.run s with
  | some (a, []) => some a
  | _ => none

end Scan

/-- Reads a date. -/
def readDate? (s : List Char) : Option Date := (Scan.date.whole s).filter Date.isValid

/-- Reads a time of day. -/
def readTime? (time : Scan Time) (s : List Char) : Option Time := (time.whole s).filter Time.isValid

/-- Reads a date and a time with something between them. -/
def readBoth? (between : Scan Unit) (time : Scan Time) (s : List Char) : Option (Date × Time) :=
  let both : Scan (Date × Time) := do
    let d ← Scan.date
    between
    let t ← time
    return (d, t)
  (both.whole s).filter fun p => p.1.isValid && p.2.isValid

/-- Reads the stamp of an internet message. -/
def readStamp? (s : List Char) : Option (Date × Time) :=
  (Scan.stamp.whole s).filter fun p => p.1.isValid && p.2.isValid

/-- Reads a date and a time in a format, of which there are three. -/
def readDateTime? (format : String) (s : List Char) : Option (Date × Time) :=
  match format with
  | "%Y-%m-%d %H:%M:%S" => readBoth? Scan.blanks Scan.seconds s
  | "%Y-%m-%dT%H:%M:%S" => readBoth? (Scan.char 'T') Scan.seconds s
  | "%Y-%m-%d %H:%M" => readBoth? Scan.blanks Scan.minutes s
  | _ => none

/-- The library of these readers. -/
instance readers : Parsers where
  isStamp s := (readStamp? s).isSome
  isDateTime format s := (readDateTime? format s).isSome
  date? format s :=
    match format with
    | "%Y-%m-%d" => readDate? s
    | _ => none
  time? format s :=
    match format with
    | "%H:%M:%S" => readTime? Scan.seconds s
    | "%H:%M" => readTime? Scan.minutes s
    | _ => none

example : readDate? "2024- 1- 5".toList = some ⟨2024, 1, 5⟩ := by decide +kernel
example : readDate? "2023-02-29".toList = none := by decide +kernel
example : (readDateTime? "%Y-%m-%d %H:%M" "2024-01-0510:00".toList).isSome := by decide +kernel
example : readTime? Scan.seconds "10:00:60".toList = some ⟨10, 0, 60⟩ := by decide +kernel

end RowFilter.Calendar
