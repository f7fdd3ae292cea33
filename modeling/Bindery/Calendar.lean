import Bindery.Text.Blank
import Bindery.Text.Numeral

/-!
# Dates and times of day

Dates of the proleptic Gregorian calendar, with a year zero, and times of day
in which a minute may end in a leap second. Both have a text form.

* `Date.text`, `TimeOfDay.text`, `Timestamp.text`: the text of a value.
* `Date.read?`, `TimeOfDay.read?`, `Timestamp.read?`: the value of a text. The
  reader is more liberal than the writer: blanks may precede a number, and
  leading zeros may be missing.
-/

namespace Bindery

open Bindery.Text

/-! ## Dates -/

/-- Whether February has a twenty-ninth day. -/
def isLeapYear (year : Int) : Bool :=
  decide (year % 4 = 0) && (decide (year % 100 ≠ 0) || decide (year % 400 = 0))

/-- The number of days of a month, counted from one. -/
def daysInMonth (year : Int) (month : Nat) : Nat :=
  match month with
  | 1 | 3 | 5 | 7 | 8 | 10 | 12 => 31
  | 4 | 6 | 9 | 11 => 30
  | 2 => if isLeapYear year then 29 else 28
  | _ => 0

/-- The least year of a date. -/
def leastYear : Int := -262143

/-- The greatest year of a date. -/
def greatestYear : Int := 262142

/-- Whether year, month and day name a day of the calendar. -/
def IsDay (year : Int) (month day : Nat) : Prop :=
  leastYear ≤ year ∧ year ≤ greatestYear ∧ 1 ≤ day ∧ day ≤ daysInMonth year month

instance (year : Int) (month day : Nat) : Decidable (IsDay year month day) := by
  unfold IsDay; infer_instance

/-- A day of the calendar (`NaiveDate`). -/
structure Date where
  year : Int
  month : Nat
  day : Nat
  isDay : IsDay year month day
  deriving DecidableEq

/-- The day with the given year, month and day, if there is one
    (`NaiveDate::from_ymd_opt`). -/
def Date.of? (year : Int) (month day : Nat) : Option Date :=
  if h : IsDay year month day then some ⟨year, month, day, h⟩ else none

/-- The text of a year: four digits at least, with a sign outside 0 to 9999. -/
def yearText (year : Int) : List Char :=
  if 0 ≤ year ∧ year ≤ 9999 then decimalPadded 4 year.natAbs
  else (if year < 0 then '-' else '+') :: decimalPadded 4 year.natAbs

/-- The characters of a date: year, month and day between hyphens. -/
def Date.chars (d : Date) : List Char :=
  yearText d.year ++ '-' :: (decimalPadded 2 d.month ++ '-' :: decimalPadded 2 d.day)

/-- The text of a date (`NaiveDate::format` with `DATE_FORMAT`). -/
def Date.text (d : Date) : String := String.ofList d.chars

/-! ## Times of day -/

/-- Whether the fields are a time of day: nanoseconds from a full second on are
    the leap second at the end of a minute. -/
def IsTime (hour minute second nanos : Nat) : Prop :=
  hour < 24 ∧ minute < 60 ∧ second < 60 ∧ nanos < 2000000000 ∧
    (1000000000 ≤ nanos → second = 59)

instance (hour minute second nanos : Nat) : Decidable (IsTime hour minute second nanos) := by
  unfold IsTime; infer_instance

/-- A time of day (`NaiveTime`). -/
structure TimeOfDay where
  hour : Nat
  minute : Nat
  second : Nat
  nanos : Nat
  isTime : IsTime hour minute second nanos
  deriving DecidableEq

/-- The time of day with the given fields, if there is one
    (`NaiveTime::from_hms_nano_opt`). -/
def TimeOfDay.of? (hour minute second nanos : Nat) : Option TimeOfDay :=
  if h : IsTime hour minute second nanos then some ⟨hour, minute, second, nanos, h⟩ else none

/-- The second that is shown: 60 in a leap second. -/
def TimeOfDay.shownSecond (t : TimeOfDay) : Nat := t.second + t.nanos / 1000000000

/-- The characters of a time of day, whole seconds between colons. -/
def TimeOfDay.chars (t : TimeOfDay) : List Char :=
  decimalPadded 2 t.hour ++ ':' :: (decimalPadded 2 t.minute ++ ':' :: decimalPadded 2 t.shownSecond)

/-- The text of a time of day (`NaiveTime::format` with `TIME_FORMAT`). -/
def TimeOfDay.text (t : TimeOfDay) : String := String.ofList t.chars

/-- A day and a time of day (`NaiveDateTime`). -/
structure Timestamp where
  date : Date
  time : TimeOfDay
  deriving DecidableEq

/-- The characters of a timestamp: date and time with a space between. -/
def Timestamp.chars (t : Timestamp) : List Char := t.date.chars ++ ' ' :: t.time.chars

/-- The text of a timestamp (`NaiveDateTime::format` with `DATETIME_FORMAT`). -/
def Timestamp.text (t : Timestamp) : String := String.ofList t.chars

/-! ## Reading -/

/-- A number of one to `width` digits, and the text behind it. -/
def readNumber? (width : Nat) (cs : List Char) : Option (Nat × List Char) :=
  let digits := (cs.take width).takeWhile isDigit
  (readDecimal? digits).map fun n => (n, cs.drop digits.length)

/-- A number of one to `width` digits behind blanks, and the text behind it. -/
def readField? (width : Nat) (cs : List Char) : Option (Nat × List Char) :=
  readNumber? width (skipBlanks cs)

/-- A year behind blanks: up to four digits, or a sign and any number of them. -/
def readYear? (cs : List Char) : Option (Int × List Char) :=
  match skipBlanks cs with
  | '-' :: rest => (readNumber? rest.length rest).map fun (n, behind) => (-(n : Int), behind)
  | '+' :: rest => (readNumber? rest.length rest).map fun (n, behind) => ((n : Int), behind)
  | cs => (readNumber? 4 cs).map fun (n, behind) => ((n : Int), behind)

/-- The text behind a character, if a text starts with it. -/
def behindChar? (c : Char) : List Char → Option (List Char)
  | d :: rest => if d = c then some rest else none
  | [] => none

/-- A date and the text behind it. -/
def Date.readFrom? (cs : List Char) : Option (Date × List Char) := do
  let (year, cs) ← readYear? cs
  let cs ← behindChar? '-' cs
  let (month, cs) ← readField? 2 cs
  let cs ← behindChar? '-' cs
  let (day, cs) ← readField? 2 cs
  let date ← Date.of? year month day
  return (date, cs)

/-- A time of day and the text behind it. Second 60 is a leap second. -/
def TimeOfDay.readFrom? (cs : List Char) : Option (TimeOfDay × List Char) := do
  let (hour, cs) ← readField? 2 cs
  let cs ← behindChar? ':' cs
  let (minute, cs) ← readField? 2 cs
  let cs ← behindChar? ':' cs
  let (second, cs) ← readField? 2 cs
  let time ← if second = 60 then TimeOfDay.of? hour minute 59 1000000000
    else TimeOfDay.of? hour minute second 0
  return (time, cs)

/-- The date a whole text denotes (`NaiveDate::parse_from_str`). -/
def Date.read? (s : String) : Option Date :=
  match Date.readFrom? s.toList with
  | some (d, []) => some d
  | _ => none

/-- The time of day a whole text denotes (`NaiveTime::parse_from_str`). -/
def TimeOfDay.read? (s : String) : Option TimeOfDay :=
  match TimeOfDay.readFrom? s.toList with
  | some (t, []) => some t
  | _ => none

/-- The timestamp a whole text denotes; the space in the middle may be any number of
    blanks (`NaiveDateTime::parse_from_str`). -/
def Timestamp.read? (s : String) : Option Timestamp := do
  let (date, cs) ← Date.readFrom? s.toList
  let (time, cs) ← TimeOfDay.readFrom? (skipBlanks cs)
  if cs = [] then some ⟨date, time⟩ else none

end Bindery
