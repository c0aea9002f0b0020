import Mathlib

/-!
# Date-times in ISO 8601 format

What `datetime.fromisoformat` reads: a calendar date or a week date, with or without dashes,
and after one separating character of any kind the time of day, with or without colons, a
fraction of a second and an offset from UTC.

- `DateTime`: the wall clock and the offset, in microseconds; without an offset it denotes no
  instant of its own.
- `parse`: reading a text.
- `DateTime.utc`: the instant, where it lies in the years 1 to 9999.
-/

namespace IsoFormat

/-- A date-time: the microseconds of its wall clock since the beginning of the year 1, and its
offset from UTC, if it has one. -/
structure DateTime where
  wall : Int
  offset : Option Int
  deriving DecidableEq

/-- Microseconds in a second. -/
def second : Int := 1000000

/-- Microseconds in a day. -/
def day : Int := 86400 * second

/-! ## Days -/

def isLeap (year : Nat) : Bool := year % 4 = 0 && (year % 100 ≠ 0 || year % 400 = 0)

def daysInMonth (year month : Nat) : Nat :=
  match month with
  | 2 => if isLeap year then 29 else 28
  | 4 | 6 | 9 | 11 => 30
  | _ => 31

/-- The days of a year before a month. -/
def daysBeforeMonth (year month : Nat) : Nat :=
  ((List.range (month - 1)).map fun m => daysInMonth year (m + 1)).sum

/-- The days before a year, from the year 1 on. -/
def daysBeforeYear (year : Nat) : Nat :=
  (year - 1) * 365 + (year - 1) / 4 - (year - 1) / 100 + (year - 1) / 400

/-- The last day of the year 9999, counted from the first day of the year 1. -/
def maxOrdinal : Nat := 3652059

/-- The number of a calendar day; the first day of the year 1 has the number 1. -/
def ordinal (year month d : Nat) : Option Nat :=
  if 1 ≤ year ∧ 1 ≤ month ∧ month ≤ 12 ∧ 1 ≤ d ∧ d ≤ daysInMonth year month then
    some (daysBeforeYear year + daysBeforeMonth year month + d)
  else none

/-- The number of the Monday of a year's first week, the one with the year's first Thursday. -/
def firstMonday (year : Nat) : Int :=
  let first : Int := daysBeforeYear year + 1
  let weekday := (first + 6) % 7
  if 3 < weekday then first - weekday + 7 else first - weekday

/-- A year that begins on a Thursday, or on a Wednesday if it is a leap year, has 53 weeks. -/
def weeks (year : Nat) : Nat :=
  let weekday := (daysBeforeYear year + 1) % 7
  if weekday = 4 ∨ weekday = 3 ∧ isLeap year then 53 else 52

/-- The number of a day of a week. -/
def weekOrdinal (year week d : Nat) : Option Nat :=
  let n := firstMonday year + (week - 1) * 7 + (d - 1)
  if 1 ≤ year ∧ 1 ≤ week ∧ week ≤ weeks year ∧ 1 ≤ d ∧ d ≤ 7 ∧ 1 ≤ n ∧ n ≤ maxOrdinal then
    some n.toNat
  else none

/-! ## Digits -/

/-- A text of digits, and nothing else. -/
def number (cs : List Char) : Option Nat :=
  if cs ≠ [] ∧ cs.all Char.isDigit then some (cs.foldl (fun n c => 10 * n + (c.toNat - 48)) 0)
  else none

/-- A text of so many digits. -/
def digits (n : Nat) (cs : List Char) : Option Nat := if cs.length = n then number cs else none

/-- Two digits and what follows them. -/
def twoDigits : List Char → Option (Nat × List Char)
  | a :: b :: rest => (number [a, b]).map (·, rest)
  | _ => none

/-! ## Dates -/

/-- The date has dashes. -/
def dashed (cs : List Char) : Bool := cs[4]? = some '-'

/-- The characters of the date: where the separator of a text of more than 7 characters is. -/
def dateLength (cs : List Char) : Option Nat :=
  if cs.length = 7 then some 7
  else if dashed cs then
    if cs[5]? = some 'W' then
      -- YYYY-Www-D, or YYYY-Www with a dash for a separator
      if cs[8]? = some '-' then
        if cs.length = 9 then none
        else if (cs[10]?).any Char.isDigit then some 8
        else some 10
      else some 8
    else some 10
  else if cs[4]? = some 'W' then
    -- YYYYWww or YYYYWwwD: the digits after the week, and perhaps of the time
    let digits := 7 + ((cs.drop 7).takeWhile Char.isDigit).length
    some (if digits < 9 then digits else if digits % 2 = 0 then 7 else 8)
  else some 8

/-- The number of the day that a date of 7, 8 or 10 characters names. -/
def parseDate (cs : List Char) : Option Nat := do
  let year ← digits 4 (cs.take 4)
  let sep := dashed cs
  match cs.drop (if sep then 5 else 4) with
  | 'W' :: rest =>
    let week ← digits 2 (rest.take 2)
    match rest.drop 2 with
    | [] => weekOrdinal year week 1
    | c :: rest =>
      if sep then if c = '-' then weekOrdinal year week (← digits 1 rest) else none
      else weekOrdinal year week (← digits 1 (c :: rest))
  | rest =>
    let month ← digits 2 (rest.take 2)
    match rest.drop 2 with
    | [] => none
    | c :: rest =>
      if sep then if c = '-' then ordinal year month (← digits 2 rest) else none
      else ordinal year month (← digits 2 (c :: rest))

/-! ## Times -/

/-- The microseconds of a fraction of a second; digits after the sixth are left out. -/
def fraction (cs : List Char) : Option Nat :=
  if cs.all Char.isDigit then
    (number (cs.take 6)).map fun n => n * 10 ^ (6 - (cs.take 6).length)
  else none

/-- The next part of a time of day: the colon before it is there if the first one was. -/
def nextPart (sep : Bool) (cs : List Char) : Option (Nat × List Char) :=
  if sep then
    match cs with
    | ':' :: rest => twoDigits rest
    | _ => none
  else twoDigits cs

/-- Hours, minutes, seconds and microseconds: `HH[:?MM[:?SS[{.,}f+]]]`. -/
def parseParts (cs : List Char) : Option (Nat × Nat × Nat × Nat) := do
  let (hour, rest) ← twoDigits cs
  if rest = [] then return (hour, 0, 0, 0)
  let sep := decide (rest.head? = some ':')
  let (minute, rest) ← nextPart sep rest
  if rest = [] then return (hour, minute, 0, 0)
  let (sec, rest) ← nextPart sep rest
  match rest with
  | [] => return (hour, minute, sec, 0)
  | mark :: rest =>
    if mark = '.' ∨ mark = ',' then return (hour, minute, sec, ← fraction rest)
    else none

/-- The microseconds of hours, minutes, seconds and microseconds. -/
def micros (parts : Nat × Nat × Nat × Nat) : Int :=
  ((parts.1 * 60 + parts.2.1) * 60 + parts.2.2.1 : Nat) * second + parts.2.2.2

/-- The time of day; the parts are in their ranges. -/
def parseClock (cs : List Char) : Option Int := do
  let parts ← parseParts cs
  if parts.1 < 24 ∧ parts.2.1 < 60 ∧ parts.2.2.1 < 60 then return micros parts
  else none

/-- The offset after the time of day: none, `Z`, or a sign and less than a day. -/
def parseOffset : List Char → Option (Option Int)
  | [] => some none
  | ['Z'] => some (some 0)
  | 'Z' :: _ => none
  | sign :: cs => do
    let shift := micros (← parseParts cs)
    if shift < day then return some (if sign = '-' then -shift else shift)
    else none

/-- The time of day and the offset. -/
def parseTime (cs : List Char) : Option (Int × Option Int) := do
  let marks := fun c : Char => c ≠ '+' && c ≠ '-' && c ≠ 'Z'
  return (← parseClock (cs.takeWhile marks), ← parseOffset (cs.dropWhile marks))

/-- `datetime.fromisoformat`; `none` is its `ValueError`. -/
def parse (cs : List Char) : Option DateTime :=
  if cs.length < 7 then none
  else do
    let length ← dateLength cs
    let date ← parseDate (cs.take length)
    match cs.drop (length + 1) with
    | [] => return ⟨(date - 1 : Int) * day, none⟩
    | time =>
      let (clock, offset) ← parseTime time
      return ⟨(date - 1 : Int) * day + clock, offset⟩

/-- The instant in UTC, if it lies in the years 1 to 9999; `naive` says what becomes of a
date-time without an offset. -/
def DateTime.utc (t : DateTime) (naive : Int → Option Int) : Option Int :=
  match t.offset with
  | some offset =>
    if 0 ≤ t.wall - offset ∧ t.wall - offset < maxOrdinal * day then some (t.wall - offset) else none
  | none => naive t.wall

end IsoFormat
