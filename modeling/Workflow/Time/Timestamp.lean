/-!
# `Workflow.Time.Timestamp` — points in time

A timestamp text is a calendar date, a time of day and an offset from universal time, as RFC 3339 lays them
down.

## Contents
- `daysOfDate` and `dateOfDays`, the calendar.
- `Timestamp`, its order, and `Timestamp.parse?`.
- `Timestamp.render`, the universal time of a number of milliseconds.
-/

namespace Workflow

/-! ## Calendar -/

namespace Calendar

def isLeapYear (year : Nat) : Bool := year % 4 = 0 && (year % 100 ≠ 0 || year % 400 = 0)

/-- The number of days of a month, from one to twelve. -/
def daysOfMonth (year month : Nat) : Nat :=
  if month = 2 then (if isLeapYear year then 29 else 28)
  else if month = 4 ∨ month = 6 ∨ month = 9 ∨ month = 11 then 30
  else 31

/-- The days from the first of January of the year zero to that of a year. -/
def daysBeforeYear (year : Nat) : Nat := 365 * year + (year + 3) / 4 - (year + 99) / 100 + (year + 399) / 400

/-- The days of a year before a month. -/
def daysBeforeMonth (year month : Nat) : Nat :=
  (List.range (month - 1)).foldl (fun days i => days + daysOfMonth year (i + 1)) 0

/-- The day on which seconds are counted from, 1970-01-01, in days since the year zero. -/
def epochDay : Nat := 719528

/-- The days from 1970-01-01 to a date. -/
def daysOfDate (year month day : Nat) : Int :=
  (daysBeforeYear year + daysBeforeMonth year month + (day - 1) : Nat) - (epochDay : Int)

/-- Year, month and day of a number of days since the year zero. -/
def dateOfDays (days : Nat) : Nat × Nat × Nat :=
  -- No year has more than 366 days or fewer than 365, which bounds the year on both sides.
  let guess := days / 366
  let year := ((List.range (days / 365 - guess + 1)).map (guess + ·)).foldl
    (fun year next => if daysBeforeYear next ≤ days then next else year) guess
  let rest := days - daysBeforeYear year
  let month := (List.range 12).foldl
    (fun month i => if daysBeforeMonth year (i + 1) ≤ rest then i + 1 else month) 1
  (year, month, rest - daysBeforeMonth year month + 1)

end Calendar

/-! ## Timestamps -/

/-- A point in time, with the offset of its local clock. -/
structure Timestamp where
  /-- Seconds of universal time since 1970-01-01. -/
  seconds : Int
  /-- Nanoseconds; a leap second is counted as a second billion within the second before it. -/
  nanos : Nat
  /-- Seconds by which the local clock is ahead. -/
  offset : Int
  deriving DecidableEq, Repr

namespace Timestamp

/-- Order in universal time. -/
def compare (a b : Timestamp) : Ordering :=
  (Ord.compare a.seconds b.seconds).then (Ord.compare a.nanos b.nanos)

/-- Takes digits of a fixed count from the front of a text. -/
def digits? : Nat → List Char → Option (Nat × List Char)
  | count, cs =>
    let digits := cs.take count
    if digits.length = count ∧ digits.all Char.isDigit then
      some (digits.foldl (fun n c => n * 10 + (c.toNat - '0'.toNat)) 0, cs.drop count)
    else none

/-- Takes a given character from the front of a text. -/
def expect? (allowed : List Char) : List Char → Option (List Char)
  | c :: rest => if c ∈ allowed then some rest else none
  | [] => none

/-- Takes the fraction of a second, in nanoseconds: further digits are dropped. -/
def fraction? : List Char → Option (Nat × List Char)
  | '.' :: rest =>
    let digits := (rest.takeWhile Char.isDigit).take 9
    if digits.isEmpty then none
    else
      let value := digits.foldl (fun n c => n * 10 + (c.toNat - '0'.toNat)) 0
      some (value * Nat.pow 10 (9 - digits.length), rest.dropWhile Char.isDigit)
  | cs => some (0, cs)

/-- Takes an offset, in seconds. -/
def offset? : List Char → Option (Int × List Char)
  | 'Z' :: rest | 'z' :: rest => some (0, rest)
  | sign :: rest => do
    let direction : Int ←
      if sign = '+' then some 1 else if sign = '-' ∨ sign = '\u2212' then some (-1) else none
    let (hours, rest) ← digits? 2 rest
    let rest ← expect? [':'] rest
    let (minutes, rest) ← digits? 2 rest
    if hours ≤ 23 ∧ minutes ≤ 59 then
      some (direction * ((hours * 60 + minutes) * 60 : Nat), rest)
    else none
  | [] => none

/-- The point in time that a text denotes. -/
def parse? (text : String) : Option Timestamp := do
  let (year, rest) ← digits? 4 text.toList
  let (month, rest) ← digits? 2 (← expect? ['-'] rest)
  let (day, rest) ← digits? 2 (← expect? ['-'] rest)
  let (hour, rest) ← digits? 2 (← expect? ['T', 't', ' '] rest)
  let (minute, rest) ← digits? 2 (← expect? [':'] rest)
  let (second, rest) ← digits? 2 (← expect? [':'] rest)
  let (nanos, rest) ← fraction? rest
  let (offset, rest) ← offset? rest
  if !rest.isEmpty then none
  if month = 0 ∨ 12 < month ∨ day = 0 ∨ Calendar.daysOfMonth year month < day then none
  if 23 < hour ∨ 59 < minute ∨ 60 < second then none
  -- A leap second is told by its nanoseconds, so that it comes after all of the second before it.
  let leap := second = 60
  let clock := (hour * 60 + minute) * 60 + (if leap then 59 else second)
  return {
    seconds := Calendar.daysOfDate year month day * 86400 + clock - offset
    nanos := if leap then nanos + 1000000000 else nanos
    offset }

/-- A number with leading zeros up to a width. -/
def padded (width n : Nat) : String :=
  let text := toString n
  "".pushn '0' (width - text.length) ++ text

/-- The universal time of milliseconds since 1970-01-01, with three places. -/
def render (millis : Nat) : String :=
  let seconds := millis / 1000
  let (year, month, day) := Calendar.dateOfDays (seconds / 86400 + Calendar.epochDay)
  let clock := seconds % 86400
  padded 4 year ++ "-" ++ padded 2 month ++ "-" ++ padded 2 day ++ "T"
    ++ padded 2 (clock / 3600) ++ ":" ++ padded 2 (clock / 60 % 60) ++ ":" ++ padded 2 (clock % 60)
    ++ "." ++ padded 3 (millis % 1000) ++ "Z"

end Timestamp

end Workflow
