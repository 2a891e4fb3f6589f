import Optima.Decimal
import Optima.Text.Basic

namespace Optima

/-!
# Timestamps

A moment is written as a date, a time of day and, unless it is meant locally, the
distance of that time from the common one.  Two moments can be compared only if
both or neither of them are local.
-/

/-- A date and a time of day. -/
structure Timestamp where
  year : Nat
  month : Nat
  day : Nat
  hour : Nat
  minute : Nat
  second : Nat
  microsecond : Nat
  /-- Minutes by which the time of day is ahead of the common time; none if it is local. -/
  ahead : Option Int
  deriving Repr, DecidableEq

namespace Timestamp

/-- Number of leap days in the years before a year. -/
def leapDaysBefore (year : Nat) : Nat :=
  (year - 1) / 4 - (year - 1) / 100 + (year - 1) / 400

/-- Whether a year has a leap day. -/
def isLeap (year : Nat) : Bool :=
  year % 4 = 0 && (year % 100 != 0 || year % 400 = 0)

/-- The lengths of the months of a year. -/
def monthLengths (year : Nat) : List Nat :=
  [31, if isLeap year then 29 else 28, 31, 30, 31, 30, 31, 31, 30, 31, 30, 31]

/-- Number of days from the first day of the first year to a date. -/
def dayNumber (timestamp : Timestamp) : Nat :=
  365 * (timestamp.year - 1) + leapDaysBefore timestamp.year
    + ((monthLengths timestamp.year).take (timestamp.month - 1)).foldl (· + ·) 0 + (timestamp.day - 1)

/-- Microseconds from the start of the first year to a moment, in the common time if it is known. -/
def instant (timestamp : Timestamp) : Int :=
  let minutes : Int :=
    ((timestamp.dayNumber * 24 + timestamp.hour) * 60 + timestamp.minute : Nat)
      - timestamp.ahead.getD 0
  (minutes * 60 + timestamp.second) * 1000000 + timestamp.microsecond

/-- Number of days from the first day of the first year to the first day of a year. -/
def daysBefore (year : Nat) : Nat :=
  365 * (year - 1) + leapDaysBefore year

/-- The year of a day. -/
def yearOf (day : Nat) : Nat :=
  let guess := day * 400 / 146097 + 1
  if day < daysBefore guess then guess - 1
  else if daysBefore (guess + 1) ≤ day then guess + 1
  else guess

/-- The month and the day of the month, given the lengths of the months from a month on. -/
def monthOf (month day : Nat) : List Nat → Nat × Nat
  | [] => (month, day + 1)
  | length :: rest =>
    if day < length then (month, day + 1) else monthOf (month + 1) (day - length) rest

/-- The moment that is a number of microseconds after the start of the first year. -/
def ofInstant (microseconds : Nat) : Timestamp :=
  let seconds := microseconds / 1000000
  let day := seconds / 86400
  let year := yearOf day
  let (month, dayOfMonth) := monthOf 1 (day - daysBefore year) (monthLengths year)
  ⟨year, month, dayOfMonth, seconds / 3600 % 24, seconds / 60 % 60, seconds % 60,
    microseconds % 1000000, some 0⟩

/-- The moment that is a number of microseconds later, in the common time. -/
def after (timestamp : Timestamp) (microseconds : Nat) : Timestamp :=
  ofInstant (timestamp.instant.toNat + microseconds)

/-- Whether two moments can be compared. -/
def comparable (first second : Timestamp) : Bool :=
  first.ahead.isSome == second.ahead.isSome

/-- Whether the fields are within their ranges. -/
def isValid (timestamp : Timestamp) : Bool :=
  1 ≤ timestamp.year && timestamp.year ≤ 9999 && 1 ≤ timestamp.month && timestamp.month ≤ 12
    && 1 ≤ timestamp.day
    && timestamp.day ≤ (monthLengths timestamp.year).getD (timestamp.month - 1) 0
    && timestamp.hour < 24 && timestamp.minute < 60 && timestamp.second < 60

/-- The decimal digits of a number, filled up to a width with zeros. -/
def padded (width value : Nat) : String :=
  let digits := Nat.toDigits 10 value
  String.ofList (List.replicate (width - digits.length) '0' ++ digits)

/-- The distance from the common time. -/
def aheadText (ahead : Int) : String :=
  (if ahead < 0 then "-" else "+") ++ padded 2 (ahead.natAbs / 60) ++ ":"
    ++ padded 2 (ahead.natAbs % 60)

/-- The written form of a moment. -/
def render (timestamp : Timestamp) : String :=
  padded 4 timestamp.year ++ "-" ++ padded 2 timestamp.month ++ "-" ++ padded 2 timestamp.day
    ++ "T" ++ padded 2 timestamp.hour ++ ":" ++ padded 2 timestamp.minute ++ ":"
    ++ padded 2 timestamp.second
    ++ (if timestamp.microsecond = 0 then "" else "." ++ padded 6 timestamp.microsecond)
    ++ ((timestamp.ahead.map aheadText).getD "")

/-- The number that a count of digits writes, and what follows it. -/
def readDigits? (count : Nat) (input : List Char) : Option (Nat × List Char) :=
  let digits := input.take count
  if digits.length = count && digits.all Char.isDigit then
    some (Decimal.digitsValue digits, input.drop count)
  else none

/-- What follows a character. -/
def after? (expected : Char) : List Char → Option (List Char)
  | character :: rest => if character == expected then some rest else none
  | [] => none

/-- A distance from the common time, at the end of a text. -/
def readAhead? : List Char → Option (Option Int)
  | [] => some none
  | ['Z'] | ['z'] => some (some 0)
  | character :: rest =>
    if character == '+' || character == '-' then do
      let (hours, afterHours) ← readDigits? 2 rest
      let (minutes, ending) ← readDigits? 2 ((after? ':' afterHours).getD afterHours)
      let distance : Int := (hours * 60 + minutes : Nat)
      if ending.isEmpty && hours < 24 && minutes < 60 then
        return some (if character == '-' then -distance else distance)
      else none
    else none

/-- The microseconds of a fraction of a second; digits beyond the sixth are dropped. -/
def readFraction? (input : List Char) : Option (Nat × List Char) :=
  match after? '.' input with
  | none => some (0, input)
  | some rest =>
    let digits := rest.takeWhile Char.isDigit
    let six := (digits ++ List.replicate 6 '0').take 6
    if digits.isEmpty then none else some (Decimal.digitsValue six, rest.drop digits.length)

/-- The seconds of a time of day, which may be left out. -/
def readSeconds? (input : List Char) : Option (Nat × Nat × List Char) :=
  match after? ':' input with
  | none => some (0, 0, input)
  | some rest => do
    let (second, afterSecond) ← readDigits? 2 rest
    let (microsecond, ending) ← readFraction? afterSecond
    return (second, microsecond, ending)

/-- Characters between a date and a time of day. -/
def isSeparator (character : Char) : Bool :=
  character == 'T' || character == 't' || character == ' ' || character == '_'

/-- The moment that a text writes; a date alone is the start of the day. -/
def ofText? (written : String) : Option Timestamp := do
  let (year, afterYear) ← readDigits? 4 (Letters.trim written.toList)
  let (month, afterMonth) ← readDigits? 2 (← after? '-' afterYear)
  let (day, afterDay) ← readDigits? 2 (← after? '-' afterMonth)
  match afterDay with
  | [] => checked ⟨year, month, day, 0, 0, 0, 0, none⟩
  | character :: rest =>
    if isSeparator character then do
      let (hour, afterHour) ← readDigits? 2 rest
      let (minute, afterMinute) ← readDigits? 2 (← after? ':' afterHour)
      let (second, microsecond, ending) ← readSeconds? afterMinute
      let ahead ← readAhead? ending
      checked ⟨year, month, day, hour, minute, second, microsecond, ahead⟩
    else none
where
  checked (timestamp : Timestamp) : Option Timestamp :=
    if timestamp.isValid then some timestamp else none

end Timestamp

end Optima
