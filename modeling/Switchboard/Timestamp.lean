import Switchboard.Text.Blank
import Switchboard.Text.Numeral

/-!
# Timestamps

Points in time in the notation of RFC 3339. A timestamp is read with any
offset and kept in universal time; it is written with `Z` and no, three, six or
nine digits after the seconds, as many as it needs.

A leap second is a second 60, and is kept as the second 59 with a fraction of
one second or more. Reading is lenient about blanks between the parts, about
the case of the letters and about the sign of the offset.

## Main definitions

* `Timestamp`: Seconds since the epoch and a fraction in nanoseconds.
* `Timestamp.daysOfCivil`, `Timestamp.civilOfDays`: Dates as day numbers.
* `Timestamp.read?`: The timestamp a text denotes.
* `Timestamp.chars`: The written form.
* `Timestamp.before`: The order in time.
-/

namespace Switchboard

/-- A point in time. -/
structure Timestamp where
  /-- Seconds since the start of 1970 in universal time, leap seconds not counted. -/
  seconds : Int
  /-- Nanoseconds on top of that; a leap second has a fraction of one second or more. -/
  nanos : Nat
  deriving DecidableEq, Inhabited

namespace Timestamp

/-- Whether one point in time is before another. -/
def before (a b : Timestamp) : Bool :=
  a.seconds < b.seconds || (a.seconds == b.seconds && a.nanos < b.nanos)

/-- A date of the Gregorian calendar, extended to all years. -/
structure Civil where
  year : Int
  month : Nat
  day : Nat
  deriving DecidableEq

/-- Whether a year has a 29 February. -/
def isLeapYear (year : Int) : Bool :=
  year % 4 == 0 && (year % 100 != 0 || year % 400 == 0)

/-- The number of days of a month. -/
def daysInMonth (year : Int) (month : Nat) : Nat :=
  if month == 2 then (if isLeapYear year then 29 else 28)
  else if month == 4 || month == 6 || month == 9 || month == 11 then 30
  else 31

/-- The number of days from 1 January 1970 to a date. Years are counted from March, so that
    the leap day is the last day of its year. -/
def daysOfCivil (d : Civil) : Int :=
  let year := if d.month ≤ 2 then d.year - 1 else d.year
  let era := year / 400
  let yearOfEra := year % 400
  let monthFromMarch : Int := ((d.month : Int) + 9) % 12
  let dayOfYear := (153 * monthFromMarch + 2) / 5 + (d.day : Int) - 1
  let dayOfEra := yearOfEra * 365 + yearOfEra / 4 - yearOfEra / 100 + dayOfYear
  era * 146097 + dayOfEra - 719468

/-- The date a number of days after 1 January 1970. -/
def civilOfDays (days : Int) : Civil :=
  let z := days + 719468
  let era := z / 146097
  let dayOfEra := z % 146097
  let yearOfEra := (dayOfEra - dayOfEra / 1460 + dayOfEra / 36524 - dayOfEra / 146096) / 365
  let dayOfYear := dayOfEra - (365 * yearOfEra + yearOfEra / 4 - yearOfEra / 100)
  let monthFromMarch := (5 * dayOfYear + 2) / 153
  let day := dayOfYear - (153 * monthFromMarch + 2) / 5 + 1
  let month := if monthFromMarch < 10 then monthFromMarch + 3 else monthFromMarch - 9
  let year := yearOfEra + era * 400 + (if month ≤ 2 then 1 else 0)
  ⟨year, month.toNat, day.toNat⟩

/-- The first year that can be told. -/
def firstYear : Int := -262143

/-- The last year that can be told. -/
def lastYear : Int := 262142

/-- Whether a year can be told. -/
def isTellableYear (year : Int) : Bool :=
  firstYear ≤ year && year ≤ lastYear

/-- Whether a number of seconds since the epoch lies in a year that can be told. -/
def isTellable (seconds : Int) : Bool :=
  daysOfCivil ⟨firstYear, 1, 1⟩ * 86400 ≤ seconds &&
    seconds < daysOfCivil ⟨lastYear + 1, 1, 1⟩ * 86400

/-- A text without the blanks at its start. -/
def skipBlanks (cs : List Char) : List Char :=
  cs.dropWhile Text.isBlank

/-- One or more digits at the start of a text, at most `width` of them. -/
def takeNumber (width : Nat) (cs : List Char) : Option (Nat × List Char) :=
  let digits := (cs.take width).takeWhile Text.isAsciiDigit
  if digits.isEmpty then none else some (Text.digitsValue 0 digits, cs.drop digits.length)

/-- A number of at most two digits that lies in a range, blanks before it skipped. -/
def takePart (low high : Nat) (cs : List Char) : Option (Nat × List Char) :=
  (takeNumber 2 (skipBlanks cs)).filter fun part => low ≤ part.1 && part.1 ≤ high

/-- A character of a given kind after blanks. -/
def takeMark (mark : Char) (cs : List Char) : Option (List Char) :=
  match skipBlanks cs with
  | c :: rest => if c = mark then some rest else none
  | [] => none

/-- The year: four digits at most, any number of digits after a sign. -/
def takeYear (cs : List Char) : Option (Int × List Char) :=
  match skipBlanks cs with
  | '-' :: rest => (takeNumber rest.length rest).map fun (n, after) => (-(n : Int), after)
  | '+' :: rest => (takeNumber rest.length rest).map fun (n, after) => ((n : Int), after)
  | cs' => (takeNumber 4 cs').map fun (n, after) => ((n : Int), after)

/-- The fraction of a second in nanoseconds, if a point follows; digits beyond the ninth are
    passed over. -/
def takeFraction (cs : List Char) : Option (Nat × List Char) :=
  match cs with
  | '.' :: rest =>
    let digits := rest.takeWhile Text.isAsciiDigit
    if digits.isEmpty then none
    else
      let kept := digits.take 9
      some (Text.digitsValue 0 kept * Nat.pow 10 (9 - kept.length), rest.drop digits.length)
  | _ => some (0, cs)

/-- The date. -/
def takeDate (cs : List Char) : Option (Civil × List Char) := do
  let (year, cs) ← takeYear cs
  let cs ← takeMark '-' cs
  let (month, cs) ← takePart 1 12 cs
  let cs ← takeMark '-' cs
  let (day, cs) ← takePart 1 31 cs
  if isTellableYear year && day ≤ daysInMonth year month then some (⟨year, month, day⟩, cs)
  else none

/-- The time of day in seconds and nanoseconds. -/
def takeTime (cs : List Char) : Option ((Nat × Nat) × List Char) := do
  let (hour, cs) ← takePart 0 23 cs
  let cs ← takeMark ':' cs
  let (minute, cs) ← takePart 0 59 cs
  let cs ← takeMark ':' cs
  let (second, cs) ← takePart 0 60 cs
  let (nanos, cs) ← takeFraction cs
  -- A leap second is the second before it with one more second as its fraction.
  if second = 60 then some ((hour * 3600 + minute * 60 + 59, nanos + 1000000000), cs)
  else some ((hour * 3600 + minute * 60 + second, nanos), cs)

/-- Two digits of an offset. -/
def takeTwoDigits (cs : List Char) : Option (Nat × List Char) :=
  match cs with
  | a :: b :: rest =>
    if Text.isAsciiDigit a && Text.isAsciiDigit b then some (Text.digitsValue 0 [a, b], rest)
    else none
  | _ => none

/-- The offset in seconds after its sign: hours, colons or blanks, minutes. -/
def takeOffset (cs : List Char) : Option (Nat × List Char) := do
  let (hours, cs) ← takeTwoDigits cs
  let cs := cs.dropWhile fun c => c == ':' || Text.isBlank c
  let (minutes, cs) ← takeTwoDigits cs
  if minutes < 60 then some (hours * 3600 + minutes * 60, cs) else none

/-- The zone: the letter for universal time, its name, or a signed offset. -/
def takeZone (cs : List Char) : Option (Int × List Char) :=
  match cs with
  | [] => none
  | c :: rest =>
    if (cs.take 3).map Char.toLower = ['u', 't', 'c'] then some (0, cs.drop 3)
    else if c = 'Z' || c = 'z' then some (0, rest)
    else if c = '+' then (takeOffset rest).map fun (n, after) => ((n : Int), after)
    else if c = '-' || c = '\u2212' then
      (takeOffset rest).map fun (n, after) => (-(n : Int), after)
    else none

/-- The timestamp that a text denotes. -/
def readChars? (cs : List Char) : Option Timestamp := do
  let (date, cs) ← takeDate cs
  let cs ← match cs with
    | c :: rest => if c = 't' || c = 'T' || c = ' ' then some rest else none
    | [] => none
  let ((seconds, nanos), cs) ← takeTime cs
  let (offset, cs) ← takeZone (skipBlanks cs)
  -- The offset may lead out of the years that can be told.
  let seconds := daysOfCivil date * 86400 + (seconds : Int) - offset
  if (skipBlanks cs).isEmpty && offset.natAbs < 86400 && isTellable seconds then
    some ⟨seconds, nanos⟩
  else none

/-- The timestamp that a text denotes. -/
def read? (s : String) : Option Timestamp :=
  readChars? s.toList

/-- A number with zeros in front up to a width. -/
def padded (width n : Nat) : List Char :=
  let digits := Text.numeralChars n
  List.replicate (width - digits.length) '0' ++ digits

/-- A year: four digits, and a sign if it needs more or is before the year 0. -/
def yearChars (year : Int) : List Char :=
  if 0 ≤ year && year ≤ 9999 then padded 4 year.toNat
  else (if year < 0 then '-' else '+') :: padded 4 year.natAbs

/-- The fraction of a second with as many digits as it needs in steps of three. -/
def fractionChars (nanos : Nat) : List Char :=
  if nanos = 0 then []
  else if nanos % 1000000 = 0 then '.' :: padded 3 (nanos / 1000000)
  else if nanos % 1000 = 0 then '.' :: padded 6 (nanos / 1000)
  else '.' :: padded 9 nanos

/-- The written form of a timestamp. -/
def chars (t : Timestamp) : List Char :=
  let date := civilOfDays (t.seconds / 86400)
  let second := (t.seconds % 86400).toNat
  let (shown, nanos) :=
    if t.nanos < 1000000000 then (second % 60, t.nanos)
    else (second % 60 + 1, t.nanos - 1000000000)
  yearChars date.year ++ '-' :: padded 2 date.month ++ '-' :: padded 2 date.day ++
    'T' :: padded 2 (second / 3600) ++ ':' :: padded 2 (second / 60 % 60) ++
    ':' :: padded 2 shown ++ fractionChars nanos ++ ['Z']

/-- The written form of a timestamp. -/
def text (t : Timestamp) : String :=
  String.ofList t.chars

end Timestamp

end Switchboard
