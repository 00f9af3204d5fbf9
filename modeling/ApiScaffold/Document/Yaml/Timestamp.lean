import ApiScaffold.Document.Moment
import ApiScaffold.Number.Numeral

/-!
# Timestamps

Days and moments as YAML writes them: `2001-12-14`, `2001-12-14t21:59:43.10-05:00` or `2001-12-14
21:59:43.10 -5`.

The form is read first (`ofText?`), whether or not there is such a day or time. A scalar of that
form is a timestamp by its kind, and a day that the calendar lacks is then a scalar that has no
value.
-/

namespace ApiScaffold.Yaml

/-- A day, and the time on it if one is given. -/
structure Timestamp where
  day : Day
  /-- Whether month and day have two digits each. -/
  isPadded : Bool
  moment? : Option Moment

namespace Timestamp

/-- A number of `least` to `most` digits, how many it has, and what follows them. -/
def number? (least most : Nat) (cs : List Char) : Option (Nat × Nat × List Char) :=
  let digits := (cs.take most).takeWhile Char.isDigit
  if digits.length < least then none
  else (Numeral.ofDigits? 10 digits).map fun n => (n, digits.length, cs.drop digits.length)

/-- What follows a sign that has to stand here. -/
def after? (sign : Char) : List Char → Option (List Char)
  | [] => none
  | c :: rest => if c = sign then some rest else none

def isGap (c : Char) : Bool := c == ' ' || c == '\t'

/-- The minutes behind the sign of a time zone: hours, and minutes after a colon. -/
def zoneMinutes? (cs : List Char) : Option Nat := do
  let (hours, _, rest) ← number? 1 2 cs
  match rest with
  | [] => return hours * 60
  | _ => do
    let (minutes, _, rest) ← number? 2 2 (← after? ':' rest)
    if rest.isEmpty then return hours * 60 + minutes else none

/-- How far the clock is ahead, as the end of a timestamp tells; there may be no end. -/
def zone? : List Char → Option (Option Int)
  | [] => some none
  | cs => match cs.dropWhile isGap with
    | ['Z'] => some (some 0)
    | '+' :: rest => (zoneMinutes? rest).map fun n => some (Int.ofNat n)
    | '-' :: rest => (zoneMinutes? rest).map fun n => some (-Int.ofNat n)
    | _ => none

/-- The millionths that the digits behind a point denote; further digits are cut off. -/
def millionths (digits : List Char) : Nat :=
  let six := digits.take 6
  (Numeral.ofDigits? 10 (six ++ List.replicate (6 - six.length) '0')).getD 0

/-- The moment of a day that a clock shows. -/
def onDay? (day : Day) (cs : List Char) : Option Moment := do
  let (hour, _, rest) ← number? 1 2 cs
  let (minute, _, rest) ← number? 2 2 (← after? ':' rest)
  let (second, _, rest) ← number? 2 2 (← after? ':' rest)
  let (fraction, rest) := match rest with
    | '.' :: more => (more.takeWhile Char.isDigit, more.dropWhile Char.isDigit)
    | _ => ([], rest)
  return { day, hour, minute, second, micro := millionths fraction, ahead? := ← zone? rest }

/-- A text as a timestamp, whether or not there is such a time. -/
def ofText? (cs : List Char) : Option Timestamp := do
  let (year, _, rest) ← number? 4 4 cs
  let (month, n₁, rest) ← number? 1 2 (← after? '-' rest)
  let (day, n₂, rest) ← number? 1 2 (← after? '-' rest)
  let isPadded := n₁ + n₂ == 4
  let day : Day := { year, month, day }
  match rest with
  | [] => return { day, isPadded, moment? := none }
  | c :: more =>
    if c = 'T' ∨ c = 't' then return { day, isPadded, moment? := some (← onDay? day more) }
    else if isGap c then
      return { day, isPadded, moment? := some (← onDay? day (more.dropWhile isGap)) }
    else none

end Timestamp

end ApiScaffold.Yaml
