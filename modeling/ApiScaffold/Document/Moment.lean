/-!
# Days and moments

Days of the calendar and moments on a clock. A clock that tells how far it is ahead of the standard
time shows an instant, and moments on such clocks are compared by it; the others are compared by
what the clock shows.

A text may write days that the calendar does not have, so being valid is a test (`Day.isValid`,
`Moment.isValid`) which the reader of timestamps makes.
-/

namespace ApiScaffold

/-- A number with zeros in front, up to a width. -/
def padded (width n : Nat) : String :=
  let digits := Nat.toDigits 10 n
  String.ofList (List.replicate (width - digits.length) '0' ++ digits)

structure Day where
  year : Nat
  month : Nat
  day : Nat
deriving DecidableEq

namespace Day

def isLeap (year : Nat) : Bool := year % 4 == 0 && (year % 100 != 0 || year % 400 == 0)

/-- The number of days of a month. -/
def lengthOf (year month : Nat) : Nat :=
  if month = 2 then if isLeap year then 29 else 28
  else if [4, 6, 9, 11].contains month then 30 else 31

/-- Whether the calendar has the day; its years have one to four digits. -/
def isValid (d : Day) : Bool :=
  1 ≤ d.year && d.year ≤ 9999 && 1 ≤ d.month && d.month ≤ 12 && 1 ≤ d.day
    && d.day ≤ lengthOf d.year d.month

/-- The number of days up to this one, from the first of the year one on. -/
def number (d : Day) : Nat :=
  let past := d.year - 1
  let months := List.range' 1 (d.month - 1)
  months.foldl (fun days month => days + lengthOf d.year month)
    (past * 365 + past / 4 - past / 100 + past / 400 + d.day)

def text (d : Day) : String :=
  padded 4 d.year ++ "-" ++ padded 2 d.month ++ "-" ++ padded 2 d.day

/-- The parts of the quoted form. -/
def parts (d : Day) : List Nat := [d.year, d.month, d.day]

def quotedText (d : Day) : String :=
  "datetime.date(" ++ String.intercalate ", " (d.parts.map toString) ++ ")"

end Day

structure Moment where
  day : Day
  hour : Nat
  minute : Nat
  second : Nat
  /-- Millionths of a second. -/
  micro : Nat
  /-- By how many minutes the clock is ahead of the standard time, if it tells. -/
  ahead? : Option Int
deriving DecidableEq

namespace Moment

/-- Whether a clock can show the moment; it is less than a day off the standard time. -/
def isValid (m : Moment) : Bool :=
  m.day.isValid && m.hour < 24 && m.minute < 60 && m.second < 60
    && (m.ahead?.getD 0).natAbs < 24 * 60

/-- The millionths of a second up to the moment, on the standard clock if that is known. -/
def instant (m : Moment) : Int :=
  let minutes := Int.ofNat ((m.day.number * 24 + m.hour) * 60 + m.minute) - m.ahead?.getD 0
  (minutes * 60 + Int.ofNat m.second) * 1000000 + Int.ofNat m.micro

/-- Whether two moments are one. -/
def sameInstant (a b : Moment) : Bool :=
  a.ahead?.isSome == b.ahead?.isSome && a.instant == b.instant

/-- How far the clock is ahead, in the text of a moment. -/
def aheadText : Option Int → String
  | none => ""
  | some n =>
    (if n < 0 then "-" else "+") ++ padded 2 (n.natAbs / 60) ++ ":" ++ padded 2 (n.natAbs % 60)

/-- Day and time with a separator between them. -/
def text (separator : String) (m : Moment) : String :=
  m.day.text ++ separator ++ padded 2 m.hour ++ ":" ++ padded 2 m.minute ++ ":" ++ padded 2 m.second
    ++ (if m.micro = 0 then "" else "." ++ padded 6 m.micro) ++ aheadText m.ahead?

/-- The parts of the quoted form; zeros at the end are left out. -/
def parts (m : Moment) : List Nat :=
  m.day.parts ++ [m.hour, m.minute]
    ++ (if m.micro ≠ 0 then [m.second, m.micro] else if m.second ≠ 0 then [m.second] else [])

/-- How far the clock is ahead, in the quoted form of a moment. -/
def aheadQuoted : Option Int → String
  | none => ""
  | some n =>
    let seconds := fun (n : Int) => "seconds=" ++ toString (n * 60)
    ", tzinfo=datetime.timezone" ++
      (if n = 0 then ".utc"
      else if 0 < n then "(datetime.timedelta(" ++ seconds n ++ "))"
      else "(datetime.timedelta(days=-1, " ++ seconds (n + 24 * 60) ++ "))")

def quotedText (m : Moment) : String :=
  "datetime.datetime(" ++ String.intercalate ", " (m.parts.map toString)
    ++ aheadQuoted m.ahead? ++ ")"

end Moment

end ApiScaffold
