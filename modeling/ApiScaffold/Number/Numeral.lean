import ApiScaffold.Number.Binary64
import ApiScaffold.Text.Kind

/-!
# Numerals

Numbers as texts write them: digits of a base, a sign in front, blanks around and single underscores
between digits; decimal digits may be of any script. A floating-point number has a fraction or an
exponent besides.

Decimal integers with more than `maxDigits` digits are not read, and an integer of that size is not
written either. This is a rule about integers and not about texts: `Value.isWritable` asks it of a
value.
-/

namespace ApiScaffold.Numeral

/-- The value of a digit in any base up to sixteen. -/
def digitValue? (c : Char) : Option Nat :=
  if '0' ≤ c ∧ c ≤ '9' then some (c.toNat - '0'.toNat)
  else if 'a' ≤ c ∧ c ≤ 'f' then some (c.toNat - 'a'.toNat + 10)
  else if 'A' ≤ c ∧ c ≤ 'F' then some (c.toNat - 'A'.toNat + 10)
  else none

/-- The number that digits of a base denote, most significant first, if all of them are digits of
that base. -/
def ofDigits? (base : Nat) (cs : List Char) : Option Nat :=
  cs.foldl (fun acc c => do
    let n ← acc
    let d ← digitValue? c
    if d < base then some (n * base + d) else none) (some 0)

/-- The most digits that a decimal numeral may have to be read or written. -/
def maxDigits : Nat := 4300

/-- Whether a character may stand around a numeral: a blank, but no separator of ASCII. -/
def surrounds (c : Char) : Bool := Text.isBlank c && !(28 ≤ c.toNat && c.toNat ≤ 31)

/-- The value of a digit in any base up to sixteen; a decimal digit may be of any script. -/
def digitOf? (c : Char) : Option Nat := (digitValue? c).or (Text.decimalValue? c)

/-- Digits of a base, where a single underscore may stand between two of them. -/
def groupedDigits? (base : Nat) : List Char → Option (List Nat)
  | [] => none
  | c :: rest => do
    let d ← digitOf? c
    if base ≤ d then none
    else match rest with
      | [] => some [d]
      | '_' :: more => (d :: ·) <$> groupedDigits? base more
      | next :: more => (d :: ·) <$> groupedDigits? base (next :: more)

/-- The sign at the head of a numeral and the rest. -/
def splitSign : List Char → Bool × List Char
  | '-' :: rest => (true, rest)
  | '+' :: rest => (false, rest)
  | rest => (false, rest)

/-- The letter behind a zero that announces a base. -/
def baseSign? : Nat → Option Char
  | 2 => some 'b'
  | 8 => some 'o'
  | 16 => some 'x'
  | _ => none

/-- A numeral without the announcement of its base, behind which an underscore may stand. -/
def dropBaseSign (base : Nat) (cs : List Char) : List Char :=
  match cs with
  | '0' :: c :: rest =>
    if baseSign? base = some c.toLower then
      match rest with
      | '_' :: more => more
      | _ => rest
    else cs
  | _ => cs

/-- An integer of a base with an optional sign and with blanks around it. The number of decimal
digits is limited. -/
def integerIn? (base : Nat) (s : String) : Option Int :=
  let (negative, body) := splitSign (Text.dropEnds surrounds s.toList)
  match groupedDigits? base (dropBaseSign base body) with
  | none => none
  | some ds =>
    if base = 10 ∧ maxDigits < ds.length then none
    else
      let n : Int := ds.foldl (fun acc d => acc * Int.ofNat base + Int.ofNat d) 0
      some (if negative then -n else n)

/-- A decimal integer with an optional sign and with blanks around it. -/
def integer? (s : String) : Option Int := integerIn? 10 s

/-- The number that a sign, the digits before and after the point and an exponent denote. -/
def decimal (negative : Bool) (whole fraction : List Char) (exponent : Int) : Binary64 :=
  Binary64.ofDecimal negative ((ofDigits? 10 (whole ++ fraction)).getD 0)
    (exponent - Int.ofNat fraction.length)

/-- Digits with an optional fraction and an optional exponent; one of the digits before and after
the point has to be there. -/
def unsigned? (negative : Bool) (cs : List Char) : Option Binary64 :=
  let (whole, rest) := (cs.takeWhile Char.isDigit, cs.dropWhile Char.isDigit)
  let (fraction, rest) := match rest with
    | '.' :: more => (more.takeWhile Char.isDigit, more.dropWhile Char.isDigit)
    | _ => ([], rest)
  if whole.isEmpty && fraction.isEmpty then none
  else match rest with
    | [] => some (decimal negative whole fraction 0)
    | 'e' :: rest =>
      let (below, digits) := match rest with
        | '-' :: more => (true, more)
        | '+' :: more => (false, more)
        | more => (false, more)
      if digits.isEmpty then none
      else (ofDigits? 10 digits).bind fun n =>
        if digits.all Char.isDigit then
          some (decimal negative whole fraction (if below then -Int.ofNat n else Int.ofNat n))
        else none
    | _ => none

/-- A floating-point number in small letters, with an optional sign and with blanks around it. -/
def float? (cs : List Char) : Option Binary64 :=
  let plain := (Text.dropEnds surrounds cs).map fun c =>
    match Text.decimalValue? c with
    | some d => Char.ofNat ('0'.toNat + d)
    | none => c
  let (negative, body) := splitSign plain
  match String.ofList body with
  | "inf" | "infinity" => some (.infinite negative)
  | "nan" => some .nan
  | _ => unsigned? negative body

end ApiScaffold.Numeral
