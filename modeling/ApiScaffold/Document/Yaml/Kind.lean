import ApiScaffold.Document.Value
import ApiScaffold.Document.Yaml.Timestamp
import ApiScaffold.Number.Numeral
import ApiScaffold.Text.Case
import ApiScaffold.Text.Split

/-!
# Kinds of nodes

Which kind a plain scalar has by its form, which kind a tag names, and the value that a scalar of a
kind stands for. The forms are those of YAML 1.1: `yes` and `on` are flags, `0x1F`, `017` and `1:30`
are integers and `2001-12-14` is a day.

Form and value are apart, since a tag may ask for a kind whose form the text does not have: then the
value is missing, and that is a fault of its own.
-/

namespace ApiScaffold.Yaml

inductive Kind where
  | null
  | bool
  | int
  | float
  | time
  | text
  | binary
  | sequence
  | mapping
  | set
  /-- A sequence of mappings of one member each, which may be `ordered` members of one mapping. -/
  | pairs (ordered : Bool)
  /-- The key under which other mappings are merged into one. -/
  | merge
  /-- The key of the value that a mapping has as a scalar. -/
  | scalarKey
  /-- A tag without a meaning. -/
  | unknown (tag : String)
deriving DecidableEq

/-- What the tags of the standard kinds start with. -/
def standardPrefix : String := "tag:yaml.org,2002:"

/-- The standard tags by the names behind what they start with. -/
def standardKinds : List (String × Kind) := [
  ("null", .null), ("bool", .bool), ("int", .int), ("float", .float), ("timestamp", .time),
  ("str", .text), ("binary", .binary), ("seq", .sequence), ("map", .mapping), ("set", .set),
  ("omap", .pairs true), ("pairs", .pairs false), ("merge", .merge), ("value", .scalarKey)]

/-- The kind that a tag names. -/
def Kind.ofTag (tag : String) : Kind :=
  (standardKinds.find? fun k => standardPrefix ++ k.1 = tag).elim (.unknown tag) Prod.snd

/-- The tag of a kind. -/
def Kind.tag : Kind → String
  | unknown tag => tag
  | kind => standardPrefix ++ ((standardKinds.find? fun k => k.2 = kind).elim "" Prod.fst)

namespace Plain

/-- The words for yes and no. -/
def flags : List (String × Bool) := [
  ("yes", true), ("no", false), ("true", true), ("false", false), ("on", true), ("off", false)]

/-- A word in small letters, with a capital at its head, and in capitals. -/
def casings (word : String) : List String :=
  [word, Text.capitalize word, Text.upper word]

def isFlag (s : String) : Bool := flags.any fun f => (casings f.1).contains s

def isNull (s : String) : Bool := s == "" || s == "~" || (casings "null").contains s

def dropSign (cs : List Char) : List Char := (Numeral.splitSign cs).2

def isDigits (p : Char → Bool) (cs : List Char) : Bool :=
  !cs.isEmpty && cs.all fun c => p c || c == '_'

def isOctal (c : Char) : Bool := '0' ≤ c && c ≤ '7'

/-- A number below sixty of one or two digits. -/
def isSixtieth (cs : List Char) : Bool :=
  match cs with
  | [a] => a.isDigit
  | [a, b] => '0' ≤ a && a ≤ '5' && b.isDigit
  | _ => false

/-- Digits from the first on, which has to satisfy a test. -/
def isNumeral (first : Char → Bool) : List Char → Bool
  | [] => false
  | c :: rest => first c && rest.all fun d => d.isDigit || d == '_'

/-- A number to the base sixty: a numeral and numbers below sixty, all after colons. -/
def isSexagesimal (first : Char → Bool) (cs : List Char) : Bool :=
  match Text.splitOn ':' cs with
  | head :: part :: parts => isNumeral first head && (part :: parts).all isSixtieth
  | _ => false

def isNonZero (c : Char) : Bool := '1' ≤ c && c ≤ '9'

def isInt (cs : List Char) : Bool :=
  match dropSign cs with
  | ['0'] => true
  | '0' :: 'b' :: rest => isDigits (fun c => c == '0' || c == '1') rest
  | '0' :: 'x' :: rest => isDigits (fun c => (Numeral.digitValue? c).isSome) rest
  | '0' :: rest => isDigits isOctal rest
  | body => isNumeral isNonZero body || isSexagesimal isNonZero body

/-- Nothing, or an exponent with a sign. -/
def isExponent : List Char → Bool
  | [] => true
  | e :: sign :: rest =>
    (e == 'e' || e == 'E') && (sign == '-' || sign == '+') && !rest.isEmpty && rest.all Char.isDigit
  | _ => false

/-- The part after the point of a number. -/
def isFraction (cs : List Char) : Bool :=
  isExponent (cs.dropWhile fun c => c.isDigit || c == '_')

def isFloat (cs : List Char) : Bool :=
  let body := dropSign cs
  match Text.cutAt? '.' body with
  | none => false
  | some ([], rest) =>
    ["inf", "Inf", "INF"].contains (String.ofList rest)
      || (body.length == cs.length && (["nan", "NaN", "NAN"].contains (String.ofList rest)
        || ((rest.head?.map Char.isDigit).getD false && isFraction rest)))
  | some (whole, rest) =>
    (isNumeral Char.isDigit whole && isFraction rest)
      || (isSexagesimal Char.isDigit whole && rest.all fun c => c.isDigit || c == '_')

/-- Whether a text is a moment, or a day with two digits each for month and day. -/
def isTime (cs : List Char) : Bool :=
  match Timestamp.ofText? cs with
  | some t => t.isPadded || t.moment?.isSome
  | none => false

/-- A text without a line feed at its end. -/
def dropLineFeed (cs : List Char) : List Char :=
  if cs.getLast? = some '\n' then cs.dropLast else cs

end Plain

/-- The kind of a plain scalar. -/
def Kind.ofPlain (s : String) : Kind :=
  if Plain.isNull s then .null
  else if Plain.isFlag s then .bool
  else if Plain.isFloat s.toList then .float
  else if Plain.isInt s.toList then .int
  else if Plain.isTime s.toList then .time
  else if s = "<<" then .merge
  else if s = "=" then .scalarKey
  else .text

/-- The kind that a text has by its form, where a line feed at its end does not count. -/
def Kind.ofForm (s : String) : Kind :=
  if s = "\n" then .text else ofPlain (String.ofList (Plain.dropLineFeed s.toList))

namespace Scalar

def bool? (s : String) : Option Bool := Plain.flags.lookup (Text.lower s)

/-- A number to the base sixty, its parts from the last on. -/
def sexagesimal? : List (List Char) → Option Int
  | [] => some 0
  | part :: rest => do
    return (← Numeral.integer? (String.ofList part)) + 60 * (← sexagesimal? rest)

def int? (cs : List Char) : Option Int :=
  let (negative, body) := Numeral.splitSign (cs.filter (· ≠ '_'))
  let magnitude := match body with
    | [] => none
    | ['0'] => some 0
    | '0' :: 'b' :: rest => Numeral.integerIn? 2 (String.ofList rest)
    | '0' :: 'x' :: rest => Numeral.integerIn? 16 (String.ofList rest)
    | '0' :: _ => Numeral.integerIn? 8 (String.ofList body)
    | _ =>
      if body.contains ':' then sexagesimal? (Text.splitOn ':' body).reverse
      else Numeral.integer? (String.ofList body)
  magnitude.map fun n => if negative then -n else n

/-- A floating-point number to the base sixty, its parts from the last on, each rounded when it is
added. -/
def floatSexagesimal? (sum : Binary64) (base : Nat) : List (List Char) → Option Binary64
  | [] => some sum
  | part :: rest => do
    let x ← Numeral.float? part
    floatSexagesimal? (sum.add (← x.scaleBy? base)) (base * 60) rest

def float? (cs : List Char) : Option Binary64 :=
  let (negative, body) := Numeral.splitSign ((cs.filter (· ≠ '_')).flatMap Text.lowerChar)
  let magnitude := match String.ofList body with
    | "" => none
    | ".nan" => some Binary64.nan
    | ".inf" => some (.infinite false)
    | _ =>
      if body.contains ':' then floatSexagesimal? .zero 1 (Text.splitOn ':' body).reverse
      else Numeral.float? body
  magnitude.map fun x => if negative then x.negate else x

/-- A day or a moment that the calendar has. -/
def time? (cs : List Char) : Option Value := do
  let t ← Timestamp.ofText? (Plain.dropLineFeed cs)
  match t.moment? with
  | some m => if m.isValid then some (.moment m) else none
  | none => if t.day.isValid then some (.date t.day) else none

end Scalar

end ApiScaffold.Yaml
