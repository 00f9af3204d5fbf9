import ApiScaffold.Document.Value
import ApiScaffold.Number.Numeral
import ApiScaffold.Text.Point
import ApiScaffold.Text.Split

/-!
# JSON

The reading of JSON text into values. A number with a point or an exponent is a floating-point
number, any other an integer; `NaN`, `Infinity` and `-Infinity` are accepted. Of members with one
name the last value counts, in the place of the first.

An escape may give one half of a pair alone, which is then one code point of the text; two halves
that stand next to each other as escapes are one character.

A fault keeps how much of the text was left where it shows (`Fault`), and its account counts the
letters up to there. Integers with very many digits and values in very many others are not read, and
that is no fault of the text: it stops without an account.
-/

namespace ApiScaffold.Json

/-- What is wrong with a text, and how many characters were left where it shows. -/
structure Fault where
  text : String
  left : Nat

/-- Why a text has no value. -/
inductive Stop where
  | fault (f : Fault)
  /-- A form that is read but that is beyond what a document may hold. -/
  | unsuitable

def fail {α : Type} (text : String) (rest : List Char) : Except Stop α :=
  .error (.fault ⟨text, rest.length⟩)

def isSpace (c : Char) : Bool := c == ' ' || c == '\t' || c == '\n' || c == '\r'

def skipSpace (cs : List Char) : List Char := cs.dropWhile isSpace

/-- The number of the four hexadecimal digits behind the `u` of an escape, which have to be inside
the text. -/
def unit (cs : List Char) : Except Stop (Nat × List Char) :=
  let digits := (cs.drop 1).take 4
  match Numeral.ofDigits? 16 digits with
  | some n => if 5 < cs.length then .ok (n, cs.drop 5) else fail "Invalid \\uXXXX escape" cs
  | none => fail "Invalid \\uXXXX escape" cs

/-- The character of an escape that is written as one letter. -/
def shortEscape? : Char → Option Char
  | '"' => some '"'
  | '\\' => some '\\'
  | '/' => some '/'
  | 'b' => some (Char.ofNat 8)
  | 'f' => some (Char.ofNat 12)
  | 'n' => some '\n'
  | 'r' => some '\r'
  | 't' => some '\t'
  | _ => none

/-- The code point that a unit and, for a pair of halves, the unit after it denote. -/
def unitPoint (first : Nat) (rest : List Char) : Except Stop (Nat × List Char) :=
  match rest with
  | '\\' :: 'u' :: more =>
    if !Text.isFirstHalf first || more.length < 5 then .ok (first, rest)
    else do
      let (second, after) ← unit ('u' :: more)
      if Text.isSecondHalf second then return (Text.joinHalves first second, after)
      else return (first, rest)
  | _ => .ok (first, rest)

/-- The characters up to the closing quote; `start` is the text from the opening quote on, and
`fuel` bounds the number of characters. -/
def stringBody (start : List Char) : Nat → List Char → List Char → Except Stop (String × List Char)
  | 0, _, _ => fail "Unterminated string starting at" start
  | _, _, [] => fail "Unterminated string starting at" start
  | fuel + 1, read, c :: rest =>
    if c = '"' then .ok (String.ofList read.reverse, rest)
    else if c = '\\' then
      match rest with
      | [] => fail "Unterminated string starting at" start
      | 'u' :: _ => do
        let (n, after) ← unit rest
        let (n, after) ← unitPoint n after
        stringBody start fuel ((Text.spell n).reverse ++ read) after
      | d :: more => match shortEscape? d with
        | none => fail "Invalid \\escape" (c :: rest)
        | some e => stringBody start fuel (e :: read) more
    else if c.toNat < 32 then fail "Invalid control character at" (c :: rest)
    else stringBody start fuel (c :: read) rest

/-- A string from its opening quote on, in a text of a certain size. -/
def string (size : Nat) (cs : List Char) : Except Stop (String × List Char) :=
  match cs with
  | '"' :: rest => stringBody cs (size + 1) [] rest
  | _ => fail "Expecting value" cs

/-- The digits at the start of a text. -/
def digits (cs : List Char) : List Char × List Char :=
  (cs.takeWhile Char.isDigit, cs.dropWhile Char.isDigit)

/-- The fraction at the start of a text: nothing, or a point and digits. -/
def fraction : List Char → List Char × List Char
  | '.' :: rest => match digits rest with
    | ([], _) => ([], '.' :: rest)
    | parts => parts
  | cs => ([], cs)

/-- The exponent at the start of a text, if there is one. -/
def exponent? : List Char → Option (Int × List Char)
  | e :: rest =>
    if e = 'e' ∨ e = 'E' then
      let (negative, body) := match rest with
        | '-' :: more => (true, more)
        | '+' :: more => (false, more)
        | more => (false, more)
      match digits body with
      | ([], _) => none
      | (ds, after) =>
        let n : Int := Int.ofNat ((Numeral.ofDigits? 10 ds).getD 0)
        some (if negative then -n else n, after)
    else none
  | [] => none

/-- A number at the start of a text; `start` is the text with the sign. -/
def number (negative : Bool) (start cs : List Char) : Except Stop (Value × List Char) :=
  let (whole, rest) := match cs with
    | '0' :: rest => (['0'], rest)
    | _ => digits cs
  match whole with
  | [] => fail "Expecting value" start
  | _ =>
    let (decimals, rest) := fraction rest
    match exponent? rest, decimals with
    | some (e, after), _ => .ok (.float (Numeral.decimal negative whole decimals e), after)
    | none, [] =>
      if Numeral.maxDigits < whole.length then .error .unsuitable
      else
        let n : Int := Int.ofNat ((Numeral.ofDigits? 10 whole).getD 0)
        .ok (.int (if negative then -n else n), rest)
    | none, _ => .ok (.float (Numeral.decimal negative whole decimals 0), rest)

/-- The values that are written as a word. -/
def words : List (String × Value) := [
  ("null", .null), ("true", .bool true), ("false", .bool false), ("NaN", .float .nan),
  ("Infinity", .float (.infinite false)), ("-Infinity", .float (.infinite true))]

/-- A word at the start of a text. -/
def word? (cs : List Char) : Option (Value × List Char) :=
  words.findSome? fun (text, value) =>
    if text.toList.isPrefixOf cs then some (value, cs.drop text.length) else none

/-- How many objects and arrays may stand inside each other. -/
def maxDepth : Nat := 990

mutual

/-- A value that stands in `depth` others at the start of the rest of a text of a certain size.
`fuel` bounds the number of parts. -/
def value (size : Nat) : Nat → Nat → List Char → Except Stop (Value × List Char)
  | 0, _, cs => fail "Expecting value" cs
  | fuel + 1, depth, cs =>
    match cs with
    | '"' :: _ => (fun (s, rest) => (Value.str s, rest)) <$> string size cs
    | '\x7b' :: rest =>
      if depth = maxDepth then .error .unsuitable
      else match skipSpace rest with
        | '\x7d' :: after => .ok (.emptyMap, after)
        | body => members size fuel (depth + 1) [] body
    | '[' :: rest =>
      if depth = maxDepth then .error .unsuitable
      else match skipSpace rest with
        | ']' :: after => .ok (.list [], after)
        | body => items size fuel (depth + 1) [] body
    | _ => match word? cs with
      | some read => .ok read
      | none => match cs with
        | '-' :: rest => number true cs rest
        | _ => number false cs cs

/-- The members of an object from a name on. -/
def members (size : Nat) : Nat → Nat → Members → List Char → Except Stop (Value × List Char)
  | 0, _, _, cs => fail "Expecting value" cs
  | fuel + 1, depth, read, cs =>
    match cs with
    | '"' :: _ => do
      let (name, rest) ← string size cs
      match skipSpace rest with
      | ':' :: rest =>
        let (v, rest) ← value size fuel depth (skipSpace rest)
        let read := Members.insert read (.str name) v
        match skipSpace rest with
        | ',' :: rest => members size fuel depth read (skipSpace rest)
        | '\x7d' :: rest => .ok (.map read, rest)
        | rest => fail "Expecting ',' delimiter" rest
      | rest => fail "Expecting ':' delimiter" rest
    | _ => fail "Expecting property name enclosed in double quotes" cs

/-- The items of an array from a value on. -/
def items (size : Nat) : Nat → Nat → List Value → List Char → Except Stop (Value × List Char)
  | 0, _, _, cs => fail "Expecting value" cs
  | fuel + 1, depth, read, cs => do
    let (v, rest) ← value size fuel depth cs
    match skipSpace rest with
    | ',' :: rest => items size fuel depth (v :: read) (skipSpace rest)
    | ']' :: rest => .ok (.list (v :: read).reverse, rest)
    | rest => fail "Expecting ',' delimiter" rest

end

/-- Reads a text that is one value. -/
def read (s : String) : Except Stop Value :=
  let cs := s.toList
  if cs.head? = some (Char.ofNat 0xFEFF) then
    fail "Unexpected UTF-8 BOM (decode using utf-8-sig)" cs
  else
    match value cs.length (cs.length + 1) 0 (skipSpace cs) with
    | .error stop => .error stop
    | .ok (v, rest) => match skipSpace rest with
      | [] => .ok v
      | extra => fail "Extra data" extra

/-- The account of a fault, with its place in the text. -/
def Fault.account (fault : Fault) (cs : List Char) : String :=
  let before := Text.letters (cs.take (cs.length - fault.left))
  fault.text ++ ": line " ++ toString (before.count ['\n'] + 1) ++ " column "
    ++ toString ((before.reverse.takeWhile (· ≠ ['\n'])).length + 1) ++ " (char "
    ++ toString before.length ++ ")"

/-- The account of what is wrong with a text, if it is malformed. -/
def Stop.account? (stop : Stop) (text : List Char) : Option String :=
  match stop with
  | fault f => some (f.account text)
  | unsuitable => none

end ApiScaffold.Json
