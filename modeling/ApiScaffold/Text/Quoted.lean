import ApiScaffold.Text.Point
import ApiScaffold.Text.Printable

/-!
# Quoted text

Text as messages show it: in single quotes, or in double quotes if the text holds a single quote and
no double one. What cannot be printed is escaped by its number, with two, four or eight hexadecimal
digits.

A letter of two characters is one code point and is shown by one number (`quotedLetter`). Bytes have
the same form with a mark in front; those beyond ASCII are always given by their number.
-/

namespace ApiScaffold.Text

/-- The lower-case hexadecimal digits of a number, padded with zeros to a width. -/
def hexDigits (width n : Nat) : List Char :=
  let digits := Nat.toDigits 16 n
  List.replicate (width - digits.length) '0' ++ digits

/-- An escape that gives a code point by its number. -/
def numbered (n : Nat) : List Char :=
  if n < 0x100 then '\\' :: 'x' :: hexDigits 2 n
  else if n < 0x10000 then '\\' :: 'u' :: hexDigits 4 n
  else '\\' :: 'U' :: hexDigits 8 n

/-- A character inside quotes of the given kind. -/
def quotedChar (quote c : Char) : List Char :=
  if c = quote ∨ c = '\\' then ['\\', c]
  else if c = '\n' then ['\\', 'n']
  else if c = '\r' then ['\\', 'r']
  else if c = '\t' then ['\\', 't']
  else if isPrintable c then [c]
  else numbered (point [c])

/-- A letter inside quotes of the given kind. -/
def quotedLetter (quote : Char) : Letter → List Char
  | [c] => quotedChar quote c
  | letter => numbered (point letter)

/-- The quote that encloses a text. -/
def enclosingQuote (cs : List Char) : Char :=
  if cs.contains '\'' && !cs.contains '"' then '"' else '\''

/-- The quoted form of a text. -/
def quoted (s : String) : String :=
  let quote := enclosingQuote s.toList
  String.ofList (quote :: (letters s.toList).flatMap (quotedLetter quote) ++ [quote])

/-- The quoted form of bytes: those that are no printable ASCII are given by their number. -/
def quotedBytes (bytes : List UInt8) : String :=
  let cs := bytes.map fun b => Char.ofNat b.toNat
  let quote := enclosingQuote cs
  let written := cs.flatMap fun c => if c.toNat < 127 then quotedChar quote c else numbered c.toNat
  String.ofList ('b' :: quote :: written ++ [quote])

end ApiScaffold.Text
