import ApiScaffold.Text.Quoted

/-!
# String literals

Literals in double quotes that hold printable ASCII only: short escapes where there are any, else
the UTF-16 units of a code point as `\uXXXX`. A lone half is one unit and written as such, so every
text has a literal.

Which printable characters stay as they are is a parameter of `literalLetter`: JSON inside markup
escapes more of them than a literal in source code.
-/

namespace ApiScaffold.Text

/-- One unit as an escape of six characters. -/
def unitEscape (unit : Nat) : List Char := '\\' :: 'u' :: hexDigits 4 unit

/-- A code point as the escapes of its units. -/
def unitEscapes (n : Nat) : List Char := (utf16Units n).flatMap unitEscape

/-- A character inside a literal; `keeps` tells the printable ones that stay. -/
def literalChar (keeps : Char → Bool) (c : Char) : List Char :=
  if c = '"' then ['\\', '"']
  else if c = '\\' then ['\\', '\\']
  else if c = '\n' then ['\\', 'n']
  else if c = '\r' then ['\\', 'r']
  else if c = '\t' then ['\\', 't']
  else if c.toNat = 8 then ['\\', 'b']
  else if c.toNat = 12 then ['\\', 'f']
  else if keeps c then [c]
  else unitEscapes (point [c])

/-- A letter inside a literal. -/
def literalLetter (keeps : Char → Bool) : Letter → List Char
  | [c] => literalChar keeps c
  | letter => unitEscapes (point letter)

/-- Whether a character is printable ASCII. -/
def isPlain (c : Char) : Bool := 32 ≤ c.toNat && c.toNat < 127

/-- The literal that denotes a text. -/
def literal (s : String) : String :=
  String.ofList ('"' :: (letters s.toList).flatMap (literalLetter isPlain) ++ ['"'])

end ApiScaffold.Text
