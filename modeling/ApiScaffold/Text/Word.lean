import ApiScaffold.Text.Kind
import ApiScaffold.Text.Word.Table

/-!
# Words and names

A word is a run of letters, numbers, marks and underscores; a name is a word that starts with a
letter or an underscore and holds no form of a number but decimal digits.

Templates cut words first and then ask whether a word is a name, so that a word that is none is
reported as a whole.
-/

namespace ApiScaffold.Text

/-- Whether a character may start a name. -/
def isNameStart (c : Char) : Bool :=
  if c.toNat < 128 then c.isAlpha || c == '_' else inSpans nameStartSpans c.toNat

/-- Whether a character may stand in a name behind its start. -/
def isNameRest (c : Char) : Bool :=
  isNameStart c || (if c.toNat < 128 then c.isDigit else inSpans nameRestSpans c.toNat)

/-- Whether a character belongs to words. -/
def isWordChar (c : Char) : Bool := isNameRest c || inSpans wordOnlySpans c.toNat

/-- Whether a text is a name. -/
def isName : List Char → Bool
  | [] => false
  | c :: cs => isNameStart c && cs.all isNameRest

end ApiScaffold.Text
