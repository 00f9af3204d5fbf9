import ApiScaffold.Document.Value
import ApiScaffold.Number.Shortest
import ApiScaffold.Spec
import ApiScaffold.Text.Literal

/-!
# JSON that is safe inside markup

The text of a value as JSON that may stand inside of markup: printable ASCII only, the members of
mappings in the order of their keys, and the characters that markup gives a meaning by their number.
A value has none where it holds bytes, times or a set, or a mapping whose keys have no names or no
order among themselves.
-/

namespace ApiScaffold.Markup

/-- The printable characters that markup gives a meaning. -/
def isMarkup (c : Char) : Bool := c == '<' || c == '>' || c == '&' || c == '\''

/-- A text in quotes. -/
def quoted (s : String) : String :=
  String.ofList ('"' :: (Text.letters s.toList).flatMap
    (Text.literalLetter fun c => Text.isPlain c && !isMarkup c) ++ ['"'])

def number : Binary64 → String
  | .nan => "NaN"
  | .infinite negative => if negative then "-Infinity" else "Infinity"
  | x => x.text

/-- The name that a key is written as. -/
def key? : Value → Option String
  | .str s => some s
  | .int n => some (toString n)
  | .float x => some (number x)
  | .bool b => some (if b then "true" else "false")
  | .null => some "null"
  | _ => none

/-- A name and a written value that share a place among the members. -/
def memberText (member : Value × String) : Option String :=
  (key? member.1).map fun name => quoted name ++ ": " ++ member.2

mutual

/-- The text of a value; bytes, times and sets have none, nor has a mapping whose keys have no
order. -/
def json? : Value → Option String
  | .null => some "null"
  | .bool b => some (if b then "true" else "false")
  | .int n => (Value.int n).display?
  | .float x => some (number x)
  | .str s => some (quoted s)
  | .bytes _ | .date _ | .moment _ | .set _ | .again _ => none
  | .list items => do
    let texts ← itemTexts? items
    return "[" ++ String.intercalate ", " texts ++ "]"
  | .pair a b => do return "[" ++ (← json? a) ++ ", " ++ (← json? b) ++ "]"
  | .map members => do
    let written ← memberTexts? members
    if Members.sortable members then
      let texts ← (written.mergeSort fun a b => !b.1.keyLess a.1).mapM memberText
      return "\x7b" ++ String.intercalate ", " texts ++ "\x7d"
    else none

def itemTexts? : List Value → Option (List String)
  | [] => some []
  | x :: xs => do return (← json? x) :: (← itemTexts? xs)

def memberTexts? : List (Value × Value) → Option (List (Value × String))
  | [] => some []
  | (k, v) :: rest => do return (k, ← json? v) :: (← memberTexts? rest)

end

end ApiScaffold.Markup
