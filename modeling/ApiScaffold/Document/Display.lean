import ApiScaffold.Document.Value
import ApiScaffold.Number.Numeral
import ApiScaffold.Number.Shortest
import ApiScaffold.Text.Quoted

/-!
# The texts of values

A value has two texts: the plain one, in which a text stands for itself (`display`), and the quoted
one, which messages use and in which the parts of lists and mappings appear (`quotedText`).

Both are defined for every value, but an integer with very many digits cannot be written. What is
printed goes through `display?`, which asks that first (`isWritable`).
-/

namespace ApiScaffold.Value

mutual

/-- The quoted text of a value. -/
def quotedText : Value → String
  | .null => "None"
  | .bool b => if b then "True" else "False"
  | .int n => toString n
  | .float x => x.text
  | .str s => Text.quoted s
  | .bytes bs => Text.quotedBytes bs
  | .date d => d.quotedText
  | .moment m => m.quotedText
  | .list items => "[" ++ String.intercalate ", " (quotedItems items) ++ "]"
  | .pair a b => "(" ++ quotedText a ++ ", " ++ quotedText b ++ ")"
  | .set [] => "set()"
  | .set (x :: xs) => "\x7b" ++ String.intercalate ", " (quotedText x :: quotedItems xs) ++ "\x7d"
  | .map members => "\x7b" ++ String.intercalate ", " (quotedMembers members) ++ "\x7d"
  | .again isMapping => if isMapping then "\x7b...\x7d" else "[...]"

def quotedItems : List Value → List String
  | [] => []
  | x :: xs => quotedText x :: quotedItems xs

def quotedMembers : List (Value × Value) → List String
  | [] => []
  | (k, v) :: rest => (quotedText k ++ ": " ++ quotedText v) :: quotedMembers rest

end

/-- The plain text of a value. -/
def display : Value → String
  | .str s => s
  | .date d => d.text
  | .moment m => m.text " "
  | v => v.quotedText

mutual

/-- Whether all integers in a value can be written. -/
def isWritable : Value → Bool
  | .int n => n.natAbs < Nat.pow 10 Numeral.maxDigits
  | .list items => itemsWritable items
  | .pair a b => isWritable a && isWritable b
  | .set elements => itemsWritable elements
  | .map members => membersWritable members
  | _ => true

def itemsWritable : List Value → Bool
  | [] => true
  | x :: xs => isWritable x && itemsWritable xs

def membersWritable : List (Value × Value) → Bool
  | [] => true
  | (k, v) :: rest => isWritable k && isWritable v && membersWritable rest

end

/-- The plain text of a value whose integers can be written. -/
def display? (v : Value) : Option String := if v.isWritable then some v.display else none

end ApiScaffold.Value
