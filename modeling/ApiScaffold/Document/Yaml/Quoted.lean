import ApiScaffold.Document.Yaml.Fault
import ApiScaffold.Document.Yaml.Plain
import ApiScaffold.Number.Numeral

/-!
# Quoted scalars

Scalars in single quotes, where a quote is written twice, or in double quotes, where escapes stand
for characters. Line ends are folded as in plain scalars, and an escaped one is left out.

An escape by number gives a code point. One beyond the last code point has no meaning, and one of a
lone half is a letter of the text like any other.
-/

namespace ApiScaffold.Yaml

/-- The characters that an escape of one letter stands for, by code point. -/
def escapes : List (Char × Nat) := [
  ('0', 0), ('a', 7), ('b', 8), ('t', 9), ('\t', 9), ('n', 10), ('v', 11), ('f', 12), ('r', 13),
  ('e', 27), (' ', 32), ('"', 34), ('\\', 92), ('/', 47), ('N', 0x85), ('_', 0xA0),
  ('L', 0x2028), ('P', 0x2029)]

/-- How many hexadecimal digits an escape by number has. -/
def escapeWidths : List (Char × Nat) := [('x', 2), ('u', 4), ('U', 8)]

namespace Cursor

/-- The fault of a text that ends inside quotes, or of documents that are separated there. -/
def failInQuotes {α : Type} (began : Mark) (problem : String) (mark : Mark) : Except Stop α :=
  failIn "while scanning a quoted scalar" began problem mark

/-- The line ends from the cursor on, with the blanks around them. -/
def breaksInQuotes (began : Mark) : Nat → Cursor → Except Stop (List Char × Cursor)
  | 0, c => .ok ([], c)
  | fuel + 1, c =>
    if c.atSeparator then failInQuotes began "found unexpected document separator" c.mark
    else
      let c := c.skipWhile fun ch => ch == ' ' || ch == '\t'
      match c.lineBreak with
      | ([], c) => .ok ([], c)
      | (line, c) => do
        let (more, c) ← c.breaksInQuotes began fuel
        return (line ++ more, c)

/-- The blanks at the cursor, folded if a line ends after them. -/
def blanksInQuotes (c : Cursor) (began : Mark) : Except Stop (List Char × Cursor) :=
  let (blanks, c) := c.span fun ch => ch == ' ' || ch == '\t'
  match c.rest with
  | [] => failInQuotes began "found unexpected end of stream" c.mark
  | _ => match c.lineBreak with
    | ([], c) => .ok (blanks, c)
    | (line, c) => do
      let (breaks, c) ← c.breaksInQuotes began (c.total + 1)
      return (foldBreaks line breaks, c)

/-- The number of hexadecimal digits at the cursor. -/
def escapeNumber (c : Cursor) (began : Mark) (width : Nat) : Except Stop (Nat × Cursor) :=
  let wrong := (c.rest.take width).findIdx fun ch => (Numeral.digitValue? ch).isNone
  if wrong < width then
    failIn "while scanning a double-quoted scalar" began
      ("expected escape sequence of " ++ toString width ++ " hexadecimal numbers, but found "
        ++ (c.skip wrong).quotedLetter) c.mark
  else .ok ((Numeral.ofDigits? 16 (c.rest.take width)).getD 0, c.skip width)

/-- What an escape behind a backslash stands for. -/
def escape (c : Cursor) (began : Mark) : Except Stop (List Char × Cursor) :=
  match escapes.lookup c.shown with
  | some n => .ok ([Char.ofNat n], c.next)
  | none => match escapeWidths.lookup c.shown with
    | some width => do
      let (n, c) ← c.next.escapeNumber began width
      if n < 0x110000 then return (Text.spell n, c) else .error .unsuitable
    | none => match c.lineBreak with
      | ([], _) => unknown
      | (_, c) => c.breaksInQuotes began (c.total + 1)
where
  unknown : Except Stop (List Char × Cursor) :=
    failIn "while scanning a double-quoted scalar" began
      ("found unknown escape character " ++ c.quotedLetter) c.mark

/-- The text up to the closing quote; `fuel` bounds its parts. -/
def quotedBody (quote : Char) (began : Mark) : Nat → Cursor → Except Stop (List Char × Cursor)
  | 0, c => failInQuotes began "found unexpected end of stream" c.mark
  | fuel + 1, c =>
    let goOn := fun (part : List Char) (c : Cursor) =>
      (fun (more, c) => (part ++ more, c)) <$> c.quotedBody quote began fuel
    match c.head? with
    | none => failInQuotes began "found unexpected end of stream" c.mark
    | some ch =>
      if ch = quote then
        if quote = '\'' ∧ c.ahead? 1 = some '\'' then goOn ['\''] (c.skip 2)
        else .ok ([], c.next)
      else if ch = '\\' ∧ quote = '"' then do
        let (part, c) ← c.next.escape began
        goOn part c
      else if endsWord (some ch) then do
        let (part, c) ← c.blanksInQuotes began
        goOn part c
      else goOn [ch] c.next

/-- The quoted scalar at the cursor. -/
def quoted (c : Cursor) : Except Stop (String × Cursor) := do
  let (cs, after) ← c.next.quotedBody c.shown c.mark (c.total + 1)
  return (String.ofList cs, after)

end Cursor

end ApiScaffold.Yaml
