import ApiScaffold.Document.Yaml.Fault
import ApiScaffold.Document.Yaml.Lexeme

/-!
# Block scalars

Indented lines below a header. The lines of a literal one are kept, those of a folded one become one
line where they start without blanks. The header tells what becomes of the line ends at the end
(`Chomping`) and may give the indentation, which the first line with text decides otherwise.

A line belongs to the scalar as long as it is indented deep enough or has no text; the line ends
between two lines are only written when the next line is known, since at the end of the scalar other
rules hold.
-/

namespace ApiScaffold.Yaml

/-- What becomes of the line ends at the end of a block scalar. -/
inductive Chomping where
  /-- One stays. -/
  | clip
  /-- None stays. -/
  | strip
  /-- All stay. -/
  | keep

structure BlockHeader where
  chomping : Chomping := .clip
  /-- The indentation, if it is given. -/
  indentation : Option Nat := none

/-- The lines of a block scalar as far as they are read. -/
structure BlockLines where
  text : List Char
  /-- The end of the last line. -/
  lineEnd : List Char
  /-- The line ends after it. -/
  breaks : List Char
  stop : Mark
  after : Cursor

namespace Cursor

def chomping? (c : Cursor) : Option Chomping :=
  match c.head? with
  | some '+' => some .keep
  | some '-' => some .strip
  | _ => none

/-- The indentation that a header gives, if it gives one, and the cursor behind it. -/
def givenIndentation (c : Cursor) (began : Mark) : Except Stop (Option Nat × Cursor) :=
  match c.head? with
  | none => .ok (none, c)
  | some ch =>
    if !ch.isDigit then .ok (none, c)
    else if ch = '0' then
      failIn "while scanning a block scalar" began
        "expected indentation indicator in the range 1-9, but found 0" c.mark
    else .ok (some (ch.toNat - '0'.toNat), c.next)

/-- The header behind its first sign: chomping and indentation in either order. -/
def blockHeader (c : Cursor) (began : Mark) : Except Stop (BlockHeader × Cursor) := do
  let (header, c) ← match c.chomping? with
    | some chomping => do
      let (indentation, c) ← c.next.givenIndentation began
      pure ({ chomping, indentation : BlockHeader }, c)
    | none => do
      let (indentation, c) ← c.givenIndentation began
      match indentation, c.chomping? with
      | some _, some chomping => pure ({ chomping, indentation : BlockHeader }, c.next)
      | _, _ => pure ({ indentation : BlockHeader }, c)
  if endsField c.head? then return (header, c)
  else
    failIn "while scanning a block scalar" began
      ("expected chomping or indentation indicators, but found " ++ c.quotedLetter) c.mark

/-- The line ends before the first line with text, the most blanks before one of them or before the
text, and the place behind the last of them. -/
def leadingBreaks : Nat → Nat → Mark → Cursor → List Char × Nat × Mark × Cursor
  | 0, widest, stop, c => ([], widest, stop, c)
  | fuel + 1, widest, stop, c =>
    if c.head? = some ' ' then
      c.next.leadingBreaks fuel (max widest c.next.mark.column) stop
    else match c.lineBreak with
      | ([], _) => ([], widest, stop, c)
      | (line, after) =>
        let (more, rest) := after.leadingBreaks fuel widest after.mark
        (line ++ more, rest)
termination_by fuel => fuel

/-- The cursor behind the blanks of an indentation. -/
def skipIndentation (indentation : Nat) (c : Cursor) : Cursor :=
  c.skip ((c.rest.take (indentation - c.mark.column)).takeWhile (· == ' ')).length

/-- The line ends from the cursor on, where lines may hold the blanks of an indentation, and the
place behind the last of them. -/
def blockBreaks (indentation : Nat) : Nat → Mark → Cursor → List Char × Mark × Cursor
  | 0, stop, c => ([], stop, c)
  | fuel + 1, stop, c =>
    match c.lineBreak with
    | ([], _) => ([], stop, c)
    | (line, after) =>
      let (more, rest) :=
        blockBreaks indentation fuel after.mark (after.skipIndentation indentation)
      (line ++ more, rest)

/-- Whether a line of a block scalar starts at the cursor. -/
def inBlock (c : Cursor) (indentation : Nat) : Bool :=
  c.mark.column == indentation && !c.rest.isEmpty

/-- Whether a blank stands at the cursor. -/
def atBlank (c : Cursor) : Bool := c.head? == some ' ' || c.head? == some '\t'

/-- The lines of a block scalar from one that starts at the cursor. -/
def blockLines (folded : Bool) (indentation : Nat) : Nat → Cursor → BlockLines
  | 0, c => { text := [], lineEnd := [], breaks := [], stop := c.mark, after := c }
  | fuel + 1, c =>
    let (line, c') := c.span fun ch => !isLineEnd ch
    let (lineEnd, c') := c'.lineBreak
    let (breaks, stop, after) :=
      blockBreaks indentation (c'.total + 1) c'.mark (c'.skipIndentation indentation)
    if after.inBlock indentation then
      let joint :=
        if folded && lineEnd == ['\n'] && !c.atBlank && !after.atBlank then
          if breaks.isEmpty then [' '] else []
        else lineEnd
      let more := blockLines folded indentation fuel after
      { more with text := line ++ joint ++ breaks ++ more.text }
    else { text := line, lineEnd, breaks, stop, after }

/-- The block scalar at the cursor, the place of its end and the cursor behind it. The lines are
indented deeper than `indentation`, the one of the block around. -/
def block (c : Cursor) (folded : Bool) (indentation : Int) :
    Except Stop (String × Mark × Cursor) := do
  let (header, body) ← c.next.blockHeader c.mark
  let body ← body.restOfLine "while scanning a block scalar" c.mark
  let least := max 1 (indentation + 1).toNat
  let (breaks, width, stop, first) := match header.indentation with
    | some n =>
      let width := least + n - 1
      let (breaks, stop, first) :=
        blockBreaks width (body.total + 1) body.mark (body.skipIndentation width)
      (breaks, width, stop, first)
    | none =>
      let (breaks, widest, stop, first) := body.leadingBreaks (body.total + 1) 0 body.mark
      (breaks, max least widest, stop, first)
  let lines :=
    if first.inBlock width then
      let lines := blockLines folded width (first.total + 1) first
      { lines with text := breaks ++ lines.text }
    else { text := [], lineEnd := [], breaks, stop, after := first }
  let ending := match header.chomping with
    | .strip => []
    | .clip => lines.lineEnd
    | .keep => lines.lineEnd ++ lines.breaks
  return (String.ofList (lines.text ++ ending), lines.stop, lines.after)

end Cursor

end ApiScaffold.Yaml
