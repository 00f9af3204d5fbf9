import ApiScaffold.Text.Point

/-!
# Places in a text

A cursor is a place in a YAML text with what is left of it. It counts lines and columns while it
moves, because the column decides where a block ends and both show in the accounts of faults.

Places are counted in letters: the trail of a letter moves the cursor on and is not counted. A byte
order mark takes no column, and a carriage return before a line feed ends no line of its own.
-/

namespace ApiScaffold.Yaml

/-- A place in a text: letters before it, lines before it, letters before it in its line. A byte
order mark takes no column. -/
structure Mark where
  index : Nat
  line : Nat
  column : Nat

/-- What is left of a text, and where that starts. -/
structure Cursor where
  rest : List Char
  mark : Mark
  /-- The length of the whole text, which bounds every reading of what is left. -/
  total : Nat

/-- The code points that end a line; a carriage return and a line feed are one end together. -/
def lineEnds : List Nat := [0x0A, 0x0D, 0x85, 0x2028, 0x2029]

def isLineEnd (c : Char) : Bool := lineEnds.contains c.toNat

def byteOrderMark : Char := Char.ofNat 0xFEFF

namespace Cursor

def ofText (cs : List Char) : Cursor where
  rest := cs
  mark := ⟨0, 0, 0⟩
  total := cs.length

/-- The character at the cursor. -/
def head? (c : Cursor) : Option Char := c.rest.head?

/-- The character some places behind the cursor. -/
def ahead? (c : Cursor) (n : Nat) : Option Char := c.rest[n]?

/-- One character on. -/
def next (c : Cursor) : Cursor :=
  match c.rest with
  | [] => c
  | ch :: rest =>
    let m := c.mark
    let ends := isLineEnd ch && !(ch = '\r' && rest.head? = some '\n')
    { c with
      rest
      mark :=
        if ends then ⟨m.index + 1, m.line + 1, 0⟩
        else if Text.isTrail ch then m
        else if ch = byteOrderMark then ⟨m.index + 1, m.line, m.column⟩
        else ⟨m.index + 1, m.line, m.column + 1⟩ }

/-- Some characters on. -/
def skip (c : Cursor) : Nat → Cursor
  | 0 => c
  | n + 1 => c.next.skip n

/-- The characters from the cursor on that satisfy a test, and the cursor behind them. -/
def span (c : Cursor) (p : Char → Bool) : List Char × Cursor :=
  let taken := c.rest.takeWhile p
  (taken, c.skip taken.length)

def skipWhile (c : Cursor) (p : Char → Bool) : Cursor := (c.span p).2

/-- The character at the cursor, which is none at the end of the text. -/
def shown (c : Cursor) : Char := c.head?.getD (Char.ofNat 0)

end Cursor

/-- Whether a line ends here; the end of the text ends a line. -/
def endsLine : Option Char → Bool
  | none => true
  | some c => isLineEnd c

/-- Whether a space or the end of a line stands here. -/
def endsField : Option Char → Bool
  | none => true
  | some c => c == ' ' || isLineEnd c

/-- Whether a space, a tab or the end of a line stands here. -/
def endsWord : Option Char → Bool
  | none => true
  | some c => c == ' ' || c == '\t' || isLineEnd c

namespace Cursor

/-- The end of a line at the cursor as it counts in scalars, and the cursor behind it. -/
def lineBreak (c : Cursor) : List Char × Cursor :=
  match c.rest with
  | '\r' :: '\n' :: _ => (['\n'], c.skip 2)
  | ch :: _ =>
    if !isLineEnd ch then ([], c)
    else if ch.toNat < 0x100 then (['\n'], c.next) else ([ch], c.next)
  | [] => ([], c)

/-- Whether three characters at the cursor separate documents. -/
def atSeparator (c : Cursor) : Bool :=
  (c.rest.take 3 == ['-', '-', '-'] || c.rest.take 3 == ['.', '.', '.']) && endsWord (c.ahead? 3)

end Cursor

end ApiScaffold.Yaml
