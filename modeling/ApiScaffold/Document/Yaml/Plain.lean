import ApiScaffold.Document.Yaml.Cursor

/-!
# Plain scalars

Words without quotes. They end at a colon before a blank, at a comment and where the indentation
ends; inside brackets also at the signs of the collection. Line ends between words are folded: one
is a space, and of more the first is dropped.

What lies between two words is read before it is known whether another word follows (`Gap`), because
blanks at the end do not belong to the scalar.
-/

namespace ApiScaffold.Yaml

/-- The signs that end a word inside brackets. -/
def bracketSigns : List Char := ",?[]\x7b\x7d".toList

/-- Whether a colon before a character ends a word. -/
def colonEnds (inBrackets : Bool) (after : Option Char) : Bool :=
  endsWord after || match after with
    | none => true
    | some c => inBrackets && ",[]\x7b\x7d".toList.contains c

/-- The characters of a word that starts here. -/
def plainWord (inBrackets : Bool) : List Char → List Char
  | [] => []
  | c :: rest =>
    if endsWord (some c) || (inBrackets && bracketSigns.contains c) then []
    else if c = ':' ∧ colonEnds inBrackets rest.head? then []
    else c :: plainWord inBrackets rest

/-- What lies between two words of a plain scalar. It has no text if nothing does or if documents
are separated here. -/
structure Gap where
  text : List Char
  /-- Whether a line ends in it. -/
  broken : Bool
  after : Cursor

namespace Cursor

/-- The further line ends after a line end, each as it counts in scalars, with the indentation
around them; nothing where documents are separated. -/
def blankLines : Nat → Cursor → Option (List Char) × Cursor
  | 0, c => (some [], c)
  | fuel + 1, c =>
    match c.head? with
    | none => (some [], c)
    | some ch =>
      if ch = ' ' then c.next.blankLines fuel
      else if isLineEnd ch then
        let (line, after) := c.lineBreak
        if after.atSeparator then (none, after)
        else
          let (more, after) := after.blankLines fuel
          (more.map (line ++ ·), after)
      else (some [], c)

/-- A line end and the further ones after it: one line end is a space, of more the first is
dropped, and one that is no line feed stays. -/
def foldBreaks (line breaks : List Char) : List Char :=
  if line ≠ ['\n'] then line ++ breaks else if breaks.isEmpty then [' '] else breaks

/-- The gap at the cursor. -/
def gap (c : Cursor) : Gap :=
  let (blanks, c) := c.span (· == ' ')
  match c.head? with
  | none => { text := blanks, broken := false, after := c }
  | some ch =>
    if !isLineEnd ch then { text := blanks, broken := false, after := c }
    else
      let (line, c) := c.lineBreak
      if c.atSeparator then { text := [], broken := true, after := c }
      else match c.blankLines (c.total + 1) with
        | (none, c) => { text := [], broken := true, after := c }
        | (some breaks, c) => { text := foldBreaks line breaks, broken := true, after := c }

end Cursor

/-- A plain scalar as far as it is read. -/
structure Plain where
  /-- The characters, the last first. -/
  text : List Char
  /-- The end of its last word. -/
  stop : Mark
  /-- Behind the gap after the last word. -/
  after : Cursor
  /-- Whether a line ends in that gap. -/
  broken : Bool

/-- Reads on after a gap. Outside of brackets the words have to stand at `column` or behind. -/
def Plain.extend (inBrackets : Bool) (column : Int) : Nat → List Char → Plain → Plain
  | 0, _, p => p
  | fuel + 1, between, p =>
    let word := plainWord inBrackets p.after.rest
    if p.after.head? = some '#' ∨ word.isEmpty then p
    else
      let stop := p.after.skip word.length
      let g := stop.gap
      let p := { text := word.reverse ++ between.reverse ++ p.text, stop := stop.mark
                 after := g.after, broken := g.broken }
      if g.text.isEmpty || g.after.head? == some '#'
          || (!inBrackets && g.after.mark.column < column) then p
      else p.extend inBrackets column fuel g.text

/-- The plain scalar at the cursor. -/
def Cursor.plain (c : Cursor) (inBrackets : Bool) (column : Int) : Plain :=
  Plain.extend inBrackets column (c.total + 1) []
    { text := [], stop := c.mark, after := c, broken := false }

end ApiScaffold.Yaml
