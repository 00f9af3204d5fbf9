import ApiScaffold.Document.Yaml.Block
import ApiScaffold.Document.Yaml.Quoted

/-!
# The layout of a text

The tokens of a YAML text: where the indentation of lines opens and closes blocks, and where a colon
makes a key of what stands before it in its line.

A key is only recognised by the colon behind it, so the place where one may start is noted
(`PossibleKey`) and the token for it is put in later. A possible key is given up when its line ends
or it grows too long. Up to the first possible key that is still open the tokens are settled, and if
the text turns out to have a fault, only those count (`settled`): a reader of tokens would have seen
no more.
-/

namespace ApiScaffold.Yaml

/-- A place that turns out to be the start of a key if a colon follows in the same line. -/
structure PossibleKey where
  /-- The number of tokens before it. -/
  index : Nat
  /-- Whether nothing else may stand there. -/
  required : Bool
  mark : Mark

/-- A text as far as its tokens are known. -/
structure Layout where
  cursor : Cursor
  /-- The tokens, the last first. -/
  tokens : List Token := []
  /-- How many tokens there are. -/
  count : Nat := 0
  /-- How many brackets are open. -/
  depth : Nat := 0
  /-- The column of the innermost block; `-1` outside of all. -/
  indentation : Int := -1
  /-- The columns of the blocks around it. -/
  outer : List Int := []
  /-- Whether a key may start here. -/
  allowsKey : Bool := true
  /-- The possible keys by the number of brackets around them. -/
  keys : List (Nat × PossibleKey) := []

/-- How far behind its start a key may end. -/
def maxKeyLength : Nat := 1024

namespace Layout

def push (l : Layout) (kind : TokenKind) (start stop : Mark) : Layout :=
  { l with tokens := { kind, start, stop } :: l.tokens, count := l.count + 1 }

/-- Puts a token of no length where there are `index` tokens before it. -/
def insertAt (l : Layout) (index : Nat) (kind : TokenKind) (mark : Mark) : Layout :=
  let token : Token := { kind, start := mark, stop := mark }
  { l with tokens := l.tokens.insertIdx (l.count - index) token, count := l.count + 1 }

def failKey {α : Type} (key : PossibleKey) (mark : Mark) : Except Stop α :=
  failIn "while scanning a simple key" key.mark "could not find expected ':'" mark

/-- Gives up possible keys that can no longer end here. -/
def dropStale (l : Layout) : Except Stop Layout :=
  let here := l.cursor.mark
  let isStale := fun (k : Nat × PossibleKey) =>
    k.2.mark.line != here.line || here.index - k.2.mark.index > maxKeyLength
  match l.keys.find? fun k => isStale k && k.2.required with
  | some k => failKey k.2 here
  | none => .ok { l with keys := l.keys.filter fun k => !isStale k }

/-- Gives up the possible key within the present brackets. -/
def dropKey (l : Layout) : Except Stop Layout :=
  match l.keys.lookup l.depth with
  | some k => if k.required then failKey k l.cursor.mark else
      .ok { l with keys := l.keys.filter fun k => k.1 != l.depth }
  | none => .ok l

/-- Notes that a key may start at the cursor. -/
def noteKey (l : Layout) : Except Stop Layout :=
  if !l.allowsKey then .ok l
  else do
    let required := l.depth == 0 && l.indentation == l.cursor.mark.column
    let kept ← l.dropKey
    let key := { index := l.count, required, mark := l.cursor.mark : PossibleKey }
    return { kept with keys := kept.keys ++ [(l.depth, key)] }

/-- Closes the blocks to the right of a column. -/
def closeBlocks (l : Layout) (column : Int) : Layout :=
  if l.depth > 0 then l else close l l.outer
where
  close (l : Layout) : List Int → Layout
    | [] => l
    | around :: rest =>
      if column < l.indentation then
        close ({ l with indentation := around, outer := rest }.push .blockEnd l.cursor.mark
          l.cursor.mark) rest
      else l

/-- Opens a block at a column if none is open there; the token for it gets a place among the
others. -/
def openBlock (l : Layout) (column : Nat) (kind : TokenKind) (index : Nat) (mark : Mark) : Layout :=
  if l.depth = 0 ∧ l.indentation < column then
    { l with outer := l.indentation :: l.outer, indentation := column }.insertAt index kind mark
  else l

/-- The cursor behind the blanks, comments and line ends before the next token. A key may start in a
new line. -/
def skipBlanks : Nat → Layout → Layout
  | 0, l => l
  | fuel + 1, l =>
    let c := l.cursor.skipWhile (· == ' ')
    let c := if c.head? = some '#' then c.skipWhile fun ch => !isLineEnd ch else c
    match c.lineBreak with
    | ([], c) => { l with cursor := c }
    | (_, c) => skipBlanks fuel { l with cursor := c, allowsKey := l.depth == 0 || l.allowsKey }

/-- The layout before the next token. -/
def advance (l : Layout) : Layout :=
  let l :=
    if l.cursor.mark.index = 0 ∧ l.cursor.head? = some byteOrderMark then
      { l with cursor := l.cursor.next }
    else l
  l.skipBlanks (l.cursor.total + 1)

/-- A token of some characters at the cursor. -/
def take (l : Layout) (kind : TokenKind) (length : Nat) : Layout :=
  let after := l.cursor.skip length
  { l with cursor := after }.push kind l.cursor.mark after.mark

/-- Ends all blocks, before a directive or the border of a document. -/
def endDocument (l : Layout) : Except Stop Layout := do
  return { ← (l.closeBlocks (-1)).dropKey with allowsKey := false }

def takeDirective (l : Layout) : Except Stop Layout := do
  let l ← l.endDocument
  let (d, stop, after) ← l.cursor.directive
  return { l with cursor := after }.push (.directive d) l.cursor.mark stop

def takeBorder (l : Layout) (kind : TokenKind) : Except Stop Layout := do
  return (← l.endDocument).take kind 3

/-- An opening bracket. -/
def takeOpening (l : Layout) (kind : TokenKind) : Except Stop Layout := do
  let l ← l.noteKey
  return { l with depth := l.depth + 1, allowsKey := true }.take kind 1

/-- A closing bracket. -/
def takeClosing (l : Layout) (kind : TokenKind) : Except Stop Layout := do
  let l ← l.dropKey
  return { l with depth := l.depth - 1, allowsKey := false }.take kind 1

def takeFlowEntry (l : Layout) : Except Stop Layout := do
  return { ← l.dropKey with allowsKey := true }.take .flowEntry 1

def takeBlockEntry (l : Layout) : Except Stop Layout := do
  let here := l.cursor.mark
  if l.depth = 0 ∧ !l.allowsKey then failAt "sequence entries are not allowed here" here
  else
    let l := l.openBlock here.column .blockSequenceStart l.count here
    return ({ ← l.dropKey with allowsKey := true }).take .blockEntry 1

def takeKey (l : Layout) : Except Stop Layout := do
  let here := l.cursor.mark
  if l.depth = 0 ∧ !l.allowsKey then failAt "mapping keys are not allowed here" here
  else
    let l := l.openBlock here.column .blockMappingStart l.count here
    return ({ ← l.dropKey with allowsKey := l.depth == 0 }).take .key 1

/-- A colon: it makes a key of a possible one, or stands for a value of its own. -/
def takeValue (l : Layout) : Except Stop Layout := do
  let here := l.cursor.mark
  match l.keys.lookup l.depth with
  | some k =>
    let l := { l with keys := l.keys.filter fun k => k.1 != l.depth }.insertAt k.index .key k.mark
    let l := l.openBlock k.mark.column .blockMappingStart k.index k.mark
    return { l with allowsKey := false }.take .value 1
  | none =>
    if l.depth = 0 ∧ !l.allowsKey then failAt "mapping values are not allowed here" here
    else
      let l := l.openBlock here.column .blockMappingStart l.count here
      return ({ ← l.dropKey with allowsKey := l.depth == 0 }).take .value 1

/-- What may be the start of a key, and is none itself. -/
def takeName (l : Layout) (read : Cursor → Except Stop (TokenKind × Cursor)) :
    Except Stop Layout := do
  let l ← l.noteKey
  let (kind, after) ← read l.cursor
  return { l with cursor := after, allowsKey := false }.push kind l.cursor.mark after.mark

def takeBlock (l : Layout) (folded : Bool) : Except Stop Layout := do
  let l ← { l with allowsKey := true }.dropKey
  let (text, stop, after) ← l.cursor.block folded l.indentation
  return { l with cursor := after }.push (.scalar text false) l.cursor.mark stop

def takePlain (l : Layout) : Except Stop Layout := do
  let l ← l.noteKey
  let p := l.cursor.plain (l.depth > 0) (l.indentation + 1)
  return { l with cursor := p.after, allowsKey := p.broken }.push
    (.scalar (String.ofList p.text.reverse) true) l.cursor.mark p.stop

/-- Whether a plain scalar can start at the cursor. -/
def startsPlain (l : Layout) : Bool :=
  match l.cursor.head? with
  | none => false
  | some c =>
    !(endsWord (some c) || "-?:,[]\x7b\x7d#&*!|>'\"%@\x60".toList.contains c)
      || (!endsWord (l.cursor.ahead? 1) && (c == '-' || (l.depth == 0 && (c == '?' || c == ':'))))

/-- The next token, or several where blocks open or close. At the end of the text there is none. -/
def step (l : Layout) : Except Stop (Option Layout) := do
  let l ← l.advance.dropStale
  let l := l.closeBlocks l.cursor.mark.column
  let c := l.cursor
  let alone := endsWord (c.ahead? 1)
  match c.head? with
  | none => return none
  | some ch =>
    let l' ←
      if ch = '%' ∧ c.mark.column = 0 then l.takeDirective
      else if ch = '-' ∧ c.mark.column = 0 ∧ c.atSeparator then l.takeBorder .documentStart
      else if ch = '.' ∧ c.mark.column = 0 ∧ c.atSeparator then l.takeBorder .documentEnd
      else if ch = '[' then l.takeOpening .flowSequenceStart
      else if ch = '\x7b' then l.takeOpening .flowMappingStart
      else if ch = ']' then l.takeClosing .flowSequenceEnd
      else if ch = '\x7d' then l.takeClosing .flowMappingEnd
      else if ch = ',' then l.takeFlowEntry
      else if ch = '-' ∧ alone then l.takeBlockEntry
      else if ch = '?' ∧ (l.depth > 0 ∨ alone) then l.takeKey
      else if ch = ':' ∧ (l.depth > 0 ∨ alone) then l.takeValue
      else if ch = '*' then l.takeName fun c => do
        let (name, after) ← c.anchorName "alias"
        return (.aliasOf name, after)
      else if ch = '&' then l.takeName fun c => do
        let (name, after) ← c.anchorName "anchor"
        return (.anchor name, after)
      else if ch = '!' then l.takeName Cursor.tag
      else if ch = '|' ∧ l.depth = 0 then l.takeBlock false
      else if ch = '>' ∧ l.depth = 0 then l.takeBlock true
      else if ch = '\'' ∨ ch = '"' then l.takeName fun c => do
        let (text, after) ← c.quoted
        return (.scalar text false, after)
      else if l.startsPlain then l.takePlain
      else .error (.fault {
        context := some "while scanning for the next token"
        problem := some ("found character " ++ c.quotedLetter ++ " that cannot start any token")
        problemMark := some c.mark })
    return some (← l'.dropStale)

/-- The layout with the end of the text. -/
def finish (l : Layout) : Except Stop Layout := do
  let l := l.advance.closeBlocks (-1)
  let l ← l.dropKey
  return l.push .streamEnd l.cursor.mark l.cursor.mark

/-- The tokens, but for those from a possible key on: it has to be settled whether they belong to
a key before any of them counts. -/
def settled (l : Layout) : List Token :=
  match (l.keys.map fun k => k.2.index).min? with
  | some index => l.tokens.reverse.take index
  | none => l.tokens.reverse

/-- The tokens of a text. Before a fault only the settled ones count. -/
def run : Nat → Layout → List Token × Option Stop
  | 0, l => (l.tokens.reverse, none)
  | fuel + 1, l =>
    match l.step with
    | .error stop => (l.settled, some stop)
    | .ok (some next) => run fuel next
    | .ok none => match l.finish with
      | .error stop => (l.settled, some stop)
      | .ok l => (l.tokens.reverse, none)

end Layout

/-- The tokens of a text, up to a fault if there is one. -/
def tokens (cs : List Char) : List Token × Option Stop :=
  Layout.run (cs.length + 1) { cursor := .ofText cs }

end ApiScaffold.Yaml
