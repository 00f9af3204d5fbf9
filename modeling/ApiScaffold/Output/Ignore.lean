import ApiScaffold.Text.Kind
import ApiScaffold.Text.Point
import ApiScaffold.Text.Split

/-!
# Patterns of ignored paths

Patterns of paths that are never written. A pattern that ends in a slash stands for everything below
a directory. In any other, `*` stands for any text, `?` for any letter and a set in brackets for one
of its letters; a bracket that is not closed stands for itself.

A pattern is cut into pieces (`Glob.parse`), and whether they stand for a path is computed from the
last piece to the first: for each the list of the ends of the path that the pieces from it on stand
for. Ranges in a set compare code points, so patterns work on letters and not on characters.
-/

namespace ApiScaffold

open Text (Letter)

/-- A set of letters: parts of a text whose neighbours are joined by ranges. -/
structure LetterSet where
  negated : Bool
  parts : List (List Letter)

/-- A piece of a pattern. -/
inductive Glob where
  | anyText
  | anyLetter
  | letter (l : Letter)
  | set (s : LetterSet)

namespace LetterSet

/-- The parts of a set's text, cut at the hyphens that make ranges: those with at least `least`
letters before them. A hyphen at the end belongs to the part before it. -/
def cut : Nat → Nat → List Letter → List (List Letter)
  | 0, _, body => [body]
  | fuel + 1, least, body =>
    match Text.cutAt? ['-'] (body.drop least) with
    | none => [body]
    | some (between, []) => [body.take least ++ between ++ [['-']]]
    | some (between, rest) => (body.take least ++ between) :: cut fuel 2 rest

/-- Joins neighbours whose range would be empty, without its ends. -/
def dropEmptyRanges : List (List Letter) → List (List Letter)
  | [] => []
  | part :: rest =>
    match dropEmptyRanges rest with
    | [] => [part]
    | next :: more =>
      match part.getLast?, next.head? with
      | some a, some b =>
        if Text.point b < Text.point a then (part.dropLast ++ next.tail) :: more
        else part :: next :: more
      | _, _ => part :: next :: more

/-- The set of parts, which an exclamation mark at their start negates. A hyphen right after the
mark stands for itself. -/
def ofParts : List (List Letter) → LetterSet
  | [['!']] :: next :: more => { negated := true, parts := (['-'] :: next) :: more }
  | (['!'] :: rest) :: more => { negated := true, parts := rest :: more }
  | parts => { negated := false, parts }

/-- The set that the text between brackets describes. -/
def ofText (body : List Letter) : LetterSet :=
  let least := if body.head? = some ['!'] then 2 else 1
  ofParts (dropEmptyRanges (cut body.length least body))

/-- Whether a letter lies in a range between neighbouring parts. -/
def inRange (l : Letter) : List (List Letter) → Bool
  | a :: b :: rest =>
    (match a.getLast?, b.head? with
      | some lo, some hi => Text.point lo ≤ Text.point l && Text.point l ≤ Text.point hi
      | _, _ => false) || inRange l (b :: rest)
  | _ => false

def contains (s : LetterSet) (l : Letter) : Bool :=
  (s.parts.any (·.contains l) || inRange l s.parts) != s.negated

end LetterSet

namespace Glob

/-- The text of a set that starts after a bracket, and the rest, if the set is closed. A closing
bracket at the start of the set belongs to it. -/
def setText? (ls : List Letter) : Option (List Letter × List Letter) :=
  let (mark, rest) := match ls with
    | ['!'] :: rest => ([['!']], rest)
    | _ => ([], ls)
  let (first, rest) := match rest with
    | [']'] :: more => ([[']']], more)
    | _ => ([], rest)
  (Text.cutAt? [']'] rest).map fun (body, after) => (mark ++ first ++ body, after)

/-- The pieces of a pattern; `fuel` bounds their number. -/
def parse : Nat → List Letter → List Glob
  | 0, _ => []
  | _, [] => []
  | fuel + 1, ['*'] :: rest => .anyText :: parse fuel rest
  | fuel + 1, ['?'] :: rest => .anyLetter :: parse fuel rest
  | fuel + 1, ['['] :: rest =>
    match setText? rest with
    | some (body, after) => .set (.ofText body) :: parse fuel after
    | none => .letter ['['] :: parse fuel rest
  | fuel + 1, l :: rest => .letter l :: parse fuel rest

def ofPattern (pattern : String) : List Glob :=
  let ls := Text.letters pattern.toList
  parse ls.length ls

/-- Whether a piece that stands for one letter stands for this one. -/
def fits : Glob → Letter → Bool
  | .anyText, _ | .anyLetter, _ => true
  | .letter a, l => a == l
  | .set s, l => s.contains l

/-- For a text and what is left of it after each letter: whether it is empty. -/
def emptyEnds : List Letter → List Bool
  | [] => [true]
  | _ :: ls => false :: emptyEnds ls

/-- Puts any text in front of what stands for the ends of a text. -/
def anyBefore : List Bool → List Bool
  | [] => []
  | b :: bs =>
    match anyBefore bs with
    | [] => [b]
    | later :: rest => (b || later) :: later :: rest

/-- Puts a piece for one letter in front of what stands for the ends of a text. -/
def oneBefore (g : Glob) : List Letter → List Bool → List Bool
  | l :: ls, _ :: b :: bs => (g.fits l && b) :: oneBefore g ls (b :: bs)
  | _, _ => [false]

/-- For a text and what is left of it after each letter: whether pieces stand for it. -/
def acceptedEnds (ls : List Letter) : List Glob → List Bool
  | [] => emptyEnds ls
  | .anyText :: rest => anyBefore (acceptedEnds ls rest)
  | g :: rest => oneBefore g ls (acceptedEnds ls rest)

/-- Whether pieces stand for a text. -/
def accepts (gs : List Glob) (ls : List Letter) : Bool := (acceptedEnds ls gs).head?.getD false

end Glob

/-- The patterns of paths that are never written. -/
structure IgnoreRules where
  patterns : List String

namespace IgnoreRules

/-- The patterns among lines: those that are neither blank nor a comment, without blanks around. -/
def ofLines (lines : List String) : IgnoreRules where
  patterns := (lines.map Text.trim).filter fun line => line != "" && !line.startsWith "#"

def ofText (text : String) : IgnoreRules := ofLines (Text.lines text)

/-- The name of the file of patterns at the root of the output. -/
def fileName : String := ".oasgen-ignore"

def matchesPattern (pattern path : String) : Bool :=
  if pattern.endsWith "/" then path.startsWith pattern
  else Glob.accepts (Glob.ofPattern pattern) (Text.letters path.toList)

def ignored (rules : IgnoreRules) (path : String) : Bool :=
  rules.patterns.any fun pattern => matchesPattern pattern path

def isActive (rules : IgnoreRules) : Bool := !rules.patterns.isEmpty

end IgnoreRules

end ApiScaffold
