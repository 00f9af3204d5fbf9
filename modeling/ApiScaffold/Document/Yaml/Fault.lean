import ApiScaffold.Document.Yaml.Cursor
import ApiScaffold.Text.Quoted

/-!
# Faults of a YAML text

What is wrong with a text: the problem and where it shows, and what was being read and where that
began (`Fault`). The account of a fault shows the line of either place with an arrow below it, cut
to a number of letters on both sides.

Two other things can stop the reading (`Stop`): a character that no text may hold, and a form that
is read but has no value here, which has no account.
-/

namespace ApiScaffold.Yaml

/-- What is wrong with a text: the problem, where it shows, and what was being read. -/
structure Fault where
  context : Option String := none
  contextMark : Option Mark := none
  problem : Option String
  problemMark : Option Mark

/-- Why a text has no value. -/
inductive Stop where
  | fault (f : Fault)
  /-- A character that no text may hold. -/
  | character (position : Nat) (c : Char)
  /-- A form that is read but that no value of the domain stands for. -/
  | unsuitable

/-- A fault that shows while something is read that began earlier. -/
def failIn {α : Type} (context : String) (began : Mark) (problem : String) (mark : Mark) :
    Except Stop α :=
  .error (.fault {
    context := some context, contextMark := some began
    problem := some problem, problemMark := some mark })

/-- A fault of its own. -/
def failAt {α : Type} (problem : String) (mark : Mark) : Except Stop α :=
  .error (.fault { problem := some problem, problemMark := some mark })

/-- The letter at a cursor in a message. -/
def Cursor.quotedLetter (c : Cursor) : String :=
  Text.quoted (String.ofList ((Text.letters (c.shown :: c.rest.tail)).headD []))

/-- How many letters of its line an account shows to either side of a mark. -/
def sideLength : Nat := 36

/-- How many of them give way to dots where the line goes on. -/
def dotsLength : Nat := 5

/-- The part of a line on one side of a mark, from the mark on, and whether it is cut. -/
def sideOf (letters : List Text.Letter) : List Text.Letter × Bool :=
  let line := letters.takeWhile fun letter => !letter.any isLineEnd
  if line.length > sideLength then (line.take (sideLength + 1 - dotsLength), true)
  else (line, false)

/-- The line of a mark with an arrow below its letter. -/
def Mark.snippet (m : Mark) (text : List Char) : String :=
  let letters := Text.letters text
  let (before, cutBefore) := sideOf (letters.take m.index).reverse
  let (after, cutAfter) := sideOf (letters.drop m.index)
  let head := if cutBefore then " ... " else ""
  let tail := if cutAfter then " ... " else ""
  "    " ++ head ++ String.ofList before.reverse.flatten ++ String.ofList after.flatten ++ tail ++ "\n"
    ++ String.ofList (List.replicate (4 + before.length + head.length) ' ') ++ "^"

/-- The account of a place. -/
def Mark.account (m : Mark) (text : List Char) : String :=
  "  in \"<unicode string>\", line " ++ toString (m.line + 1) ++ ", column "
    ++ toString (m.column + 1) ++ ":\n" ++ m.snippet text

/-- The account of a fault. The place of the context is left out where the problem is on it. -/
def Fault.account (f : Fault) (text : List Char) : String :=
  let contextMark := match f.contextMark, f.problemMark with
    | some a, some b =>
      if f.problem.isSome && a.line == b.line && a.column == b.column then none else some a
    | mark, _ => mark
  String.intercalate "\n" (f.context.toList ++ (contextMark.map (·.account text)).toList
    ++ f.problem.toList ++ (f.problemMark.map (·.account text)).toList)

/-- The account of a character that no text may hold. -/
def characterAccount (position : Nat) (c : Char) : String :=
  "unacceptable character #x" ++ String.ofList (Text.hexDigits 4 c.toNat)
    ++ ": special characters are not allowed\n  in \"<unicode string>\", position "
    ++ toString position

end ApiScaffold.Yaml
