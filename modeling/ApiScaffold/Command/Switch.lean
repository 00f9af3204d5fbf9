import ApiScaffold.Text.Kind
import ApiScaffold.Text.Split

/-!
# Switches

The arguments of a command: switches, each a letter after one dash or a word after two, some of
which ask for a text, and operands. Letters may stand together, a word may be cut short where that
leaves one choice, and a text may follow in the same argument or in the next.

What an argument is when it is seen alone is decided first (`classify`), by the switches that the
command knows. Reading the arguments is then one recursion on their list, and a switch that asks for
a text takes the next argument only if that is an operand by itself.
-/

namespace ApiScaffold.Command

/-- What a switch is for. -/
inductive Key where
  | help
  | verbose
  | target
  | input
  | output
  | templates
  | define
  | workers
deriving DecidableEq

/-- A switch that a command knows. -/
structure Switch where
  key : Key
  letter? : Option Char := none
  word? : Option String := none
  wantsText : Bool := true

/-- A switch that was given, with its text; the text is empty for one that asks for none. -/
abbrev Given := Key × String

/-- What an argument is when it is seen alone. -/
inductive Argument where
  | operand
  /-- Switches, after which the text of another may be due. -/
  | switches (given : List Given) (due : Option Key)
  | unusable

namespace Switch

def byLetter? (switches : List Switch) (c : Char) : Option Switch :=
  switches.find? fun s => s.letter? = some c

/-- The switches that a word can stand for: the one of that word, or those that it is short for. -/
def byWord (switches : List Switch) (word : String) : List Switch :=
  match switches.find? fun s => s.word? = some word with
  | some s => [s]
  | none => switches.filter fun s => s.word?.any fun w => w.startsWith word

/-- What letters after one dash stand for: the rest of the argument is the text of the first switch
that asks for one. -/
def ofLetters (switches : List Switch) (s : Switch) : List Char → Argument
  | [] => if s.wantsText then .switches [] (some s.key) else .switches [(s.key, "")] none
  | c :: rest =>
    if s.wantsText then
      .switches [(s.key, String.ofList (if c = '=' then rest else c :: rest))] none
    else match byLetter? switches c with
      | none => .unusable
      | some next => match ofLetters switches next rest with
        | .switches given due => .switches ((s.key, "") :: given) due
        | other => other

/-- What a word after two dashes stands for, with the text after an equals sign. -/
def ofWord (s : Switch) : Option String → Argument
  | none => if s.wantsText then .switches [] (some s.key) else .switches [(s.key, "")] none
  | some text => if s.wantsText then .switches [(s.key, text)] none else .unusable

end Switch

/-- Whether a text after a dash makes a negative number of it. -/
def isMagnitude (cs : List Char) : Bool :=
  match Text.cutAt? '.' cs with
  | none => !cs.isEmpty && cs.all Text.isDecimal
  | some (whole, fraction) =>
    whole.all Text.isDecimal && !fraction.isEmpty && fraction.all Text.isDecimal

namespace Argument

/-- What an argument that starts with a dash is if no switch fits it. -/
def unmatched (cs : List Char) : Argument :=
  if isMagnitude (cs.drop 1) || cs.contains ' ' then .operand else .unusable

/-- What an argument is for a command that knows some switches. -/
def classify (switches : List Switch) (arg : String) : Argument :=
  match arg.toList with
  | ['-', '-'] => .unusable
  | '-' :: '-' :: rest =>
    let (word, text?) := match Text.cutAt? '=' rest with
      | none => (rest, none)
      | some (word, text) => (word, some (String.ofList text))
    match Switch.byWord switches (String.ofList word) with
    | [] => unmatched arg.toList
    | [s] => s.ofWord text?
    | _ => .unusable
  | '-' :: c :: rest =>
    match Switch.byLetter? switches c with
    | none => unmatched arg.toList
    | some s => Switch.ofLetters switches s rest
  | _ => .operand

def isOperand : Argument → Bool
  | operand => true
  | _ => false

end Argument

/-- The switches at the start of arguments, and what comes after them from the first operand on. -/
def readSwitches (switches : List Switch) : List String → Option (List Given × List String)
  | [] => some ([], [])
  | arg :: rest =>
    match Argument.classify switches arg with
    | .operand => some ([], arg :: rest)
    | .unusable => none
    | .switches given none => do
      let (more, left) ← readSwitches switches rest
      return (given ++ more, left)
    | .switches given (some key) =>
      match rest with
      | [] => none
      | text :: rest => do
        if (Argument.classify switches text).isOperand then
          let (more, left) ← readSwitches switches rest
          return (given ++ (key, text) :: more, left)
        else none

end ApiScaffold.Command
