import ApiScaffold.Command.Switch
import ApiScaffold.Generator.Options

/-!
# Requests

What the program is asked to do, read from its arguments: to make a run, to list the targets or to
describe one. Arguments that are no request have no meaning at all, and asking for help counts as
one of these.

A switch may be given several times; of switches with one text the last counts, and definitions are
kept in order, where a later one of the same key wins.
-/

namespace ApiScaffold.Command

/-- A run to make. -/
structure Job where
  target : String
  /-- The file or the address of the document. -/
  input : String
  /-- The directory that the output goes to. -/
  output : String
  /-- The directory of templates that come before the built-in ones. -/
  templates? : Option String
  defines : List (String × String)
  workers? : Option Int

namespace Job

/-- The options of a run: the last definition of each, and the number of workers over it. -/
def options (job : Job) : Options :=
  let defined := Options.merge [] (job.defines.map fun (key, text) => (key, .str text))
  match job.workers? with
  | none => defined
  | some n => defined.set "workers" (.int n)

end Job

inductive Request where
  | list
  /-- The options of a target. -/
  | describe (target : String)
  | generate (job : Job)

/-- A request, and whether its log is to be shown in full. -/
structure Invocation where
  verbose : Bool
  request : Request

namespace Invocation

def helpSwitch : Switch where
  key := .help
  letter? := some 'h'
  word? := some "help"
  wantsText := false

def targetSwitch : Switch := { key := .target, letter? := some 'g', word? := some "generator" }

/-- The switches before the name of a command. -/
def commonSwitches : List Switch := [
  helpSwitch,
  { key := .verbose, letter? := some 'v', word? := some "verbose", wantsText := false }]

def describeSwitches : List Switch := [helpSwitch, targetSwitch]

def generateSwitches : List Switch := [
  helpSwitch,
  targetSwitch,
  { key := .input, letter? := some 'i', word? := some "input" },
  { key := .output, letter? := some 'o', word? := some "output" },
  { key := .templates, letter? := some 't', word? := some "template-dir" },
  { key := .define, letter? := some 'D' },
  { key := .workers, word? := some "workers" }]

/-- The texts that were given for a key, in order. -/
def textsOf (given : List Given) (key : Key) : List String :=
  (given.filter fun g => g.1 = key).map Prod.snd

/-- The text that counts for a key: the last. -/
def lastOf? (given : List Given) (key : Key) : Option String := (textsOf given key).getLast?

/-- The switches that make up arguments without operands; asking for help is no request. -/
def switchesOnly (switches : List Switch) (args : List String) : Option (List Given) :=
  match readSwitches switches args with
  | some (given, []) => if (textsOf given .help).isEmpty then some given else none
  | _ => none

/-- A definition, which has a key before its first equals sign. -/
def definition? (text : String) : Option (String × String) :=
  match Text.cutAt? '=' text.toList with
  | none | some ([], _) => none
  | some (key, value) => some (Text.trim (String.ofList key), Text.trim (String.ofList value))

def job? (given : List Given) : Option Job := do
  let target ← lastOf? given .target
  let input ← lastOf? given .input
  let output ← lastOf? given .output
  let defines ← (textsOf given .define).mapM definition?
  let workers ← (textsOf given .workers).mapM Numeral.integer?
  return {
    target, input, output, defines
    templates? := lastOf? given .templates
    workers? := workers.getLast? }

/-- The request of a command by its name. -/
def request? : String → List String → Option Request
  | "list", args => (switchesOnly [helpSwitch] args).map fun _ => .list
  | "config-help", args =>
    ((switchesOnly describeSwitches args).bind (lastOf? · .target)).map .describe
  | "generate", args => ((switchesOnly generateSwitches args).bind job?).map .generate
  | _, _ => none

/-- What arguments ask for, if they are well-formed. -/
def ofArguments? (args : List String) : Option Invocation :=
  match readSwitches commonSwitches args with
  | some (given, name :: rest) =>
    if (textsOf given .help).isEmpty then
      (request? name rest).map fun request =>
        { verbose := !(textsOf given .verbose).isEmpty, request }
    else none
  | _ => none

end Invocation

end ApiScaffold.Command
