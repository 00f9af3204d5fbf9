import ApiScaffold.Command.Request
import ApiScaffold.Run.Generate
import ApiScaffold.Source

/-!
# The effect of a request

What the program does for a request: what it prints, the files that it leaves, and its exit status.

A request is carried out over a tree of files and gives an `Effect`, which holds all that can be
observed of it. Nothing here reads or writes a disk; `Main` does that around it. The exit status is
2 where the document or the configuration is unusable, 1 where a model that refers to a failed one
has ended the run or faults were recorded, and 0 otherwise; a failure for which there is no status
is left as a failure.
-/

namespace ApiScaffold.Command

/-- What a request comes to. Only a failure that no exit status stands for is left as one. -/
structure Effect where
  status : Attempt Nat
  log : Log := []
  /-- The lines on the output. -/
  printed : List String := []
  /-- The faults that were recorded on the way. -/
  faults : List Failure := []
  files : FileTree

/-- How a command ends on a failure: its exit status, and the last entry of its log. -/
def ending? (failure : Failure) : Option (Nat × LogEntry) :=
  let entry := fun text : String => { level := .error, reporter := .command, text : LogEntry }
  match failure with
  | .spec _ | .config _ => some (2, entry failure.message)
  | .build _ _ => some (1, entry ("aborted: " ++ failure.message))
  | .render _ _ | .system | .unsuitable => none

namespace Effect

/-- The effect of a command that a failure ends after some reports. -/
def ended (files : FileTree) (log : Log) (failure : Failure) : Effect :=
  match ending? failure with
  | some (status, entry) => { status := .ok status, log := log ++ [entry], files }
  | none => { status := .error failure, log, files }

/-- The log as it is shown: without the details, unless they are asked for. -/
def shownLog (effect : Effect) (verbose : Bool) : Log :=
  List.filter (fun e => verbose || e.level != .debug) effect.log

/-- The lines of the log, and after them one for each recorded fault. -/
def diagnostics (effect : Effect) (verbose : Bool) : List String :=
  (effect.shownLog verbose).map LogEntry.line
    ++ effect.faults.map fun failure => "error: " ++ failure.message

end Effect

/-- An option and its default, in columns. -/
def optionLine (option : String × Value) : String :=
  "  " ++ Text.padRight 24 option.1 ++ " " ++ option.2.quotedText

/-- Describes a target: its name, what it is for, and its options in order. -/
def describe (files : FileTree) (id : String) : Effect :=
  match Registry.builtin.find id with
  | .error failure => .ended files [] failure
  | .ok t => {
      status := .ok 0
      printed := (t.id ++ ": " ++ t.description)
        :: ((Options.defaultsOf t).mergeSort fun a b => !(b.1 < a.1)).map optionLine
      files }

/-- The templates in a directory that come before the built-in ones. -/
def overridesIn (files : FileTree) : Option String → List Template.Override
  | none => []
  | some folder => (files.below (Path.ofString folder)).map fun (path, content) =>
    { path, text? := content.text? }

/-- What is left of a run. -/
def ofOutcome (files : FileTree) (job : Job) (loaded : Log) (outcome : Outcome) : Effect :=
  let files := match outcome.sink with
    | .directory _ tree => tree
    | .memory _ _ => files
  let log := loaded ++ outcome.log
  match outcome.result with
  | .error failure => .ended files log failure
  | .ok report => {
      status := .ok report.status
      log
      printed := ["Generated " ++ job.output ++ " (" ++ report.summary ++ ")"]
      faults := report.errors
      files }

/-- Makes a run over the files at hand. -/
def generate (order : SetOrder) (fetch : Source.Fetch) (files : FileTree) (job : Job) : Effect :=
  match Registry.builtin.find job.target with
  | .error failure => .ended files [] failure
  | .ok target =>
    let loaded := Source.load order fetch files job.input
    match loaded.result with
    | .error failure => .ended files loaded.log failure
    | .ok d =>
      ofOutcome files job loaded.log <|
        (Generator.ofTarget target job.options).run order d (overridesIn files job.templates?)
          (.directory (Path.ofString job.output) files)

/-- Does what a request asks for. -/
def Request.run (order : SetOrder) (fetch : Source.Fetch) (files : FileTree) : Request → Effect
  | .list => { status := .ok 0, printed := Registry.builtin.available, files }
  | .describe id => Command.describe files id
  | .generate job => Command.generate order fetch files job

end ApiScaffold.Command
