import ApiScaffold.Failure

/-!
# Reports

What a run reports while it works: entries with a level and the part of the program that reports.

A step that reports is a log beside a result (`Logged`). What it has reported stays when it fails,
so the log is not inside the result, and a later step adds to it only if the earlier one succeeded.
-/

namespace ApiScaffold

inductive Level where
  | debug
  | info
  | warning
  | error
deriving DecidableEq

def Level.name : Level → String
  | debug => "DEBUG"
  | info => "INFO"
  | warning => "WARNING"
  | error => "ERROR"

/-- The part of the program that reports. -/
inductive Reporter where
  | loader
  | config
  | models
  | operations
  | generator
  | writer
  | command

def Reporter.name : Reporter → String
  | loader => "oasgen.loader"
  | config => "oasgen.config"
  | models => "oasgen.model_builder"
  | operations => "oasgen.operation_builder"
  | generator => "oasgen.generator"
  | writer => "oasgen.writer"
  | command => "oasgen"

structure LogEntry where
  level : Level
  reporter : Reporter
  text : String

abbrev Log := List LogEntry

/-- The line that an entry is printed as. -/
def LogEntry.line (e : LogEntry) : String :=
  e.level.name ++ " " ++ e.reporter.name ++ ": " ++ e.text

/-- The texts of the warnings, in order. -/
def Log.warnings (log : Log) : List String :=
  (List.filter (fun e => e.level = .warning) log).map LogEntry.text

/-- A step that reports while it works. What it has reported stays when it fails. -/
structure Logged (α : Type) where
  log : Log
  result : Attempt α

namespace Logged

def bind {α β : Type} (a : Logged α) (f : α → Logged β) : Logged β :=
  match a.result with
  | .ok x =>
    let next := f x
    { next with log := a.log ++ next.log }
  | .error failure => { log := a.log, result := .error failure }

instance : Monad Logged where
  pure x := { log := [], result := .ok x }
  bind := bind

/-- A step without a report. -/
def ofAttempt {α : Type} (a : Attempt α) : Logged α := { log := [], result := a }

instance : MonadLift Attempt Logged := ⟨ofAttempt⟩

def report (level : Level) (reporter : Reporter) (text : String) : Logged Unit where
  log := [{ level, reporter, text }]
  result := .ok ()

end Logged

end ApiScaffold
