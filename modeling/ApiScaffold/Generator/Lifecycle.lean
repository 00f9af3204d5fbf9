import ApiScaffold.Generator.Normal
import ApiScaffold.Generator.Settings
import ApiScaffold.Log
import ApiScaffold.Target.Java
import ApiScaffold.Target.Python

/-!
# The life cycle of a generator

A generator is a target with options and the state of its life cycle: the phase, and the settings
and supporting files that were derived. A step that the present phase does not allow fails and
changes nothing (`advance`).

* `processOptions` derives the settings, again if it was done before. The phase changes before the
  options are looked at, so it has changed also when one of them is refused.
* `preprocess` brings a document into its normal form, once the configuration is final.
* `startBuilding` and `finishRendering` mark the way of a run, and `reset` goes back to the start.

Targets that can be asked for by name are in a `Registry`.
-/

namespace ApiScaffold

inductive Phase where
  | created
  | configured
  | preprocessed
  | building
  | rendered
deriving DecidableEq

def Phase.name : Phase → String
  | created => "created"
  | configured => "configured"
  | preprocessed => "preprocessed"
  | building => "building"
  | rendered => "rendered"

/-- A generator with the state of its life cycle. -/
structure Generator where
  target : Target
  options : Options
  phase : Phase := .created
  settings? : Option Settings := none
  supportingFiles : List SupportingFile := []

/-- What a step of the life cycle does: the generator after it, its result and what it reports. -/
structure Step (α : Type) where
  generator : Generator
  result : Attempt α
  log : Log := []

namespace Generator

def ofTarget (target : Target) (options : Options) : Generator := { target, options }

/-- How a generator introduces itself. -/
def introduction (g : Generator) : String :=
  "<" ++ g.target.kind ++ " id=" ++ Text.quoted g.target.id ++ " state=" ++ g.phase.name ++ ">"

def settings (g : Generator) : Attempt Settings :=
  match g.settings? with
  | some s => .ok s
  | none => .error (.config (.notConfigured g.target.id))

/-- Moves to a phase from one of those allowed. -/
def advance (g : Generator) (allowed : List Phase) (wanted : Phase) : Attempt Generator :=
  if allowed.contains g.phase then .ok { g with phase := wanted }
  else .error (.config (.illegalMove g.target.id wanted.name g.phase.name
    (allowed.map Phase.name)))

private def flagText (b : Bool) : String := (Value.bool b).display

/-- The warning about an untried combination of flags. -/
def combinationWarning (id : String) (s : Settings) : LogEntry where
  level := .warning
  reporter := .config
  text := id ++ ": includeBuildDescriptor=" ++ flagText s.includeBuildDescriptor
    ++ " with interfaceOnly=" ++ flagText s.interfaceOnly
    ++ " is an unverified combination; each flag is applied independently"

/-- Derives the settings and the supporting files from the present options, again if it was done
before. The phase moves even if the options are refused. -/
def processOptions (g : Generator) : Step Settings :=
  match g.advance [.created, .configured] .configured with
  | .error failure => { generator := g, result := .error failure }
  | .ok moved =>
    match Settings.ofOptions g.target ((Options.defaultsOf g.target).merge g.options) with
    | .error failure => { generator := moved, result := .error failure }
    | .ok s =>
      let files := s.supportingFiles g.target
      { generator := { moved with settings? := some s, supportingFiles := files }
        result := .ok s
        log :=
          (if s.isUnverified g.target then [combinationWarning g.target.id s] else [])
          ++ [{ level := .debug, reporter := .config
                text := g.target.id ++ " configured: artifact_id=" ++ s.artifactId ++ ", "
                  ++ toString files.length ++ " supporting files" }] }

/-- Brings the document of a run into its normal form, once the configuration is final. -/
def preprocess (g : Generator) (spec : Spec) : Step Spec :=
  match g.advance [.configured] .preprocessed with
  | .error failure => { generator := g, result := .error failure }
  | .ok moved =>
    { generator := moved
      result := .ok { spec with members := normalize g.target spec.members } }

/-- Brings a loaded document into its normal form, in its place. -/
def preprocessInPlace (g : Generator) (d : Loaded) : Step Loaded :=
  let step := g.preprocess d.padded
  { generator := step.generator
    result := (fun spec => { d with spec }) <$> step.result
    log := step.log }

private def plainMove (g : Generator) (allowed : List Phase) (wanted : Phase) : Step Unit :=
  match g.advance allowed wanted with
  | .error failure => { generator := g, result := .error failure }
  | .ok moved => { generator := moved, result := .ok () }

def startBuilding (g : Generator) : Step Unit := plainMove g [.preprocessed] .building

def finishRendering (g : Generator) : Step Unit := plainMove g [.building] .rendered

/-- Returns to the start of the life cycle; the options stay. -/
def reset (g : Generator) : Generator :=
  { g with phase := .created, settings? := none, supportingFiles := [] }

end Generator

/-- The targets that can be asked for by name. -/
abbrev Registry := List (String × Target)

namespace Registry

def builtin : Registry :=
  [Target.jaxrsSpec, Target.python, Target.spring].map fun t => (t.id, t)

/-- The names of the targets, in order. -/
def available (registry : Registry) : List String :=
  (List.map Prod.fst registry).mergeSort fun a b => !(b < a)

/-- Adds a target under a name that is free. -/
def register (registry : Registry) (id : String) (t : Target) : Attempt Registry :=
  if (List.lookup id registry).isSome then .error (.config (.targetTaken id))
  else .ok (registry ++ [(id, { t with id })])

/-- The target of a name. -/
def find (registry : Registry) (id : String) : Attempt Target :=
  match List.lookup id registry with
  | some t => .ok t
  | none => .error (.config (.unknownTarget id registry.available))

end Registry

end ApiScaffold
