import ApiScaffold.Log
import ApiScaffold.Run.Context
import ApiScaffold.Generator.Lifecycle
import ApiScaffold.Template.Library

/-!
# The tasks of a run

The files that a run renders, each with its template, its destination and what the template sees:
supporting files, models and groups, in this order, as far as the settings want them.

All destinations are known, and differ, before anything is rendered (`plan`). A task that cannot be
rendered is recorded and the others go on (`renderAll`); the warnings come when all are done, in the
order of the plan.
-/

namespace ApiScaffold

/-- What a file is rendered for. -/
inductive Purpose where
  | supportingFile (template : String)
  | model (name : String)
  | api (group : String)

/-- A purpose as messages name it. -/
def Purpose.label : Purpose → String
  | supportingFile template => "supporting file " ++ template
  | model name => "model " ++ name
  | api group => "api " ++ group

/-- A file to render. -/
structure Task where
  destination : String
  template : String
  purpose : Purpose
  scope : Template.Scope

/-- What a run is made of: the document in its normal form, models and groups. -/
structure Material where
  spec : Spec
  models : List Model
  operations : List Operation
  groups : List OperationGroup

namespace Material

/-- What every template of a run sees. -/
def scope (m : Material) (t : Target) (s : Settings) : Attempt Template.Scope := do
  let title ← m.spec.title
  let version ← m.spec.version
  let basePath ← m.spec.basePath
  let description ← m.spec.description
  return [
    ("settings", s.datum),
    ("generator_id", .str t.id),
    ("app_name", .value (title.orElse (.str s.baseName))),
    ("app_version", .str version),
    ("base_path", .str basePath),
    ("app_description", .value description),
    ("models", .list (m.models.map Model.datum)),
    ("groups", .list (m.groups.map OperationGroup.datum))]

end Material

namespace Task

/-- What a template sees of imports. -/
def importScope (split : Target.ImportSplit) : Template.Scope := [
  ("library_imports", .list (split.library.map .str)),
  ("model_imports", .list (split.models.map .str))]

def ofSupportingFile (base : Template.Scope) (file : SupportingFile) : Task where
  destination := file.path
  template := file.template
  purpose := .supportingFile file.template
  scope := base

def ofModel (t : Target) (s : Settings) (base : Template.Scope) (m : Model) : Task where
  destination := s.modelDestination t m.className
  template := t.modelTemplate
  purpose := .model m.name
  scope := ("model", m.datum) :: importScope (t.splitImports m.imports) ++ base

def ofGroup (t : Target) (s : Settings) (base : Template.Scope) (g : OperationGroup) : Task where
  destination := s.apiDestination t g.className
  template := t.apiTemplate
  purpose := .api g.name
  scope := ("group", g.datum) :: ("operations", .tuple (g.operations.map Operation.datum))
    :: importScope (t.splitImports g.imports) ++ base

/-- The tasks of a run: supporting files, models, groups, as far as the settings want them. -/
def all (t : Target) (s : Settings) (files : List SupportingFile) (base : Template.Scope)
    (m : Material) : List Task :=
  (if s.generateSupportingFiles then files.map (ofSupportingFile base) else [])
    ++ (if s.generateModels then m.models.map (ofModel t s base) else [])
    ++ (if s.generateApis then m.groups.map (ofGroup t s base) else [])

/-- The first task with the destination of an earlier one, and the earlier one. -/
def firstShared? (earlier : List Task) : List Task → Option (Task × Task)
  | [] => none
  | task :: rest =>
    match earlier.find? fun owner => owner.destination = task.destination with
    | some owner => some (owner, task)
    | none => firstShared? (earlier ++ [task]) rest

/-- The tasks of a run. Two with one destination end it. -/
def plan (g : Generator) (m : Material) : Attempt (List Task) := do
  let s ← g.settings
  let tasks := all g.target s g.supportingFiles (← m.scope g.target s) m
  match firstShared? [] tasks with
  | some (owner, task) =>
    .error (.config (.sharedDestination task.destination owner.purpose.label task.purpose.label))
  | none => return tasks

/-- What comes of a task. -/
inductive Product where
  | text (destination text : String)
  | failed (destination : String) (fault : RenderFault)

/-- Renders a task. Only a fault of the rendering is recorded; any other failure ends the run. -/
def render (engine : Template.Engine) (task : Task) : Attempt Product :=
  match engine task.template task.scope task.destination with
  | .ok text => .ok (.text task.destination text)
  | .error (.render _ fault) => .ok (.failed task.destination fault)
  | .error failure => .error failure

namespace Product

/-- The destination and the text of what can be written. -/
def file? : Product → Option (String × String)
  | text destination s => some (destination, s)
  | failed _ _ => none

/-- The fault that is recorded. -/
def failure? : Product → Option Failure
  | text _ _ => none
  | failed destination fault => some (.render destination fault)

/-- The warning about a file that cannot be rendered. -/
def warning? : Product → Option LogEntry
  | text _ _ => none
  | failed destination fault => some {
      level := .warning, reporter := .generator
      text := "Render failed for " ++ destination ++ ": " ++ fault.message }

end Product

/-- Renders tasks in order. The faults are reported when all are done. -/
def renderAll (engine : Template.Engine) (tasks : List Task) : Logged (List Product) :=
  match tasks.mapM (render engine) with
  | .ok products => { log := products.filterMap Product.warning?, result := .ok products }
  | .error failure => Logged.ofAttempt (.error failure)

end Task

end ApiScaffold
