import ApiScaffold.Output.Sink
import ApiScaffold.Run.Components
import ApiScaffold.Run.Endpoints
import ApiScaffold.Run.Report
import ApiScaffold.Run.Task

/-!
# A whole run

Options, normal form of the document, models, operations, tasks, rendering, writing. Nothing is
written before everything is rendered, so a failure before that leaves the output as it is.

* `prepare`: settings, and the document in its normal form. A run works on a copy of the document.
* `gather`: the material, and the faults that are recorded on the way to it.
* `Draft.makeBy`: all texts to write, and the report but for the files that were written.
* `finish`: writes a draft and closes the run.

What renders is a parameter (`Template.Engine`) of the definitions whose names end in `By`. The
others take the templates that come before the built-in ones, and render with `Template.engineOf`.
What is shown for every engine holds also of templates that use what `Template` does not describe.
-/

namespace ApiScaffold

namespace Step

/-- One step after another, which sees the generator and the result of the first. -/
def andThen {α β : Type} (first : Step α) (next : Generator → α → Step β) : Step β :=
  match first.result with
  | .error failure =>
    { generator := first.generator, result := .error failure, log := first.log }
  | .ok a =>
    let second := next first.generator a
    { second with log := first.log ++ second.log }

/-- A step that changes nothing. -/
def pure {α : Type} (generator : Generator) (a : α) : Step α := { generator, result := .ok a }

end Step

namespace Generator

/-- The way from options to the building: settings, and the document in its normal form. -/
def prepare (g : Generator) (spec : Spec) : Step (Settings × Spec) :=
  g.processOptions.andThen fun g settings =>
    (g.preprocess spec).andThen fun g spec =>
      g.startBuilding.andThen fun g _ => Step.pure g (settings, spec)

end Generator

/-- What a run has before it writes: the texts to write, and its report but for the files that were
written. -/
structure Draft where
  texts : List (String × String)
  report : Report

namespace Draft

/-- The material of a document and the faults that are recorded on the way to it. -/
def gather (g : Generator) (spec : Spec) : Logged (Material × List Failure) := do
  let components ← Component.checked g spec
  let endpoints ← Endpoint.all g spec
  let operations ← Operation.distinguishAll (endpoints.filterMap Endpoint.operation?)
  let groups ← OperationGroup.ofOperations operations
  let models := components.filterMap Component.model?
  Logged.report .info .generator
    ("Built " ++ toString models.length ++ " models, " ++ toString operations.length
      ++ " operations in " ++ toString groups.length ++ " groups")
  return ({ spec, models, operations, groups },
    components.filterMap Component.failure? ++ endpoints.filterMap Endpoint.failure?)

/-- Builds and renders all of a run. Destinations that the rules ignore are not rendered. -/
def makeBy (engineOf : Target → Template.Engine) (g : Generator) (settings : Settings)
    (spec : Spec) (rules : Attempt IgnoreRules) : Logged Draft := do
  Logged.report .info .generator
    ("Generating " ++ g.target.id ++ " (" ++ settings.artifactId ++ ") from " ++ spec.source)
  let (material, failures) ← gather g spec
  let tasks ← Task.plan g material
  let rules ← rules
  let kept := tasks.filter fun task => !rules.ignored task.destination
  let products ← Task.renderAll (engineOf g.target) kept
  return {
    texts := products.filterMap Task.Product.file?
    report := {
      generatorId := g.target.id
      models := material.models
      operations := material.operations
      groups := material.groups
      files := []
      skipped := (tasks.map Task.destination).filter rules.ignored
      errors := failures ++ products.filterMap Task.Product.failure? } }

/-- The draft of a run with templates that come before the built-in ones. -/
def make (g : Generator) (settings : Settings) (spec : Spec)
    (overrides : List Template.Override) (rules : Attempt IgnoreRules) : Logged Draft :=
  makeBy (Template.engineOf overrides) g settings spec rules

end Draft

/-- What a run leaves: the generator and the output after it, what it reported and its result. -/
structure Outcome where
  generator : Generator
  sink : Sink
  log : Log
  result : Attempt Report

namespace Outcome

/-- The end of a run that stops early. -/
def stopped (g : Generator) (sink : Sink) (log : Log) (failure : Failure) : Outcome :=
  { generator := g, sink, log, result := .error failure }

/-- Writes a draft and closes the run. -/
def finish (g : Generator) (sink : Sink) (log : Log) (draft : Draft) : Outcome :=
  let (sink, written) := sink.writeAll draft.texts
  let log := log ++ written.log
  match written.result with
  | .error failure => stopped g sink log failure
  | .ok files =>
    let report := { draft.report with files }
    let step := g.finishRendering
    match step.result with
    | .error failure => stopped step.generator sink log failure
    | .ok _ => {
        generator := step.generator
        sink
        log := log ++ [{ level := .info, reporter := .generator, text := report.summary }]
        result := .ok report }

end Outcome

namespace Generator

/-- Runs a generator over the copy of a document that the run may change. -/
def generateBy (engineOf : Target → Template.Engine) (g : Generator) (spec : Spec) (sink : Sink) :
    Outcome :=
  let prepared := g.prepare spec
  match prepared.result with
  | .error failure => .stopped prepared.generator sink prepared.log failure
  | .ok (settings, document) =>
    let g := prepared.generator
    let drafted := Draft.makeBy engineOf g settings document sink.rules
    let log := prepared.log ++ drafted.log
    match drafted.result with
    | .error failure => .stopped g sink log failure
    | .ok draft => .finish g sink log draft

/-- Runs a generator with templates that come before the built-in ones. -/
def generate (g : Generator) (spec : Spec) (overrides : List Template.Override) (sink : Sink) :
    Outcome :=
  g.generateBy (Template.engineOf overrides) spec sink

/-- Runs a generator over a copy of a loaded document. -/
def runBy (engineOf : Target → Template.Engine) (g : Generator) (order : SetOrder) (d : Loaded)
    (sink : Sink) : Outcome :=
  generateBy engineOf g (d.copy order).padded sink

/-- Runs a generator over a copy of a loaded document, with templates that come before the built-in
ones. -/
def run (g : Generator) (order : SetOrder) (d : Loaded) (overrides : List Template.Override)
    (sink : Sink) : Outcome :=
  g.generate (d.copy order).padded overrides sink

end Generator

end ApiScaffold
