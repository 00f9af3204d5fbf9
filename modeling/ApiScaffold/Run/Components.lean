import ApiScaffold.Model.Build

/-!
# The components of a run

Every component schema is inlined where it is used, becomes a model, or has a fault that is recorded
(`Component`). They are taken in the order of their names, which is the order of the models of a
run.

A model may not refer to a schema with a fault. That is checked when all components are done
(`checkReferences`), on the references that the model's own schema holds: those of the schemas that
are inlined into it do not count.
-/

namespace ApiScaffold

/-- What a component schema comes to. -/
inductive Component where
  /-- An alias, which has no class of its own. -/
  | inlined (name : Value)
  | model (m : Model)
  /-- A schema without a model, with the subject of its fault. -/
  | failed (name subject : Value) (fault : BuildFault)

namespace Component

/-- The report about a model that is built. -/
def builtText (m : Model) : String :=
  if m.isEnum then
    "Built enum model " ++ m.className ++ " (" ++ toString m.allowedValues.length ++ " values)"
  else "Built model " ++ m.className ++ " (" ++ toString m.properties.length ++ " properties)"

/-- Whether a schema is inlined. -/
def isInlined : Value → Attempt Bool
  | .map schema => Schema.isAlias schema
  | _ => .ok false

/-- What the schema of a name comes to. Only a fault of the schema itself is recorded; any other
failure ends the run. -/
def ofSchema (g : Generator) (spec : Spec) (name schema : Value) : Logged Component := do
  if ← isInlined schema then
    Logged.report .debug .generator ("Skipping alias schema " ++ name.display)
    return .inlined name
  else match Model.ofSchema g spec name schema with
    | .ok m =>
      Logged.report .debug .models (builtText m)
      return .model m
    | .error (.build subject fault) =>
      Logged.report .warning .generator
        ("Model " ++ name.display ++ " failed: " ++ fault.message)
      return .failed name subject fault
    | .error failure => Logged.ofAttempt (.error failure)

/-- The component schemas of a document in the order of their names. -/
def entries (spec : Spec) : Attempt Members := do
  require (← (← spec.schemas).entries).sorted?

/-- What the component schemas of a document come to. -/
def all (g : Generator) (spec : Spec) : Logged (List Component) := do
  let schemas ← entries spec
  schemas.mapM fun (name, schema) => ofSchema g spec name schema

def model? : Component → Option Model
  | model m => some m
  | _ => none

/-- The fault that is recorded. -/
def failure? : Component → Option Failure
  | failed _ subject fault => some (.build subject fault)
  | _ => none

/-- The name of a schema that has failed. -/
def failedName? : Component → Option String
  | failed name _ _ => name.asStr?
  | _ => none

/-- Accepts models that do not refer to any of the failed components. -/
def checkReferences (failed : List String) : List Model → Attempt Unit
  | [] => .ok ()
  | m :: rest =>
    match m.references.find? failed.contains with
    | some name => .error (.build (.str m.name) (.dependsOnFailed name))
    | none => checkReferences failed rest

/-- The components of a document, none of whose models refers to a failed one. -/
def checked (g : Generator) (spec : Spec) : Logged (List Component) := do
  let components ← all g spec
  checkReferences (components.filterMap failedName?) (components.filterMap model?)
  return components

end Component

end ApiScaffold
