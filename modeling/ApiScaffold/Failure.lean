import ApiScaffold.Document.Display

/-!
# Failures

Why a step fails: the causes, by the part of the work that they belong to, and the one wording of
each.

* `SpecFault` and `ConfigFault`: the document or the configuration is unusable, and nothing is made.
* `BuildFault`: a model or an operation cannot be built. A run records it and goes on.
* `RenderFault`: a file cannot be rendered. A run records it and goes on.
* `system` and `unsuitable`: the file system refuses, or something is asked for that has no result
  here.

A cause holds the data that its wording shows, and no wording is written anywhere else. Some
wordings end with the account of a reader or of the file system; `headline` is the part before it.
-/

namespace ApiScaffold

/-- What makes a document unusable. -/
inductive SpecFault where
  /-- The text is no document; `detail` is the reader's account. -/
  | unparsable (source detail : String)
  /-- The address does not answer. -/
  | unfetchable (url detail : String)
  /-- The file cannot be read. -/
  | unreadable (path detail : String)
  | notMapping (source : String)
  | unsupportedVersion (source version : String)
  | pathsNotMapping (source : String)
  /-- A reference to another document, found at `location`. -/
  | externalReference (location reference : String)
  /-- A reference that is no pointer into the document. -/
  | unsupportedReference (reference : String)
  | unresolvable (reference : String)
  /-- A reference to something that is no mapping. -/
  | targetNotMapping (reference : String)
  | circularReference (reference : Value)
  | pathItemNotMapping (path : Value)
  | operationNotMapping (operation : String)
  | parameterNotMapping (operation : String)
  | parameterIncomplete (operation : String)
  | unknownLocation (operation : String) (name location : Value)
  | severalBodies (operation : String) (count : Nat)

/-- What makes a configuration unusable. -/
inductive ConfigFault where
  | unknownTarget (id : String) (known : List String)
  | targetTaken (id : String)
  | expectsBoolean (option : String) (value : Value)
  | expectsInteger (option : String) (value : Value)
  | integerTooSmall (option : String) (least : Int) (value : Value)
  /-- Settings were asked for before the options were processed. -/
  | notConfigured (id : String)
  /-- A move of the life cycle that the present phase does not allow. -/
  | illegalMove (id wanted present : String) (allowed : List String)
  /-- Two outputs with one destination. -/
  | sharedDestination (destination first second : String)

/-- Why a schema has no type. -/
inductive SchemaFault where
  | notMapping (kind : String)
  | circularAlias (target : String)
  /-- No member of a composition has a type; the fault of the first is kept. -/
  | noResolvableMember (keyword : String) (first : SchemaFault)
  | ambiguousTypes (types : List Value)
  | arrayWithoutItems
  | untyped
  | unsupported (type format : Value)

/-- Why a model or an operation cannot be built. -/
inductive BuildFault where
  | schema (fault : SchemaFault)
  | schemaNotMapping
  | enumType (fault : SchemaFault)
  | propertyType (name : Value) (fault : SchemaFault)
  | propertyTwice (name : Value) (first second : String)
  | memberNotSchema (keyword : String) (index : Nat)
  | circularComposition (target : String)
  | sharedField (first second field : String)
  | dependsOnFailed (name : String)
  | parameterWithoutSchema (name : Value)
  | parameterType (name : Value) (fault : SchemaFault)
  | bodyWithoutSchema
  | bodyType (fault : SchemaFault)
  | responseType (code : Value) (fault : SchemaFault)

/-- A name or an attribute that a template uses and the context lacks. -/
inductive MissingBinding where
  | name (name : String)
  | field (owner name : String)
  | element (owner index : String)
  /-- The part of a choice that has no text for the case that is met. -/
  | otherwise (template : String) (line : Nat)

/-- Why a file cannot be rendered. -/
inductive RenderFault where
  /-- The template asked for does not exist. -/
  | missing (template : String)
  /-- The template whose source was asked for does not exist. -/
  | noSource
  /-- The text of the template is malformed at a line; `detail` is the reader's account. -/
  | malformed (template : String) (line : Nat) (detail : String)
  /-- The text of another template inside the template is malformed. -/
  | malformedInside (template : String) (detail : String)
  | unbound (template : String) (missing : MissingBinding)
  /-- The template asks for another one that does not exist. -/
  | missingInclude (template included : String)
  /-- The template uses a filter that does not exist, in a place that was reached. -/
  | unknownFilter (template name : String)

/-- Why a step fails. -/
inductive Failure where
  | spec (fault : SpecFault)
  | config (fault : ConfigFault)
  | build (subject : Value) (fault : BuildFault)
  | render (destination : String) (fault : RenderFault)
  /-- The file system refuses. -/
  | system
  /-- A part of the document or of a context has a kind that no rule of the step covers. -/
  | unsuitable

/-- The result of a step that may fail. -/
abbrev Attempt (α : Type) := Except Failure α

/-- A step that needs a value of a certain kind. -/
def require {α : Type} : Option α → Attempt α
  | some a => .ok a
  | none => .error .unsuitable

namespace SpecFault

/-- The part of the wording that is not the account of a reader or of the system. -/
def headline : SpecFault → String
  | unparsable source _ => "cannot parse " ++ source
  | unfetchable url _ => "cannot fetch " ++ url
  | unreadable path _ => "cannot read " ++ path
  | notMapping source => source ++ " does not contain an OpenAPI object"
  | unsupportedVersion source version =>
    source ++ ": only OpenAPI 3.x documents are supported (got "
      ++ Text.quoted (if version = "" then "none" else version) ++ ")"
  | pathsNotMapping source => source ++ ": 'paths' must be a mapping"
  | externalReference location reference =>
    location ++ ": external reference " ++ Text.quoted reference ++ " is not supported"
  | unsupportedReference reference => "unsupported reference " ++ Text.quoted reference
  | unresolvable reference => "unresolvable reference " ++ Text.quoted reference
  | targetNotMapping reference =>
    "reference " ++ Text.quoted reference ++ " does not point at an object"
  | circularReference reference => "circular reference " ++ reference.quotedText
  | pathItemNotMapping path => "path " ++ path.quotedText ++ " must map to an object"
  | operationNotMapping operation => operation ++ ": operation must be an object"
  | parameterNotMapping operation => operation ++ ": parameter entries must be objects"
  | parameterIncomplete operation => operation ++ ": parameter is missing 'name' or 'in'"
  | unknownLocation operation name location =>
    operation ++ ": parameter " ++ name.quotedText ++ " has unknown location "
      ++ location.quotedText
  | severalBodies operation count =>
    operation ++ ": " ++ toString count ++ " body parameters declared, at most one is allowed"

def message (fault : SpecFault) : String :=
  match fault with
  | unparsable _ detail | unfetchable _ detail | unreadable _ detail =>
    fault.headline ++ ": " ++ detail
  | _ => fault.headline

end SpecFault

def ConfigFault.message : ConfigFault → String
  | unknownTarget id known =>
    "unknown generator " ++ Text.quoted id ++ " (available: "
      ++ (if known.isEmpty then "none" else String.intercalate ", " known) ++ ")"
  | targetTaken id => "generator id " ++ Text.quoted id ++ " is already registered"
  | expectsBoolean option value =>
    "option " ++ Text.quoted option ++ " expects a boolean, got " ++ value.quotedText
  | expectsInteger option value =>
    "option " ++ Text.quoted option ++ " expects an integer, got " ++ value.quotedText
  | integerTooSmall option least value =>
    "option " ++ Text.quoted option ++ " must be an integer >= " ++ toString least ++ ", got "
      ++ value.quotedText
  | notConfigured id => id ++ ": process_options() has not run"
  | illegalMove id wanted present allowed =>
    id ++ ": cannot move to " ++ wanted ++ " from " ++ present ++ " (expected "
      ++ String.intercalate ", " allowed ++ ")"
  | sharedDestination destination first second =>
    "destination " ++ Text.quoted destination ++ " is produced by both " ++ first ++ " and "
      ++ second

def SchemaFault.message : SchemaFault → String
  | notMapping kind => "expected a schema object, got " ++ kind
  | circularAlias target => "circular alias " ++ Text.quoted target
  | noResolvableMember keyword first =>
    "no resolvable " ++ keyword ++ " member (" ++ first.message ++ ")"
  | ambiguousTypes types => "ambiguous type list " ++ (Value.list types).quotedText
  | arrayWithoutItems => "array schema without 'items'"
  | untyped => "schema has no 'type'"
  | unsupported type format =>
    "unsupported type " ++ type.quotedText
      ++ (if format.isTruthy then " with format " ++ format.quotedText else "")

def BuildFault.message : BuildFault → String
  | schema fault => fault.message
  | schemaNotMapping => "schema is not an object"
  | enumType fault => "enum: " ++ fault.message
  | propertyType name fault => "property " ++ name.quotedText ++ ": " ++ fault.message
  | propertyTwice name first second =>
    "property " ++ name.quotedText ++ " is defined by both " ++ Text.quoted first ++ " and "
      ++ Text.quoted second
  | memberNotSchema keyword index =>
    keyword ++ "[" ++ toString index ++ "] is not a schema object"
  | circularComposition target => "circular composition through " ++ Text.quoted target
  | sharedField first second field =>
    "properties " ++ Text.quoted first ++ " and " ++ Text.quoted second ++ " both map to field "
      ++ Text.quoted field
  | dependsOnFailed name => "depends on failed model " ++ Text.quoted name
  | parameterWithoutSchema name => "parameter " ++ name.quotedText ++ " has no schema"
  | parameterType name fault => "parameter " ++ name.quotedText ++ ": " ++ fault.message
  | bodyWithoutSchema => "requestBody has no schema"
  | bodyType fault => "requestBody: " ++ fault.message
  | responseType code fault => "response " ++ code.display ++ ": " ++ fault.message

def MissingBinding.message : MissingBinding → String
  | .name binding => Text.quoted binding ++ " is undefined"
  | .field owner key => Text.quoted owner ++ " has no attribute " ++ Text.quoted key
  | .element owner index => owner ++ " has no element " ++ index
  | .otherwise template line =>
    "the inline if-expression on line " ++ toString line ++ " in " ++ Text.quoted template
      ++ " evaluated to false and no else section was defined."

def RenderFault.message : RenderFault → String
  | .missing id => "template " ++ Text.quoted id ++ " not found"
  | .noSource => "template not found"
  | .malformed template line detail =>
    template ++ " line " ++ toString line ++ ": " ++ detail
  | .malformedInside template detail => template ++ ": " ++ detail
  | .unbound template binding => template ++ ": missing binding (" ++ binding.message ++ ")"
  | .missingInclude template included => template ++ ": " ++ included
  | .unknownFilter template name =>
    template ++ ": No filter named " ++ Text.quoted name ++ " found."

/-- The wording without the account of a reader. -/
def RenderFault.headline : RenderFault → String
  | .malformed template line _ => template ++ " line " ++ toString line
  | fault => fault.message

namespace Failure

/-- The wording of a failure; the last two kinds have none. -/
def message : Failure → String
  | spec fault => fault.message
  | config fault => fault.message
  | build subject fault => subject.display ++ ": " ++ fault.message
  | render destination fault => destination ++ ": " ++ fault.message
  | system => ""
  | unsuitable => ""

end Failure

end ApiScaffold
