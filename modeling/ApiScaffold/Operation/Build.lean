import ApiScaffold.Operation.Basic
import ApiScaffold.Schema.Resolve

/-!
# The building of operations

An operation from its path item: parameters of the path and of the operation, the body, the
responses and the type that the method returns.

The parameters of the operation take the place of those of the path with the same name and location,
the body comes as one more, and all are then put in the order of their locations, each location in
the order given. More than one body is a fault.

The steps run in the order of `Operation.ofSlot`, and the first fault is the one that an operation
has.
-/

namespace ApiScaffold

namespace Operation

/-- The media types whose schema is taken before any other. -/
def preferredMediaTypes : List String := ["application/json", "text/json"]

/-- The schema of a media type's entry. -/
def schemaOfMedia (media : Value) : Attempt Value :=
  (media.orElse .emptyMap).member "schema" .null

/-- The schema of a content map: of a preferred media type, else of the first. -/
def contentSchema (content : Value) : Attempt Value :=
  if !content.isTruthy then .ok .null
  else do
    let members ← content.entries
    match preferredMediaTypes.findSome? (Members.get? members) with
    | some media => schemaOfMedia media
    | none => match members with
      | [] => return .null
      | (_, media) :: _ => schemaOfMedia media

/-- A parameter's mapping with its name and location as written. -/
structure RawParameter where
  name : Value
  location : Value
  members : Members

/-- Reads a parameter entry, following a reference. -/
def rawParameter (spec : Spec) (subject : String) (entry : Value) : Attempt RawParameter := do
  match entry with
  | .map members =>
    let members ← spec.deref members
    match Members.get? members "name", Members.get? members "in" with
    | some name, some location =>
      if name.isKey && location.isKey then return { name, location, members }
      else .error .unsuitable
    | _, _ => .error (.spec (.parameterIncomplete subject))
  | _ => .error (.spec (.parameterNotMapping subject))

/-- Adds a parameter: in the place of one with the same name and location, or at the end. -/
def mergeParameter : List RawParameter → RawParameter → List RawParameter
  | [], p => [p]
  | q :: rest, p =>
    if q.name.keyEq p.name && q.location.keyEq p.location then
      { q with members := p.members } :: rest
    else q :: mergeParameter rest p

/-- The entries of a parameter list. -/
def parameterEntries (members : Members) : Attempt (List Value) :=
  let v := Members.getD members "parameters" .null
  if v.isTruthy then v.elements else .ok []

/-- The parameters of the path followed by those of the operation, the latter in the place of the
path's where they have the same name and location. -/
def mergedParameters (spec : Spec) (pathItem operation : Members) (subject : String) :
    Attempt (List RawParameter) := do
  let shared ← parameterEntries pathItem
  let own ← parameterEntries operation
  (shared ++ own).foldlM (fun merged entry =>
    return mergeParameter merged (← rawParameter spec subject entry)) []

/-- The schema of a parameter: its own, else that of its content. -/
def parameterSchema (members : Members) : Attempt Value :=
  match Members.getD members "schema" .null with
  | .null => contentSchema (Members.getD members "content" .null)
  | schema => .ok schema

/-- The location that a parameter names. -/
def locationOf (subject : String) (name place : Value) : Attempt Location :=
  match place.asStr? >>= Location.ofName? with
  | some location => .ok location
  | none => .error (.spec (.unknownLocation subject name place))

def buildParameter (g : Generator) (spec : Spec) (id : Value) (subject : String)
    (raw : RawParameter) : Attempt Parameter := do
  let name := Members.getD raw.members "name" .null
  let location ← locationOf subject name (Members.getD raw.members "in" .null)
  let schema ← parameterSchema raw.members
  match schema with
  | .null => .error (.build id (.parameterWithoutSchema name))
  | _ =>
    let type ← Schema.reframe id (.parameterType name) (Schema.resolve g (some spec) schema)
    let wireName ← require name.asStr?
    let members ← schema.entries
    let default ← require (g.target.defaultLiteral? members type)
    return {
      wireName
      name := g.target.fieldName wireName
      location
      required :=
        (Members.getD raw.members "required" (.bool false)).isTruthy || location = .path
      type := type.name
      description := Members.getD raw.members "description" (.str "")
      default
      imports := type.imports }

/-- The name of the body among the parameters. -/
def bodyName : String := "body"

/-- The parameter of the request body, if there is one. -/
def buildBody (g : Generator) (spec : Spec) (id : Value) (operation : Members) :
    Attempt (Option Parameter) := do
  let raw := Members.getD operation "requestBody" .null
  if !raw.isTruthy then return none
  else
    let body ← (← spec.derefValue raw).entries
    let schema ← contentSchema (Members.getD body "content" .null)
    match schema with
    | .null => .error (.build id .bodyWithoutSchema)
    | _ =>
      let type ← Schema.reframe id .bodyType (Schema.resolve g (some spec) schema)
      return some {
        wireName := bodyName
        name := g.target.fieldName bodyName
        location := .body
        required := (Members.getD body "required" (.bool false)).isTruthy
        type := type.name
        description := Members.getD body "description" (.str "")
        default := type.default
        imports := type.imports }

/-- The members of a response, which has none unless it is a mapping. -/
def responseMembers (spec : Spec) (raw : Value) : Attempt Members :=
  match raw with
  | .map members => spec.deref members
  | _ => .ok []

/-- The type of a response, which has none without a schema. -/
def responseType (g : Generator) (spec : Spec) (id code schema : Value) :
    Attempt (Option TargetType) :=
  match schema with
  | .null => .ok none
  | _ => some <$> Schema.reframe id (.responseType code) (Schema.resolve g (some spec) schema)

/-- A response with the imports of its type. -/
def buildResponse (g : Generator) (spec : Spec) (id code raw : Value) :
    Attempt (Response × List String) := do
  let members ← responseMembers spec raw
  let schema ← contentSchema (Members.getD members "content" .null)
  let type ← responseType g spec id code schema
  return ({
    code := code.display
    description := Members.getD members "description" (.str "")
    type := type.map TargetType.name
    isDefault := code.display = "default" }, (type.map TargetType.imports).getD [])

def buildResponses (g : Generator) (spec : Spec) (id : Value) (operation : Members) :
    Attempt (List (Response × List String)) := do
  let v := Members.getD operation "responses" .null
  if !v.isTruthy then return []
  else (← v.entries).mapM fun (code, raw) => buildResponse g spec id code raw

/-- The type that a method returns: that of the first success with content, else that of the default
response, else none. -/
def resultType (t : Target) (responses : List Response) : String :=
  let typed := fun (r : Response) => match r.type with
    | some type => if type = "" then none else some type
    | none => none
  let success := responses.findSome? fun r => if r.code.startsWith "2" then typed r else none
  let fallback := responses.findSome? fun r => if r.isDefault then typed r else none
  (success <|> fallback).getD t.voidType

/-- The parameters in the order of their locations, each location in the order given. -/
def orderParameters (parameters : List Parameter) : List Parameter :=
  Location.all.flatMap fun location => parameters.filter fun p => p.location = location

/-- The id of an operation: its own, else one from its method and path. -/
def identify (path : Value) (method : String) (members : Members) : Attempt Value :=
  let v := Members.getD members "operationId" .null
  if v.isTruthy then .ok v
  else return .str (Naming.operationId method (← require path.asStr?))

def tagsOf (members : Members) : Attempt (List Value) :=
  let v := Members.getD members "tags" .null
  if v.isTruthy then v.elements else .ok []

/-- The group of an operation: its first tag, else what follows from its path. -/
def groupOf (path : Value) (tags : List Value) : Attempt Value :=
  match tags with
  | tag :: _ => .ok tag
  | [] => return .str (Naming.pathGroup (← require path.asStr?))

/-- The operation of a path and a method. -/
def ofSlot (g : Generator) (spec : Spec) (path : Value) (method : String)
    (operation pathItem : Value) : Attempt Operation := do
  let httpMethod := Text.upper method
  let subject := httpMethod ++ " " ++ path.display
  match operation with
  | .map members =>
    let id ← identify path method members
    let item ← (pathItem.orElse .emptyMap).entries
    let raws ← mergedParameters spec item members subject
    let declared ← raws.mapM (buildParameter g spec id subject)
    let body ← buildBody g spec id members
    let parameters := declared ++ body.toList
    let bodies := (parameters.filter fun p => p.location = .body).length
    if bodies > 1 then .error (.spec (.severalBodies subject bodies))
    else
      let responses ← buildResponses g spec id members
      let tags ← tagsOf members
      let operationId ← require id.asStr?
      let group ← groupOf path tags
      return {
        httpMethod
        path
        operationId
        nickname := g.target.operationName operationId
        group
        parameters := orderParameters parameters
        responses := responses.map Prod.fst
        returnType := resultType g.target (responses.map Prod.fst)
        summary := Members.getD members "summary" (.str "")
        notes := Members.getD members "description" (.str "")
        tags
        imports := Target.sortedSet (parameters.flatMap Parameter.imports
          ++ responses.flatMap Prod.snd)
        deprecated := (Members.getD members "deprecated" (.bool false)).isTruthy }
  | _ => .error (.spec (.operationNotMapping subject))

end Operation

end ApiScaffold
