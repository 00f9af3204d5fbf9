import ApiScaffold.Model.Basic
import ApiScaffold.Schema.Resolve

/-!
# The building of models

An enumeration from a schema with allowed values, a record from the properties that a schema and the
members of its compositions declare.

A record is gathered first (`flatten`) and built afterwards (`buildRecord`). Gathering walks through
the members of compositions in order and follows references between components; `visiting` holds the
components on the way, so a circle is a fault. The recursion is bounded by `depthBound`: each step
goes down in one schema or on to another component, so a longer way has to come back to where it
was.

A wire name may be declared once among all that are gathered, and no two properties may share a
field.
-/

namespace ApiScaffold

namespace Schema

mutual

/-- The component schemas that a value refers to, in the order of a walk. -/
def componentReferences : Value → List String
  | .map members =>
    (match Members.get? members "$ref" with
      | some (.str reference) => (Spec.schemaNameOf? reference).toList
      | _ => []) ++ referencesOfMembers members
  | .list items => referencesOfItems items
  | _ => []

def referencesOfMembers : List (Value × Value) → List String
  | [] => []
  | (_, v) :: rest => componentReferences v ++ referencesOfMembers rest

def referencesOfItems : List Value → List String
  | [] => []
  | v :: rest => componentReferences v ++ referencesOfItems rest

end

end Schema

namespace Model

/-- A property as it is declared: where, under which name, by which schema. -/
structure Declared where
  origin : String
  name : Value
  schema : Value

/-- What the flattening of a schema has gathered. -/
structure Gathered where
  composedOf : List String := []
  properties : List Declared := []
  /-- The names that are required. -/
  required : List Value := []
  /-- The components whose declarations are in already. -/
  flattened : List String := []

/-- Notes a component that the schema itself is composed of. -/
def Gathered.note (g : Gathered) (component : String) : Gathered :=
  if g.composedOf.contains component then g
  else { g with composedOf := g.composedOf ++ [component] }

/-- Adds the properties of one schema; a name may be declared once only. -/
def declareAll (model origin : String) : List (Value × Value) → List Declared →
    Attempt (List Declared)
  | [], declared => .ok declared
  | (name, schema) :: rest, declared =>
    match declared.find? fun d => d.name.keyEq name with
    | some first => .error (.build (.str model) (.propertyTwice name first.origin origin))
    | none => declareAll model origin rest (declared ++ [{ origin, name, schema }])

/-- A value that counts, as members or items. -/
def nonEmpty? (members : Members) (key : String) : Option Value :=
  (Members.get? members key).bind fun v => if v.isTruthy then some v else none

/-- The members of the value under a key, if it counts. -/
def entriesUnder (members : Members) (key : String) : Attempt Members :=
  match nonEmpty? members key with
  | none => .ok []
  | some v => v.entries

/-- What iteration over the value under a key yields, if it counts. -/
def elementsUnder (members : Members) (key : String) : Attempt (List Value) :=
  match nonEmpty? members key with
  | none => .ok []
  | some v => v.elements

/-- The properties and required names that a schema declares itself. -/
def declareOwn (model origin : String) (schema : Members) (g : Gathered) : Attempt Gathered := do
  let properties ← declareAll model origin (← entriesUnder schema "properties") g.properties
  let required ← elementsUnder schema "required"
  if required.all Value.isKey then
    return { g with properties, required := g.required ++ required }
  else .error .unsuitable

/-- A member of a composition where it stands. -/
structure Member where
  keyword : String
  index : Nat
  value : Value

/-- The members that a keyword lists. -/
def membersUnder (schema : Members) (keyword : String) : Attempt (List Member) :=
  return (← elementsUnder schema keyword).zipIdx.map fun (value, index) =>
    { keyword, index, value }

/-- The members of the compositions from a keyword on, each keyword read when its turn comes. -/
def flattenKeywords (step : Member → Gathered → Attempt Gathered) (schema : Members) :
    List String → Gathered → Attempt Gathered
  | [], g => .ok g
  | keyword :: rest, g => do
    let members ← membersUnder schema keyword
    flattenKeywords step schema rest (← members.foldlM (fun g member => step member g) g)

/-- Gathers what a schema and the members of its compositions declare. `visiting` holds the
components on the way to the schema; `depth` bounds the length of the way, and where it ends the
composition has no end. -/
def flatten (spec : Spec) (model : String) :
    Nat → String → List String → Members → Gathered → Attempt Gathered
  | 0, _, _, _, _ => .error .unsuitable
  | depth + 1, origin, visiting, schema, g => do
    let own ← declareOwn model origin schema g
    flattenKeywords (fun member g => match member.value with
      | .map reference => match Spec.schemaTarget? reference with
        | some component =>
          if visiting.contains component then
            .error (.build (.str model) (.circularComposition component))
          else
            let g := if origin = model then g.note component else g
            if g.flattened.contains component then .ok g
            else do
              let target ← spec.deref reference
              flatten spec model depth component (visiting ++ [component]) target
                { g with flattened := g.flattened ++ [component] }
        | none => do
          let target ← spec.deref reference
          flatten spec model depth
            (origin ++ "." ++ member.keyword ++ "[" ++ toString member.index ++ "]") visiting
            target g
      | _ => .error (.build (.str model) (.memberNotSchema member.keyword member.index)))
      schema Schema.compositionKeywords own

/-- The depth to which compositions are followed. Each step goes down in one schema or on to
another, so a longer way visits some schema three times; the second visit already meets every
property declared on the way between. -/
def depthBound (spec : Spec) (schema : Members) : Nat :=
  2 * (spec.document.nodeCount + (Value.map schema).nodeCount) + 2

/-- A property with its imports. -/
def buildProperty (g : Generator) (spec : Spec) (model : String) (required : List Value)
    (declared : Declared) : Attempt (Property × List String) := do
  let type ← Schema.reframe (.str model) (.propertyType declared.name)
    (Schema.resolve g (some spec) declared.schema)
  let schema ← declared.schema.entries
  let isReference := Members.has schema "$ref"
  let target ← spec.deref schema
  let wireName ← require declared.name.asStr?
  let name := g.target.fieldName wireName
  let default ← require (g.target.defaultLiteral? schema type)
  let values ← elementsUnder target "enum"
  let description := fun (members : Members) => Members.getD members "description" (.str "")
  return ({
    wireName
    name
    getter := g.target.getter name type
    setter := g.target.setter name
    type := type.name
    baseType := type.base
    default
    required := required.any (·.keyEq declared.name)
    description := (description schema).orElse ((description target).orElse (.str ""))
    nullable := (Members.getD schema "nullable" (.bool false)).isTruthy
    readOnly := (Members.getD schema "readOnly" (.bool false)).isTruthy
    isEnum := (nonEmpty? target "enum").isSome && !isReference
    allowedValues := values
    isContainer := type.isContainer
    isPrimitive := type.isPrimitive
    isWideInteger := type.isWideInteger }, type.imports)

/-- Builds declared properties in order; two of them may not share a field. -/
def buildProperties (g : Generator) (spec : Spec) (model : String) (required : List Value) :
    List Declared → List (Property × List String) → Attempt (List (Property × List String))
  | [], built => .ok built
  | declared :: rest, built => do
    let (property, imports) ← buildProperty g spec model required declared
    match built.find? fun b => b.1.name = property.name with
    | some first =>
      .error (.build (.str model)
        (.sharedField first.1.wireName property.wireName property.name))
    | none => buildProperties g spec model required rest (built ++ [(property, imports)])

/-- The enumeration of a schema with allowed values. -/
def buildEnum (g : Generator) (spec : Spec) (name : String) (schema : Members) :
    Attempt Model := do
  let type ← Schema.reframe (.str name) .enumType
    (Schema.resolve g (some spec) (.map (Members.erase schema "enum")))
  let values ← (Members.getD schema "enum" .null).elements
  let enumLiterals ← require (values.mapM fun value => g.target.literal? value type)
  return {
    name
    className := g.target.modelName name
    description := Members.getD schema "description" (.str "")
    imports := Target.sortedSet (type.imports ++ g.target.markerImports)
    isEnum := true
    allowedValues := values
    enumType := type.name
    enumLiterals }

/-- The component that the first member of a composition by inheritance refers to. -/
def parentOf (schema : Members) : Option String :=
  match Members.get? schema "allOf" with
  | some (.list (.map first :: _)) => Spec.schemaTarget? first
  | _ => none

/-- The record of a schema. -/
def buildRecord (g : Generator) (spec : Spec) (name : String) (schema : Members) :
    Attempt Model := do
  let className := g.target.modelName name
  let gathered ← flatten spec name (depthBound spec schema) name [name] schema {}
  let built ← buildProperties g spec name gathered.required gathered.properties []
  return {
    name
    className
    description := Members.getD schema "description" (.str "")
    properties := built.map Prod.fst
    imports := Target.sortedSet
      ((built.flatMap Prod.snd ++ g.target.markerImports).filter (· ≠ className))
    composedOf := gathered.composedOf
    parent := parentOf schema
    references := Target.sortedSet
      ((Schema.componentReferences (.map schema)).filter (· ≠ name)) }

/-- The model of a component schema. -/
def ofSchema (g : Generator) (spec : Spec) (name schema : Value) : Attempt Model :=
  match schema with
  | .map members =>
    match name with
    | .str name =>
      if Members.has members "enum" && !Members.has members "properties" then
        buildEnum g spec name members
      else buildRecord g spec name members
    | _ => .error .unsuitable
  | _ => .error (.build name .schemaNotMapping)

end Model

end ApiScaffold
