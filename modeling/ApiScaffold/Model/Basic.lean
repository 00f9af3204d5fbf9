import ApiScaffold.Document.Value

/-!
# Models

The classes that a run generates for component schemas: an enumeration, or a record of properties.

A model keeps two kinds of names of other schemas apart. `imports` are the classes that its file
mentions by name; `references` are the components that its schema refers to anywhere, each once,
which is what a run compares with the components that have failed. Descriptions and allowed values
are the document's own.
-/

namespace ApiScaffold

/-- A field of a model. Descriptions and allowed values are the document's own. -/
structure Property where
  /-- The name in the document. -/
  wireName : String
  /-- The name of the field. -/
  name : String
  getter : String
  setter : String
  type : String
  baseType : String
  default : String
  required : Bool
  description : Value
  nullable : Bool
  readOnly : Bool
  isEnum : Bool
  allowedValues : List Value
  isContainer : Bool
  isPrimitive : Bool
  isWideInteger : Bool

/-- A class for a component schema: an enumeration, or a record of properties. -/
structure Model where
  name : String
  className : String
  description : Value
  properties : List Property := []
  imports : List String
  /-- The components that the schema is composed of. -/
  composedOf : List String := []
  parent : Option String := none
  /-- The components that the schema refers to anywhere, each once. -/
  references : List String := []
  isEnum : Bool := false
  allowedValues : List Value := []
  enumType : String := ""
  enumLiterals : List String := []

namespace Model

def requiredProperties (m : Model) : List Property := m.properties.filter (·.required)

def optionalProperties (m : Model) : List Property := m.properties.filter fun p => !p.required

end Model

end ApiScaffold
