import ApiScaffold.Document.Value

/-!
# Operations

The methods that a run generates for the paths of a document, with their parameters and responses.
Texts of the document are kept as they are; names and types are those of the target language.

Where a parameter travels is one of a fixed list of locations, whose order is that of a signature.
-/

namespace ApiScaffold

/-- Where a parameter travels. -/
inductive Location where
  | header
  | query
  | path
  | cookie
  | body
deriving DecidableEq

namespace Location

/-- The locations in the order of a signature. -/
def all : List Location := [header, query, path, cookie, body]

def name : Location → String
  | header => "header"
  | query => "query"
  | path => "path"
  | cookie => "cookie"
  | body => "body"

/-- The place in that order. -/
def rank (l : Location) : Nat := all.idxOf l

/-- The location of a name. -/
def ofName? (s : String) : Option Location := all.find? fun l => l.name = s

end Location

structure Parameter where
  /-- The name in the document. -/
  wireName : String
  /-- The name of the argument. -/
  name : String
  location : Location
  required : Bool
  type : String
  description : Value
  default : String
  imports : List String

structure Response where
  code : String
  description : Value
  /-- The type of the content, if there is any. -/
  type : Option String
  isDefault : Bool

/-- A method for one path. Texts of the document are kept as they are. -/
structure Operation where
  httpMethod : String
  path : Value
  operationId : String
  nickname : String
  /-- What the operation is grouped by. -/
  group : Value
  parameters : List Parameter
  responses : List Response
  returnType : String
  summary : Value
  notes : Value
  tags : List Value
  imports : List String
  deprecated : Bool

namespace Operation

def parametersIn (op : Operation) (location : Location) : List Parameter :=
  op.parameters.filter fun p => p.location = location

def bodyParameter? (op : Operation) : Option Parameter :=
  op.parameters.find? fun p => p.location = .body

end Operation

/-- Operations that share a class. -/
structure OperationGroup where
  name : String
  className : String
  operations : List Operation
  imports : List String

end ApiScaffold
