import ApiScaffold.Target.Basic
import ApiScaffold.Document.Display
import ApiScaffold.Naming
import ApiScaffold.Text.Kind
import ApiScaffold.Text.Literal

/-!
# Names and literals of a target

What a target makes of the names and values of a document: classes, fields, accessors, operations,
default values, literals and imports.

Each of the three hooks for names sanitizes, puts the words in the style of the target and escapes
what is reserved: a class by a word in front, a field by affixes, an operation by a verb. An
accessor is made from the name of the field and not from that of the property; whether it has the
verb of truth values is up to the type.
-/

namespace ApiScaffold.Target

/-- A name in a case style. -/
def styled (style : CaseStyle) (name : String) : String :=
  match style with
  | .camel => Naming.camelCase name
  | .snake => Naming.snakeCase name

/-- A text, or another where it is empty. -/
def orDefault (name fallback : String) : String := if name = "" then fallback else name

/-- The class of a model. A reserved word and a leading digit get a word in front. -/
def modelName (t : Target) (name : String) : String :=
  let cls := orDefault (Naming.pascalCase (Naming.sanitize name)) "Model"
  if Naming.isReserved t.reservedWords cls || Naming.startsWithDigit cls then "Model" ++ cls
  else cls

/-- The field of a property or parameter. -/
def fieldName (t : Target) (name : String) : String :=
  Naming.escapeReserved (orDefault (styled t.fieldStyle (Naming.sanitize name)) "value")
    t.reservedWords t.reservedAffixes.before t.reservedAffixes.after

/-- A field's name in an accessor: without underscores in front, with a capital. -/
def accessorStem (field : String) : String :=
  Naming.pascalCase (String.ofList (field.toList.dropWhile (· == '_')))

/-- The method that reads a field of a certain type. -/
def getter (t : Target) (field : String) (type : TargetType) : String :=
  match t.accessors with
  | .attribute => field
  | .bean => (if t.booleanTypes.contains type.base then "is" else "get") ++ accessorStem field

/-- The method that writes a field. -/
def setter (t : Target) (field : String) : String :=
  match t.accessors with
  | .attribute => field
  | .bean => "set" ++ accessorStem field

/-- The method of an operation. A reserved word gets a verb in front. -/
def operationName (t : Target) (operationId : String) : String :=
  let name := orDefault (styled t.operationStyle (Naming.sanitize operationId)) "operation"
  let name :=
    if Naming.isReserved t.reservedWords name then styled t.operationStyle ("call_" ++ name)
    else name
  Naming.escapeReserved name [] t.reservedAffixes.before t.reservedAffixes.after

/-- The class of a group of operations. -/
def apiName (group : String) : String :=
  orDefault (Naming.pascalCase (Naming.sanitize group)) "Default" ++ "Api"

/-- A scalar as a literal of a type. -/
def literal (t : Target) (value : Value) (type : TargetType) : String :=
  match value with
  | .null => t.nullLiteral
  | .bool b => if b then t.trueLiteral else t.falseLiteral
  | .int n => if type.isWideInteger then toString n ++ t.wideIntegerSuffix else toString n
  | .float x => x.text
  | other => Text.literal other.display

/-- The literal of a value whose integers can be written. -/
def literal? (t : Target) (value : Value) (type : TargetType) : Option String :=
  if value.isWritable then some (t.literal value type) else none

/-- The default of a schema as a literal, where its type has literals. -/
def defaultLiteral? (t : Target) (schema : Members) (type : TargetType) : Option String :=
  match Members.get? schema "default" with
  | none | some .null => some type.default
  | some value =>
    if type.isContainer || (!type.isPrimitive && !type.isWideInteger) then some type.default
    else t.literal? value type

/-- The type of a reference to a model. -/
def modelType (t : Target) (name : String) : TargetType where
  name := t.modelName name
  base := t.modelName name
  default := t.nullLiteral
  imports := [t.modelName name]
  isPrimitive := false
  isContainer := false
  isWideInteger := false
  item := none

/-- The first occurrences of the items of a list, in order. -/
def distinct (names : List String) : List String :=
  names.foldl (fun seen name => if seen.contains name then seen else seen ++ [name]) []

/-- The type of a list of items. -/
def listType (t : Target) (item : TargetType) : TargetType where
  name := t.listShape.around item.name
  base := item.base
  default := t.listDefault
  imports := distinct (t.listImports ++ item.imports)
  isPrimitive := false
  isContainer := true
  isWideInteger := false
  item := some item

/-- The type of a map from text to items. -/
def mapType (t : Target) (item : TargetType) : TargetType where
  name := t.mapShape.around item.name
  base := item.base
  default := t.mapDefault
  imports := distinct (t.mapImports ++ item.imports)
  isPrimitive := false
  isContainer := true
  isWideInteger := false
  item := some item

/-- Texts in order, each once. -/
def sortedSet (names : List String) : List String :=
  (distinct names).mergeSort fun a b => !(b < a)

/-- The imports of a file, apart by kind. -/
structure ImportSplit where
  /-- The import targets of library types. -/
  library : List String
  /-- The classes of models. -/
  models : List String

/-- Tells library types from models, each in order. -/
def splitImports (t : Target) (names : List String) : ImportSplit where
  library := sortedSet (names.filterMap fun name =>
    match t.importTargets.lookup name with
    | some (some importTarget) => if importTarget = "" then none else some importTarget
    | _ => none)
  models := sortedSet (names.filter fun name => (t.importTargets.lookup name).isNone)

/-- The file of a class. -/
def fileName (t : Target) (cls : String) : String :=
  (match t.fileNaming.style with
    | .camel => cls
    | .snake => Naming.snakeCase cls) ++ t.fileNaming.extension

end ApiScaffold.Target
