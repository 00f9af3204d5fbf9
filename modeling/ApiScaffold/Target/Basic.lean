import ApiScaffold.Document.Value

/-!
# Targets

A target of generation as plain data: its types and literals, its reserved words and name styles,
the layout of its files and the options it knows. Everything that differs between targets is in a
value of `Target`, and all code is written once for any of them; `Target.Names` has what a target
makes of names and values.

A `TargetType` is a type of the target language with what a member of that type needs: the name of
the class inside containers, a default, imports, and the item of a list or map.
-/

namespace ApiScaffold

/-- A type of the target language, with what a member of that type needs. A list or a map has an
`item`; any other type has none. -/
structure TargetType where
  /-- The type as it is written. -/
  name : String
  /-- The type of the innermost items; the type itself if it is no list and no map. -/
  base : String
  /-- The literal of an absent value. -/
  default : String
  /-- The names that a file has to import to use the type. -/
  imports : List String
  isPrimitive : Bool
  isContainer : Bool
  isWideInteger : Bool
  item : Option TargetType

/-- How a schema of a certain type and format is written in the target language. -/
structure TypeMapping where
  name : String
  default : String
  imports : List String := []
  isPrimitive : Bool := true
  isWideInteger : Bool := false

/-- The type that a mapping stands for. -/
def TypeMapping.toType (m : TypeMapping) : TargetType where
  name := m.name
  base := m.name
  default := m.default
  imports := m.imports
  isPrimitive := m.isPrimitive
  isContainer := false
  isWideInteger := m.isWideInteger
  item := none

/-- Text put around another text. -/
structure Affixes where
  before : String
  after : String

def Affixes.around (a : Affixes) (s : String) : String := a.before ++ s ++ a.after

/-- How the words of a name are joined. -/
inductive CaseStyle where
  | camel
  | snake

/-- Accessors with a verb in their name, or the field itself. -/
inductive AccessorStyle where
  | bean
  | attribute
deriving DecidableEq

/-- A setting that paths are made of. -/
inductive PathSetting where
  | sourceFolder
  | apiPath
  | modelPath
  | invokerPath
  | packagePath
  | artifactId

/-- A piece of a folder: fixed text or a setting. -/
inductive FolderPiece where
  | text (s : String)
  | setting (s : PathSetting)

/-- The name of a file made from a class name: the name itself or its snake form, and an
extension. -/
structure FileNaming where
  style : CaseStyle
  extension : String

/-- What switches a supporting file on. -/
inductive FileRole where
  | always
  | buildDescriptor
  | entryPoint
deriving DecidableEq

/-- A file rendered once in a run. -/
structure SupportingRule where
  template : String
  folder : List FolderPiece
  destination : String
  role : FileRole := .always

/-- The artifact's suffixes for a server and for a client. -/
structure ArtifactSuffixes where
  server : String
  client : String

/-- A target of generation. -/
structure Target where
  id : String
  /-- The name under which a generator for the target introduces itself. -/
  kind : String
  description : String
  /-- The template directories, in the order in which they are searched. -/
  templateFolders : List String
  modelTemplate : String
  apiTemplate : String
  modelFolder : List FolderPiece
  apiFolder : List FolderPiece
  fileNaming : FileNaming
  /-- Types by type and format of the schema; no format stands for any other format too. -/
  typeMap : List ((String × Option String) × TypeMapping)
  genericObject : TypeMapping
  nullLiteral : String
  trueLiteral : String
  falseLiteral : String
  wideIntegerSuffix : String
  voidType : String
  listShape : Affixes
  listImports : List String
  listDefault : String
  mapShape : Affixes
  mapImports : List String
  mapDefault : String
  reservedWords : List String
  /-- The text put around a reserved word. -/
  reservedAffixes : Affixes
  /-- The import target of each library type; none for a type that needs no import. -/
  importTargets : List (String × Option String)
  /-- The names that every model imports. -/
  markerImports : List String
  fieldStyle : CaseStyle
  operationStyle : CaseStyle
  accessors : AccessorStyle
  /-- The types whose getters ask a question. -/
  booleanTypes : List String
  /-- Defaults that replace or extend those common to all targets. -/
  optionDefaults : List (String × Value)
  supportingRules : List SupportingRule
  artifactSuffixes : Option ArtifactSuffixes
  /-- Whether a document without servers gets one at the root. -/
  needsServer : Bool

namespace Target

/-- The target without a language: no types, no reserved words, no templates. -/
def bare : Target where
  id := ""
  kind := "GeneratorConfig"
  description := ""
  templateFolders := []
  modelTemplate := "model.j2"
  apiTemplate := "api.j2"
  modelFolder := []
  apiFolder := []
  fileNaming := { style := .camel, extension := "" }
  typeMap := []
  genericObject := { name := "object", default := "null", isPrimitive := false }
  nullLiteral := "null"
  trueLiteral := "true"
  falseLiteral := "false"
  wideIntegerSuffix := ""
  voidType := "void"
  listShape := ⟨"list[", "]"⟩
  listImports := []
  listDefault := "null"
  mapShape := ⟨"dict[str, ", "]"⟩
  mapImports := []
  mapDefault := "null"
  reservedWords := []
  reservedAffixes := ⟨"_", ""⟩
  importTargets := []
  markerImports := []
  fieldStyle := .camel
  operationStyle := .camel
  accessors := .bean
  booleanTypes := []
  optionDefaults := []
  supportingRules := []
  artifactSuffixes := none
  needsServer := false

end Target

end ApiScaffold
