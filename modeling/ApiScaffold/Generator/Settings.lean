import ApiScaffold.Generator.Options
import ApiScaffold.Target.Names

/-!
# Settings

The settings of a run, derived from the options of a target, and what follows from them: artifact,
folders, supporting files and the destinations of classes.

`Settings.ofOptions` reads every option once and in a fixed order, so the first that is refused is
the one that is reported. Everything after it only reads the settings, and nothing of a document:
where files go does not depend on what the document says, but for the names of classes.
-/

namespace ApiScaffold

/-- The finished configuration of a run. -/
structure Settings where
  generatorId : String
  baseName : String
  artifactId : String
  artifactVersion : String
  groupId : String
  interfaceOnly : Bool
  includeBuildDescriptor : Bool
  sourceFolder : String
  apiPackage : String
  modelPackage : String
  invokerPackage : String
  packageName : String
  permissiveTypes : Bool
  generateModels : Bool
  generateApis : Bool
  generateSupportingFiles : Bool
  workers : Int
  /-- The options that no field stands for. -/
  extra : Options

/-- A file in a folder; an empty folder is the root. -/
def inFolder (folder file : String) : String :=
  if folder = "" then file else folder ++ "/" ++ file

/-- A file rendered once in a run, with its folder filled in. -/
structure SupportingFile where
  template : String
  folder : String
  destination : String
deriving DecidableEq

namespace SupportingFile

def path (file : SupportingFile) : String := inFolder file.folder file.destination

end SupportingFile

namespace PathSetting

/-- The name of a path setting in messages and templates. -/
def name : PathSetting → String
  | sourceFolder => "source_folder"
  | apiPath => "api_path"
  | modelPath => "model_path"
  | invokerPath => "invoker_path"
  | packagePath => "package_path"
  | artifactId => "artifact_id"

def all : List PathSetting :=
  [sourceFolder, apiPath, modelPath, invokerPath, packagePath, artifactId]

end PathSetting

namespace Settings

/-- The value of a path setting. -/
def pathSetting (s : Settings) : PathSetting → String
  | .sourceFolder => s.sourceFolder
  | .apiPath => Naming.packagePath s.apiPackage
  | .modelPath => Naming.packagePath s.modelPackage
  | .invokerPath => Naming.packagePath s.invokerPackage
  | .packagePath => Naming.packagePath s.packageName
  | .artifactId => s.artifactId

/-- A folder with its settings filled in, without slashes at its ends. -/
def folder (s : Settings) (pieces : List FolderPiece) : String :=
  Text.trimSlashes (String.join (pieces.map fun piece => match piece with
    | .text t => t
    | .setting v => s.pathSetting v))

/-- The artifact of a base name: with the suffix of the side that is generated, if the target has
suffixes. -/
def artifactOf (t : Target) (baseName : String) (interfaceOnly : Bool) : String :=
  match t.artifactSuffixes with
  | none => baseName
  | some suffixes => baseName ++ (if interfaceOnly then suffixes.client else suffixes.server)

/-- Reads an artifact: that of the base name where the value counts as false. -/
def readArtifact (t : Target) (value : Value) (baseName : String) (interfaceOnly : Bool) :
    Attempt String :=
  if value.isTruthy then Options.text value else .ok (artifactOf t baseName interfaceOnly)

/-- The settings that merged options describe. -/
def ofOptions (t : Target) (merged : Options) : Attempt Settings := do
  let value := fun key => (merged.get? key).getD .null
  let text := fun key => Options.text (value key)
  let flag := fun key => Options.flag key (value key)
  let interfaceOnly ← flag "interfaceOnly"
  let baseName ← text "baseName"
  let artifactId ← readArtifact t (value "artifactId") baseName interfaceOnly
  let artifactVersion ← text "artifactVersion"
  let groupId ← text "groupId"
  let includeBuildDescriptor ← flag "includeBuildDescriptor"
  let sourceFolder ← text "sourceFolder"
  let apiPackage ← text "apiPackage"
  let modelPackage ← text "modelPackage"
  let invokerPackage ← text "invokerPackage"
  let packageName ← text "packageName"
  let permissiveTypes ← flag "permissiveTypes"
  let generateModels ← flag "generateModels"
  let generateApis ← flag "generateApis"
  let generateSupportingFiles ← flag "generateSupportingFiles"
  let workers ← Options.count "workers" (value "workers") 1
  return {
    generatorId := t.id
    baseName
    artifactId
    artifactVersion
    groupId
    interfaceOnly
    includeBuildDescriptor
    sourceFolder := Text.trimSlashes sourceFolder
    apiPackage
    modelPackage
    invokerPackage
    packageName
    permissiveTypes
    generateModels
    generateApis
    generateSupportingFiles
    workers
    extra := merged.filter fun option => !Options.known.contains option.1 }

/-- Whether a supporting file of a role is part of a run. -/
def includes (s : Settings) : FileRole → Bool
  | .always => true
  | .buildDescriptor => s.includeBuildDescriptor
  | .entryPoint => !s.interfaceOnly

/-- The supporting files of a run. -/
def supportingFiles (s : Settings) (t : Target) : List SupportingFile :=
  (t.supportingRules.filter fun rule => s.includes rule.role).map fun rule =>
    { template := rule.template, folder := s.folder rule.folder
      destination := rule.destination }

/-- The destination of a model's class. -/
def modelDestination (s : Settings) (t : Target) (cls : String) : String :=
  inFolder (s.folder t.modelFolder) (t.fileName cls)

/-- The destination of the class of a group of operations. -/
def apiDestination (s : Settings) (t : Target) (cls : String) : String :=
  inFolder (s.folder t.apiFolder) (t.fileName cls)

/-- Whether the combination of a build descriptor and the generated side is untried; targets
without both kinds of file have no such combination. -/
def isUnverified (s : Settings) (t : Target) : Bool :=
  (t.supportingRules.any fun rule => rule.role = .buildDescriptor)
    && (t.supportingRules.any fun rule => rule.role = .entryPoint)
    && s.includeBuildDescriptor == s.interfaceOnly

end Settings

end ApiScaffold
