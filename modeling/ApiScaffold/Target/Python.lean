import ApiScaffold.Target.Basic

/-!
# The target in Python

Data classes for the models and a client for each group of operations. Names are in snake case,
accessors are the fields themselves, and literals are those of the language but for texts, which are
written as for every target.
-/

namespace ApiScaffold.Target

namespace Python

def typeMap : List ((String × Option String) × TypeMapping) := [
  (("integer", none), { name := "int", default := "None" }),
  (("integer", some "int32"), { name := "int", default := "None" }),
  (("integer", some "int64"), { name := "int", default := "None", isWideInteger := true }),
  (("number", none), { name := "float", default := "None" }),
  (("boolean", none), { name := "bool", default := "None" }),
  (("string", none), { name := "str", default := "None" }),
  (("string", some "date"),
    { name := "date", default := "None", imports := ["date"], isPrimitive := false }),
  (("string", some "date-time"),
    { name := "datetime", default := "None", imports := ["datetime"], isPrimitive := false }),
  (("string", some "uuid"),
    { name := "UUID", default := "None", imports := ["UUID"], isPrimitive := false }),
  (("string", some "byte"), { name := "bytes", default := "None", isPrimitive := false }),
  (("string", some "binary"), { name := "bytes", default := "None", isPrimitive := false })]

/-- The keywords, and the names that the generated code uses itself. -/
def reservedWords : List String := [
  "False", "None", "True", "and", "as", "assert", "async", "await", "break", "class",
  "continue", "def", "del", "elif", "else", "except", "finally", "for", "from", "global",
  "if", "import", "in", "is", "lambda", "nonlocal", "not", "or", "pass", "raise", "return",
  "try", "while", "with", "yield", "self", "client", "date", "datetime"]

end Python

def python : Target :=
  { bare with
    id := "python"
    kind := "PythonClientGenerator"
    description := "Python client (dataclasses + httpx)"
    templateFolders := ["python"]
    modelTemplate := "model.py.j2"
    apiTemplate := "api.py.j2"
    modelFolder := [.setting .packagePath, .text "/models"]
    apiFolder := [.setting .packagePath, .text "/api"]
    fileNaming := { style := .snake, extension := ".py" }
    typeMap := Python.typeMap
    genericObject := { name := "Any", default := "None", imports := ["Any"], isPrimitive := false }
    nullLiteral := "None"
    trueLiteral := "True"
    falseLiteral := "False"
    voidType := "None"
    listDefault := "None"
    mapDefault := "None"
    reservedWords := Python.reservedWords
    reservedAffixes := ⟨"", "_"⟩
    importTargets := [
      ("Any", some "typing.Any"),
      ("date", some "datetime.date"),
      ("datetime", some "datetime.datetime"),
      ("UUID", some "uuid.UUID"),
      ("dataclass", some "dataclasses.dataclass")]
    markerImports := ["dataclass"]
    fieldStyle := .snake
    operationStyle := .snake
    accessors := .attribute
    optionDefaults := [
      ("baseName", .str "openapi-client"),
      ("packageName", .str "openapi_client")]
    supportingRules := [
      { template := "pyproject.toml.j2", folder := [], destination := "pyproject.toml"
        role := .buildDescriptor },
      { template := "package_init.py.j2", folder := [.setting .packagePath]
        destination := "__init__.py" },
      { template := "serialization.py.j2", folder := [.setting .packagePath]
        destination := "serialization.py" },
      { template := "models_init.py.j2", folder := [.setting .packagePath, .text "/models"]
        destination := "__init__.py" },
      { template := "api_init.py.j2", folder := [.setting .packagePath, .text "/api"]
        destination := "__init__.py" },
      { template := "api_client.py.j2", folder := [.setting .packagePath]
        destination := "api_client.py", role := .entryPoint },
      { template := "README.md.j2", folder := [], destination := "README.md" }] }

end ApiScaffold.Target
