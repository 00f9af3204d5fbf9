import ApiScaffold.Target.Basic

/-!
# The targets in Java

A server by the plain JAX-RS interface and a Spring Boot server. They share type map, reserved
words, literals and the model template (`base`), and differ in their supporting files and in the
template of a group.
-/

namespace ApiScaffold.Target

namespace Java

def typeMap : List ((String × Option String) × TypeMapping) := [
  (("integer", none), { name := "Integer", default := "null" }),
  (("integer", some "int32"), { name := "Integer", default := "null" }),
  (("integer", some "int64"),
    { name := "Long", default := "null", imports := ["Long"], isPrimitive := false
      isWideInteger := true }),
  (("number", none),
    { name := "BigDecimal", default := "null", imports := ["BigDecimal"], isPrimitive := false }),
  (("number", some "float"), { name := "Float", default := "null" }),
  (("number", some "double"), { name := "Double", default := "null" }),
  (("boolean", none), { name := "Boolean", default := "null" }),
  (("string", none), { name := "String", default := "null" }),
  (("string", some "date"),
    { name := "LocalDate", default := "null", imports := ["LocalDate"], isPrimitive := false }),
  (("string", some "date-time"),
    { name := "OffsetDateTime", default := "null", imports := ["OffsetDateTime"]
      isPrimitive := false }),
  (("string", some "uuid"),
    { name := "UUID", default := "null", imports := ["UUID"], isPrimitive := false }),
  (("string", some "byte"), { name := "byte[]", default := "null", isPrimitive := false }),
  (("string", some "binary"),
    { name := "File", default := "null", imports := ["File"], isPrimitive := false })]

/-- The import targets; what the language itself provides needs none. -/
def importTargets : List (String × Option String) := [
  ("Long", none),
  ("Object", none),
  ("String", none),
  ("BigDecimal", some "java.math.BigDecimal"),
  ("LocalDate", some "java.time.LocalDate"),
  ("OffsetDateTime", some "java.time.OffsetDateTime"),
  ("UUID", some "java.util.UUID"),
  ("File", some "java.io.File"),
  ("List", some "java.util.List"),
  ("Map", some "java.util.Map"),
  ("Schema", some "io.swagger.v3.oas.annotations.media.Schema"),
  ("JsonProperty", some "com.fasterxml.jackson.annotation.JsonProperty")]

/-- The keywords, and the names that the generated code uses itself. -/
def reservedWords : List String := [
  "abstract", "assert", "boolean", "break", "byte", "case", "catch", "char", "class",
  "const", "continue", "default", "do", "double", "else", "enum", "extends", "final",
  "finally", "float", "for", "goto", "if", "implements", "import", "instanceof", "int",
  "interface", "long", "native", "new", "null", "package", "private", "protected",
  "public", "return", "short", "static", "strictfp", "super", "switch", "synchronized",
  "this", "throw", "throws", "transient", "try", "void", "volatile", "while",
  "localVarPath", "object", "list", "file"]

/-- What the two targets have in common. -/
def base : Target :=
  { bare with
    modelTemplate := "model.java.j2"
    apiTemplate := "api.java.j2"
    modelFolder := [.setting .sourceFolder, .text "/", .setting .modelPath]
    apiFolder := [.setting .sourceFolder, .text "/", .setting .apiPath]
    fileNaming := { style := .camel, extension := ".java" }
    typeMap
    genericObject := { name := "Object", default := "null", isPrimitive := false }
    listShape := ⟨"List<", ">"⟩
    listImports := ["List"]
    mapShape := ⟨"Map<String, ", ">"⟩
    mapImports := ["Map"]
    wideIntegerSuffix := "L"
    reservedWords
    importTargets
    booleanTypes := ["Boolean"]
    artifactSuffixes := some { server := "-server", client := "-client" } }

end Java

/-- Server stubs by the plain JAX-RS interface, or annotated interfaces for clients. -/
def jaxrsSpec : Target :=
  { Java.base with
    id := "jaxrs-spec"
    kind := "JaxrsSpecGenerator"
    description := "Java JAX-RS server (or client interfaces with interfaceOnly)"
    templateFolders := ["jaxrs-spec", "java"]
    markerImports := ["Schema"]
    optionDefaults := [
      ("baseName", .str "openapi-jaxrs"),
      ("sourceFolder", .str "src/gen/java"),
      ("apiPackage", .str "io.openapi.api"),
      ("modelPackage", .str "io.openapi.model"),
      ("invokerPackage", .str "io.openapi.api"),
      ("groupId", .str "io.openapi")]
    supportingRules := [
      { template := "pom.xml.j2", folder := [], destination := "pom.xml"
        role := .buildDescriptor },
      { template := "RestApplication.java.j2"
        folder := [.setting .sourceFolder, .text "/", .setting .invokerPath]
        destination := "RestApplication.java", role := .entryPoint },
      { template := "README.md.j2", folder := [], destination := "README.md" }]
    needsServer := true }

/-- Server interfaces for Spring Boot. -/
def spring : Target :=
  { Java.base with
    id := "spring"
    kind := "SpringGenerator"
    description := "Java Spring Boot server"
    templateFolders := ["spring", "java"]
    voidType := "Void"
    markerImports := ["JsonProperty", "Schema"]
    optionDefaults := [
      ("baseName", .str "openapi-spring"),
      ("sourceFolder", .str "src/main/java"),
      ("apiPackage", .str "io.openapi.api"),
      ("modelPackage", .str "io.openapi.model"),
      ("invokerPackage", .str "io.openapi"),
      ("groupId", .str "io.openapi")]
    supportingRules := [
      { template := "pom.xml.j2", folder := [], destination := "pom.xml"
        role := .buildDescriptor },
      { template := "Application.java.j2"
        folder := [.setting .sourceFolder, .text "/", .setting .invokerPath]
        destination := "OpenApiApplication.java", role := .entryPoint },
      { template := "application.properties.j2", folder := [.text "src/main/resources"]
        destination := "application.properties", role := .entryPoint },
      { template := "README.md.j2", folder := [], destination := "README.md" }] }

end ApiScaffold.Target
