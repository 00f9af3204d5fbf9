import ApiScaffold.Template.Builtin.Parts

/-!
# The templates that targets in Java share

The model class and the account of the project. A model is an enumeration with a value for every
constant, or a class with a field and its accessors for every property, and with equality, hash and
text over all of them.
-/

namespace ApiScaffold.Template.Builtin.Java

/-- The account of the generated project. -/
def readme : Template := sections [
  [ "# ", name "app_name", "\n",
    "\n",
    name "app_description", "\n",
    "\n",
    "Generated by oasgen (", name "generator_id", ") from API version ", name "app_version",
    ".\n",
    "\n",
    "- Artifact: `", settings "group_id", ":", settings "artifact_id", ":",
    settings "artifact_version", "`\n",
    "- API package: `", settings "api_package", "`\n",
    "- Model package: `", settings "model_package", "`\n",
    "\n"],
  operationsTable,
  lines ["", "## Models", ""],
  [forEach "model" (name "models") ["- `", model "classname", "`\n"]]]

/-- The constants of an enumeration, each with its literal. -/
def constants : Template := [
  "public enum ", model "classname", " \x7b\n",
  whenNot (model "allowable_values") ["  ;\n"],
  forEach "value" (model "allowable_values") [
    "  ", constant (name "value"), "(", Expr.item (model "enum_literals") (turn "index0"), ")",
    oneOf (turn "last") ";" ",", "\n"],
  "\n"]

/-- The value of a constant. -/
def constantValue : Template := [
  "  private final ", model "enum_datatype", " value;\n",
  "\n",
  "  ", model "classname", "(", model "enum_datatype", " value) \x7b\n",
  "    this.value = value;\n",
  "  \x7d\n",
  "\n",
  "  public ", model "enum_datatype", " getValue() \x7b\n",
  "    return value;\n",
  "  \x7d\n",
  "\n"]

/-- The constant of a value, and the text of a constant. -/
def constantLookup : Template := sections [
  [ "  public static ", model "classname", " fromValue(", model "enum_datatype", " value) \x7b\n",
    "    for (", model "classname", " candidate : ", model "classname", ".values()) \x7b\n"],
  lines [
    "      if (Objects.equals(candidate.value, value)) \x7b",
    "        return candidate;",
    "      \x7d",
    "    \x7d",
    "    throw new IllegalArgumentException(\"Unexpected value '\" + value + \"'\");",
    "  \x7d",
    "",
    "  @Override",
    "  public String toString() \x7b",
    "    return String.valueOf(value);",
    "  \x7d",
    "\x7d"]]

/-- A field of a class. -/
def field : Template := [
  "\n",
  whenever (name "with_json") ["  @JsonProperty(", json (prop "base_name"), ")\n"],
  "  private ", prop "datatype", " ", prop "name", " = ", prop "default_value", ";\n"]

/-- The account of a field, above its getter. -/
def fieldAccount : Template := [
  "\n",
  "  /**\n",
  "   * ", orElse (prop "description") (prop "base_name"), "\n",
  whenever (prop "allowable_values") [
    "   * Allowed values: ", joined ", " (prop "allowable_values"), "\n"],
  "   * @return ", prop "name", "\n",
  "   */\n"]

/-- The getter of a field. -/
def fieldGetter : Template := [
  "  @Schema(", whenever (prop "required") ["required = true, "], "description = ",
  json (prop "description"), ")\n",
  "  public ", prop "datatype", " ", prop "getter", "() \x7b\n",
  "    return ", prop "name", ";\n",
  "  \x7d\n"]

/-- The setter of a field, and the setter for chains of calls. -/
def fieldSetters : Template := [
  "\n",
  "  public void ", prop "setter", "(", prop "datatype", " ", prop "name", ") \x7b\n",
  "    this.", prop "name", " = ", prop "name", ";\n",
  "  \x7d\n",
  "\n",
  "  public ", model "classname", " ", prop "name", "(", prop "datatype", " ", prop "name",
  ") \x7b\n",
  "    this.", prop "name", " = ", prop "name", ";\n",
  "    return this;\n",
  "  \x7d\n"]

/-- The fields of a class, with their accessors after all of them. -/
def fields : Template := [
  "public class ", model "classname", " \x7b\n",
  forEach "var" (model "vars") field,
  forEach "var" (model "vars") (fieldAccount ++ fieldGetter ++ fieldSetters)]

/-- The comparison of two objects field by field. -/
def equality : Template := [
  "\n",
  "  @Override\n",
  "  public boolean equals(Object o) \x7b\n",
  "    if (this == o) \x7b\n",
  "      return true;\n",
  "    \x7d\n",
  "    if (o == null || getClass() != o.getClass()) \x7b\n",
  "      return false;\n",
  "    \x7d\n",
  Node.branch (model "vars")
    [ "    ", model "classname", " other = (", model "classname", ") o;\n",
      "    return ", forEach "var" (model "vars") [
        "Objects.equals(this.", prop "name", ", other.", prop "name", ")",
        unlessLast " &&\n        "], ";\n"]
    ["    return true;\n"],
  "  \x7d\n"]

/-- The hash and the text of an object. -/
def hashAndText : Template := [
  "\n",
  "  @Override\n",
  "  public int hashCode() \x7b\n",
  "    return Objects.hash(", forEach "var" (model "vars") [prop "name", unlessLast ", "], ");\n",
  "  \x7d\n",
  "\n",
  "  @Override\n",
  "  public String toString() \x7b\n",
  "    StringBuilder sb = new StringBuilder();\n",
  "    sb.append(\"class ", model "classname", " \x7b\\n\");\n",
  forEach "var" (model "vars") [
    "    sb.append(\"    ", prop "name", ": \").append(", prop "name", ").append(\"\\n\");\n"],
  "    sb.append(\"\x7d\");\n",
  "    return sb.toString();\n",
  "  \x7d\n",
  "\x7d\n"]

/-- A model: an enumeration, or a class with fields and accessors. -/
def modelFile : Template := [
  "package ", settings "model_package", ";\n",
  "\n",
  "import java.util.Objects;\n",
  forEach "imp" (name "library_imports") ["import ", name "imp", ";\n"],
  Node.assign "with_json" (Expr.among (text "JsonProperty") (model "imports")),
  "\n",
  "/**\n",
  " * ", orElse (model "description") (model "classname"), "\n",
  " */\n",
  "@Schema(description = ", json (model "description"), ")\n",
  Node.branch (model "is_enum") (constants ++ constantValue ++ constantLookup)
    (fields ++ equality ++ hashAndText)]

end ApiScaffold.Template.Builtin.Java
