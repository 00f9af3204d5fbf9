import ApiScaffold.Template.Builtin.Parts

/-!
# The templates of the Spring Boot server

The annotated interface of a group of operations, the entry point and the settings of a server, and
the build descriptor.
-/

namespace ApiScaffold.Template.Builtin.Spring

/-- Whether a parameter is required, as an argument of its annotation. -/
def requiredFlag : Expr := oneOf (param "required") "true" "false"

/-- An annotation with the name of a parameter and whether it is required. -/
def namedMark (mark : String) : Template := [
  "@", text mark, "(value = ", json (param "base_name"), ", required = ", requiredFlag, ") "]

/-- The annotation that tells where a parameter travels. -/
def locationMark : Template := [
  whenever (travelsIn "header") (namedMark "RequestHeader"),
  whenever (travelsIn "query") (namedMark "RequestParam"),
  whenever (travelsIn "path") ["@PathVariable(", json (param "base_name"), ") "],
  whenever (travelsIn "cookie") (namedMark "CookieValue"),
  whenever (travelsIn "body") [
    "@RequestBody", oneOf (param "required") "" "(required = false)", " "]]

/-- A parameter of a method. -/
def parameter : Template := sections [
  ["@Parameter(description = ", json (param "description"), ") "],
  locationMark,
  [param "datatype", " ", param "name", unlessLast ", "]]

/-- The interface of a group of operations. -/
def apiFile : Template := [
  "package ", settings "api_package", ";\n",
  "\n",
  forEach "name" (name "model_imports") [
    "import ", settings "model_package", ".", name "name", ";\n"],
  forEach "imp" (name "library_imports") ["import ", name "imp", ";\n"],
  "\n",
  "import io.swagger.v3.oas.annotations.Operation;\n",
  "import io.swagger.v3.oas.annotations.Parameter;\n",
  "import org.springframework.http.HttpStatus;\n",
  "import org.springframework.http.ResponseEntity;\n",
  "import org.springframework.web.bind.annotation.*;\n",
  "\n",
  "@RequestMapping(\"", name "base_path", "\")\n",
  "public interface ", group "classname", " \x7b\n",
  forEach "op" (name "operations") [
    "\n",
    whenever (op "deprecated") ["    @Deprecated\n"],
    "    @Operation(summary = ", json (op "summary"), ", description = ", json (op "notes"), ")\n",
    "    @RequestMapping(value = \"", op "path", "\", method = RequestMethod.", op "http_method",
    ")\n",
    "    default ResponseEntity<", op "return_type", "> ", op "nickname", "(",
    forEach "param" (op "parameters") parameter, ") \x7b\n",
    "        return new ResponseEntity<>(HttpStatus.NOT_IMPLEMENTED);\n",
    "    \x7d\n"],
  "\x7d\n"]

/-- The entry point of a server. -/
def applicationFile : Template := [
  "package ", settings "invoker_package", ";\n",
  "\n",
  "import org.springframework.boot.SpringApplication;\n",
  "import org.springframework.boot.autoconfigure.SpringBootApplication;\n",
  "\n",
  "@SpringBootApplication(scanBasePackages = \x7b\"", settings "invoker_package", "\", \"",
  settings "api_package", "\"\x7d)\n",
  "public class OpenApiApplication \x7b\n",
  "\n",
  "    public static void main(String[] args) \x7b\n",
  "        SpringApplication.run(OpenApiApplication.class, args);\n",
  "    \x7d\n",
  "\x7d\n"]

/-- The settings of a server. -/
def propertiesFile : Template := [
  "spring.application.name=", settings "artifact_id", "\n",
  "server.port=8080\n",
  "springdoc.api-docs.path=/api-docs\n"]

/-- The opening of the build descriptor. -/
def projectOpening : Template := lines [
  "<?xml version=\"1.0\" encoding=\"UTF-8\"?>",
  "<project xmlns=\"http://maven.apache.org/POM/4.0.0\"",
  "         xmlns:xsi=\"http://www.w3.org/2001/XMLSchema-instance\"",
  "         xsi:schemaLocation=\"http://maven.apache.org/POM/4.0.0"
    ++ " https://maven.apache.org/xsd/maven-4.0.0.xsd\">",
  "  <modelVersion>4.0.0</modelVersion>",
  "  <parent>",
  "    <groupId>org.springframework.boot</groupId>",
  "    <artifactId>spring-boot-starter-parent</artifactId>",
  "    <version>2.7.18</version>",
  "    <relativePath/>",
  "  </parent>"]

def dependencies : Template := lines [
  "  <properties>",
  "    <java.version>11</java.version>",
  "  </properties>",
  "",
  "  <dependencies>",
  "    <dependency>",
  "      <groupId>org.springframework.boot</groupId>",
  "      <artifactId>spring-boot-starter-web</artifactId>",
  "    </dependency>",
  "    <dependency>",
  "      <groupId>org.springdoc</groupId>",
  "      <artifactId>springdoc-openapi-ui</artifactId>",
  "      <version>1.7.0</version>",
  "    </dependency>",
  "  </dependencies>"]

/-- The part that packs a server. -/
def packaging : Template := lines [
  "",
  "  <build>",
  "    <plugins>",
  "      <plugin>",
  "        <groupId>org.springframework.boot</groupId>",
  "        <artifactId>spring-boot-maven-plugin</artifactId>",
  "      </plugin>",
  "    </plugins>",
  "  </build>"]

/-- The build descriptor. -/
def buildDescriptor : Template := sections [
  projectOpening,
  [ "  <groupId>", settings "group_id", "</groupId>\n",
    "  <artifactId>", settings "artifact_id", "</artifactId>\n",
    "  <version>", settings "artifact_version", "</version>\n",
    "  <name>", settings "artifact_id", "</name>\n",
    "\n"],
  dependencies,
  [whenNot (settings "interface_only") packaging, "</project>\n"]]

end ApiScaffold.Template.Builtin.Spring
