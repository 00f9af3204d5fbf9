import ApiScaffold.Template.Builtin.Parts

/-!
# The templates of the JAX-RS server

The class or interface of a group of operations, the entry point of a server and the build
descriptor. With interfaces only, methods are declared and the build has no server to pack.
-/

namespace ApiScaffold.Template.Builtin.Jaxrs

/-- The annotation that tells where a parameter travels. -/
def locationMark : Template := [
  whenever (travelsIn "header") ["@HeaderParam(", json (param "base_name"), ") "],
  whenever (travelsIn "query") ["@QueryParam(", json (param "base_name"), ") "],
  whenever (travelsIn "path") ["@PathParam(", json (param "base_name"), ") "],
  whenever (travelsIn "cookie") ["@CookieParam(", json (param "base_name"), ") "]]

/-- A parameter of a method. -/
def parameter : Template := sections [
  locationMark,
  [ "@Parameter(description = ", json (param "description"),
    oneOf (param "required") ", required = true" "", ") ",
    param "datatype", " ", param "name", unlessLast ", "]]

/-- The name and parameters of a method. -/
def signature : Template := [
  op "nickname", "(", forEach "param" (op "parameters") parameter, ")"]

/-- A method of an interface. -/
def declaration : Template := sections [["    ", op "return_type", " "], signature, [";\n"]]

/-- A method of a class. -/
def implementation : Template := sections [
  ["    public Response "],
  signature,
  lines [
    " \x7b",
    "        return Response.ok().entity(\"magic!\").build();",
    "    \x7d"]]

/-- The class or interface of a group of operations. -/
def apiFile : Template := [
  "package ", settings "api_package", ";\n",
  "\n",
  forEach "name" (name "model_imports") [
    "import ", settings "model_package", ".", name "name", ";\n"],
  forEach "imp" (name "library_imports") ["import ", name "imp", ";\n"],
  "\n",
  "import javax.ws.rs.*;\n",
  "import javax.ws.rs.core.Response;\n",
  "\n",
  "import io.swagger.v3.oas.annotations.Operation;\n",
  "import io.swagger.v3.oas.annotations.Parameter;\n",
  "\n",
  "@Path(\"", name "base_path", "\")\n",
  Node.branch (settings "interface_only")
    ["public interface ", group "classname", " \x7b\n"]
    ["public class ", group "classname", " \x7b\n"],
  forEach "op" (name "operations") [
    "\n",
    "    @", op "http_method", "\n",
    "    @Path(\"", op "path", "\")\n",
    whenever (op "deprecated") ["    @Deprecated\n"],
    "    @Operation(summary = ", json (op "summary"), ", description = ", json (op "notes"),
    ", tags = \x7b ", forEach "tag" (op "tags") [json (name "tag"), unlessLast ", "], " \x7d)\n",
    Node.branch (settings "interface_only") declaration implementation],
  "\x7d\n"]

/-- The entry point of a server. -/
def applicationFile : Template := [
  "package ", settings "invoker_package", ";\n",
  "\n",
  "import javax.ws.rs.ApplicationPath;\n",
  "import javax.ws.rs.core.Application;\n",
  "\n",
  "@ApplicationPath(\"", orElse (name "base_path") (text "/"), "\")\n",
  "public class RestApplication extends Application \x7b\n",
  "\x7d\n"]

/-- The opening of the build descriptor. -/
def projectOpening : Template := lines [
  "<project xmlns=\"http://maven.apache.org/POM/4.0.0\"",
  "         xmlns:xsi=\"http://www.w3.org/2001/XMLSchema-instance\"",
  "         xsi:schemaLocation=\"http://maven.apache.org/POM/4.0.0"
    ++ " http://maven.apache.org/maven-v4_0_0.xsd\">",
  "  <modelVersion>4.0.0</modelVersion>"]

/-- A plugin of the build. -/
def compilerPlugin : Template := lines [
  "      <plugin>",
  "        <artifactId>maven-compiler-plugin</artifactId>",
  "        <version>3.11.0</version>",
  "        <configuration>",
  "          <release>11</release>",
  "        </configuration>",
  "      </plugin>"]

/-- The plugin that packs a server. -/
def packagingPlugin : Template := lines [
  "      <plugin>",
  "        <artifactId>maven-war-plugin</artifactId>",
  "        <version>3.4.0</version>",
  "        <configuration>",
  "          <failOnMissingWebXml>false</failOnMissingWebXml>",
  "        </configuration>",
  "      </plugin>"]

def dependencies : Template := lines [
  "  <dependencies>",
  "    <dependency>",
  "      <groupId>javax.ws.rs</groupId>",
  "      <artifactId>javax.ws.rs-api</artifactId>",
  "      <version>2.1.1</version>",
  "      <scope>provided</scope>",
  "    </dependency>",
  "    <dependency>",
  "      <groupId>io.swagger.core.v3</groupId>",
  "      <artifactId>swagger-annotations</artifactId>",
  "      <version>2.2.20</version>",
  "    </dependency>",
  "  </dependencies>"]

/-- The build descriptor. -/
def buildDescriptor : Template := sections [
  projectOpening,
  [ "  <groupId>", settings "group_id", "</groupId>\n",
    "  <artifactId>", settings "artifact_id", "</artifactId>\n",
    "  <packaging>", oneOf (settings "interface_only") "jar" "war", "</packaging>\n",
    "  <name>", settings "artifact_id", "</name>\n",
    "  <version>", settings "artifact_version", "</version>\n",
    "\n",
    "  <build>\n",
    "    <sourceDirectory>", settings "source_folder", "</sourceDirectory>\n",
    "    <plugins>\n"],
  compilerPlugin,
  [whenNot (settings "interface_only") packagingPlugin],
  lines ["    </plugins>", "  </build>", ""],
  dependencies,
  lines ["</project>"]]

end ApiScaffold.Template.Builtin.Jaxrs
