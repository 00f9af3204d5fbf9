import ApiScaffold.Template.Builtin.Parts

/-!
# The templates of the Python client

Data classes with their conversions from and to mappings, enumerations, a protocol and a class for
every group of operations, the transport that sends their requests, and the modules and descriptors
of a package.

A method passes on what travels in the path, the query and so on by the names in the document, and
converts what it gets into the class that it returns.
-/

namespace ApiScaffold.Template.Builtin.Python

/-- The constants of an enumeration, each with its literal. -/
def enumeration : Template := [
  "import enum\n",
  "\n",
  "\n",
  "class ", model "classname", "(enum.Enum):\n",
  Node.each "value" (model "allowable_values")
    [ "    ", constant (name "value"), " = ", Expr.item (model "enum_literals") (turn "index0"),
      "\n"]
    ["    pass\n"] 0]

/-- The imports of a data class. -/
def imports : Template := [
  "from typing import Any\n",
  forEach "imp" (name "library_imports") [
    "from ", packageOf (name "imp"), " import ", classOf (name "imp"), "\n"],
  "\n",
  "from ..serialization import to_jsonable\n",
  whenever (name "model_imports") [
    "from typing import TYPE_CHECKING\n",
    "\n",
    "if TYPE_CHECKING:\n",
    forEach "name" (name "model_imports") [
      "    from .", snake (name "name"), " import ", name "name", "\n"]],
  "\n",
  "\n"]

/-- The fields of a data class and their names in the document. -/
def fields : Template := [
  "@dataclass(kw_only=True)\n",
  "class ", model "classname", ":\n",
  "    \"\"\"", orElse (model "description") (model "classname"), "\"\"\"\n",
  "\n",
  forEach "var" (model "vars") [
    Node.branch (prop "required")
      ["    ", prop "name", ": ", prop "datatype", "\n"]
      ["    ", prop "name", ": ", prop "datatype", " | None = ", prop "default_value", "\n"]],
  "\n",
  "    _WIRE_NAMES = \x7b\n",
  forEach "var" (model "vars") [
    "        ", json (prop "name"), ": ", json (prop "base_name"), ",\n"],
  "    \x7d\n",
  "\n"]

/-- The conversion of a data class to a mapping. -/
def toDict : Template := lines [
  "    def to_dict(self) -> dict[str, Any]:",
  "        out: dict[str, Any] = \x7b\x7d",
  "        for field_name, wire_name in self._WIRE_NAMES.items():",
  "            value = getattr(self, field_name)",
  "            if value is not None:",
  "                out[wire_name] = to_jsonable(value)",
  "        return out",
  ""]

/-- The conversion of a mapping to a data class. -/
def fromDict : Template := [
  "    @classmethod\n",
  "    def from_dict(cls, data: dict[str, Any]) -> ", model "classname", ":\n",
  "        return cls(**\x7bf: data[w] for f, w in cls._WIRE_NAMES.items() if w in data\x7d)\n"]

/-- A model: an enumeration, or a data class. -/
def modelFile : Template := [
  "\"\"\"", orElse (model "description") (model "classname"), "\"\"\"\n",
  "\n",
  "from __future__ import annotations\n",
  "\n",
  Node.branch (model "is_enum") enumeration (imports ++ fields ++ toDict ++ fromDict)]

/-- The name, parameters and result of a method. -/
def signature : Template := [
  "def ", op "nickname", "(self", whenever (op "parameters") [", *"],
  forEach "param" (op "parameters") [
    ", ", param "name", ": ", param "datatype",
    oneOf (param "required") "" " | None = None"],
  ") -> ", op "return_type", ":"]

/-- The account of a method: its summary and what it requests. -/
def account : Template := [
  "\n",
  "        \"\"\"", orElse (op "summary") (op "nickname"), "\n",
  "\n",
  "        ", op "http_method", " ", op "path", "\n",
  "        \"\"\"\n"]

/-- The argument `keyword` of a request: what travels in a location, under the names in the
document. -/
def wireMap (keyword location : String) : Template := [
  "            ", text keyword, "=\x7b",
  forEach "param" (Expr.filtered (op "parameters") (.whereEquals ["location", "value"] location)) [
    json (param "base_name"), ": ", param "name", unlessLast ", "],
  "\x7d,\n"]

/-- The request of a method. -/
def request : Template := sections [
  [ "        data = self.client.request(\n",
    "            ", json (op "http_method"), ",\n",
    "            ", json (op "path"), ",\n"],
  wireMap "path_params" "path",
  wireMap "query_params" "query",
  wireMap "headers" "header",
  wireMap "cookies" "cookie",
  [ "            body=",
    Expr.choose (name "body") (Expr.field (name "body") "name") (text "None"), ",\n",
    "        )\n"]]

/-- What a method returns: a model, nothing or the data as they are. -/
def returned : Template := [
  Node.branch (Expr.among (op "return_type") (name "model_imports"))
    ["        return ", op "return_type", ".from_dict(data)\n"]
    [Node.branch (Expr.equal (op "return_type") (text "None"))
      ["        return None\n"]
      ["        return data\n"]]]

/-- The protocol of a group of operations. -/
def protocol : Template := [
  "class ", group "classname", "(Protocol):\n",
  forEach "op" (name "operations") (sections [
    ["\n", "    "], signature, account, ["        ...\n"]])]

/-- The class of a group of operations. -/
def implementation : Template := [
  "class ", group "classname", ":\n",
  "    def __init__(self, client: ApiClient) -> None:\n",
  "        self.client = client\n",
  forEach "op" (name "operations") (sections [
    [Node.assign "body" (op "body_param"), "\n", "    "], signature, account, request, returned])]

/-- The class or protocol of a group of operations. -/
def apiFile : Template := [
  "\"\"\"", group "classname", ": operations grouped under '", group "name", "'.\"\"\"\n",
  "\n",
  "from __future__ import annotations\n",
  "\n",
  "from typing import Any\n",
  whenever (settings "interface_only") ["from typing import Protocol\n"],
  forEach "imp" (name "library_imports") [
    "from ", packageOf (name "imp"), " import ", classOf (name "imp"), "\n"],
  "\n",
  whenNot (settings "interface_only") ["from ..api_client import ApiClient\n"],
  forEach "name" (name "model_imports") [
    "from ..models.", snake (name "name"), " import ", name "name", "\n"],
  "\n",
  "\n",
  Node.branch (settings "interface_only") protocol implementation]

/-- The opening of the transport. -/
def clientOpening : Template := lines [
  "\"\"\"HTTP transport for the generated API classes.\"\"\"",
  "",
  "from __future__ import annotations",
  "",
  "from typing import Any",
  "from urllib.parse import quote",
  "",
  "import httpx",
  "",
  "from .serialization import to_jsonable",
  ""]

/-- The transport class up to its requests. -/
def clientClass : Template := lines [
  "",
  "",
  "class ApiClient:",
  "    \"\"\"Thin wrapper around httpx.Client.\"\"\"",
  "",
  "    def __init__(",
  "        self,",
  "        base_url: str = DEFAULT_BASE_URL,",
  "        *,",
  "        headers: dict[str, str] | None = None,",
  "        timeout: float = 30.0,",
  "        http_client: httpx.Client | None = None,",
  "    ) -> None:",
  "        self._client = http_client or httpx.Client(base_url=base_url, headers=headers,"
    ++ " timeout=timeout)",
  "",
  "    def __enter__(self) -> ApiClient:",
  "        return self",
  "",
  "    def __exit__(self, *exc_info: Any) -> None:",
  "        self.close()",
  "",
  "    def close(self) -> None:",
  "        self._client.close()",
  ""]

/-- The sending of a request. -/
def clientRequest : Template := lines [
  "    def request(",
  "        self,",
  "        method: str,",
  "        path: str,",
  "        *,",
  "        path_params: dict[str, Any] | None = None,",
  "        query_params: dict[str, Any] | None = None,",
  "        headers: dict[str, Any] | None = None,",
  "        cookies: dict[str, Any] | None = None,",
  "        body: Any = None,",
  "    ) -> Any:",
  "        url = path.format(**\x7bk: quote(str(v), safe=\"\") for k, v in (path_params or"
    ++ " \x7b\x7d).items()\x7d)",
  "        resp = self._client.request(",
  "            method,",
  "            url,",
  "            params=\x7bk: to_jsonable(v) for k, v in (query_params or \x7b\x7d).items()"
    ++ " if v is not None\x7d,",
  "            headers=\x7bk: str(v) for k, v in (headers or \x7b\x7d).items() if v is not"
    ++ " None\x7d,",
  "            cookies=\x7bk: str(v) for k, v in (cookies or \x7b\x7d).items() if v is not"
    ++ " None\x7d,",
  "            json=to_jsonable(body) if body is not None else None,",
  "        )",
  "        resp.raise_for_status()",
  "        if not resp.content:",
  "            return None",
  "        if \"json\" in resp.headers.get(\"content-type\", \"\"):",
  "            return resp.json()",
  "        return resp.text"]

/-- The transport of the classes. -/
def clientFile : Template := sections [
  clientOpening,
  ["DEFAULT_BASE_URL = \"", name "base_path", "\"\n"],
  clientClass,
  clientRequest]

/-- The conversion of values to JSON. -/
def serializationFile : Template := lines [
  "\"\"\"JSON conversion helpers shared by models and the API client.\"\"\"",
  "",
  "from __future__ import annotations",
  "",
  "import enum",
  "from datetime import date, datetime",
  "from typing import Any",
  "from uuid import UUID",
  "",
  "",
  "def to_jsonable(value: Any) -> Any:",
  "    \"\"\"Convert models, enums and temporal values into JSON-ready data.\"\"\"",
  "    if hasattr(value, \"to_dict\"):",
  "        return value.to_dict()",
  "    if isinstance(value, enum.Enum):",
  "        return value.value",
  "    if isinstance(value, (datetime, date)):",
  "        return value.isoformat()",
  "    if isinstance(value, UUID):",
  "        return str(value)",
  "    if isinstance(value, list):",
  "        return [to_jsonable(v) for v in value]",
  "    if isinstance(value, dict):",
  "        return \x7bk: to_jsonable(v) for k, v in value.items()\x7d",
  "    return value"]

/-- The root module of the package. -/
def packageRoot : Template := [
  "\"\"\"", name "app_name", " client, generated by oasgen from API version ", name "app_version",
  ".\"\"\"\n",
  "\n",
  "__version__ = \"", settings "artifact_version", "\"\n",
  whenNot (settings "interface_only") [
    "\n",
    "from .api_client import ApiClient  # noqa: F401\n"]]

/-- The root module of the models. -/
def modelsRoot : Template := [
  forEach "model" (name "models") [
    "from .", snake (model "classname"), " import ", model "classname", "  # noqa: F401\n"],
  "\n",
  "__all__ = [\n",
  forEach "model" (name "models") ["    \"", model "classname", "\",\n"],
  "]\n"]

/-- The root module of the classes of operations. -/
def apiRoot : Template := [
  forEach "group" (name "groups") [
    "from .", snake (group "classname"), " import ", group "classname", "  # noqa: F401\n"],
  "\n",
  "__all__ = [\n",
  forEach "group" (name "groups") ["    \"", group "classname", "\",\n"],
  "]\n"]

/-- The build descriptor. -/
def buildDescriptor : Template := [
  "[build-system]\n",
  "requires = [\"setuptools>=68\"]\n",
  "build-backend = \"setuptools.build_meta\"\n",
  "\n",
  "[project]\n",
  "name = \"", settings "artifact_id", "\"\n",
  "version = \"", settings "artifact_version", "\"\n",
  "description = ", json (orElse (name "app_description") (name "app_name")), "\n",
  "requires-python = \">=3.10\"\n",
  "dependencies = [\n",
  whenNot (settings "interface_only") ["    \"httpx>=0.27\",\n"],
  "]\n",
  "\n",
  "[tool.setuptools.packages.find]\n",
  "include = [\"", settings "package_name", "*\"]\n"]

/-- The account of the generated project. -/
def readme : Template := sections [
  [ "# ", name "app_name", "\n",
    "\n",
    name "app_description", "\n",
    "\n",
    "Python client generated by oasgen from API version ", name "app_version", ".\n",
    "\n",
    "```python\n",
    Node.branch (settings "interface_only")
      ["from ", settings "package_name", ".api import *  # Protocol classes only\n"]
      [ "from ", settings "package_name", " import ApiClient\n",
        "from ", settings "package_name", ".api import ",
        orElse (joined ", " (Expr.filtered (name "groups") (.fields "classname"))) (text "..."),
        "\n",
        "\n",
        "client = ApiClient(\"https://example.com", name "base_path", "\")\n"],
    "```\n",
    "\n"],
  operationsTable]

end ApiScaffold.Template.Builtin.Python
