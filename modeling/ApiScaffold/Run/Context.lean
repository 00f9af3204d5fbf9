import ApiScaffold.Generator.Settings
import ApiScaffold.Model.Basic
import ApiScaffold.Template.Datum

/-!
# What templates see

The parts of a run as templates see them: every field under its name, in the order in which the text
of the part shows them, and besides these the fields that are derived from others.

What a template can say about a run is fixed here. A field that is left out does not exist for
templates, and asking for it is a fault of the template.
-/

namespace ApiScaffold

namespace Datum

/-- A text that may be absent. -/
def ofText? : Option String → Datum
  | none => .value .null
  | some s => str s

/-- Values of the document in a row. -/
def ofValues (vs : List Value) : Datum := .tuple (vs.map .value)

end Datum

/-- What templates see of the settings. -/
def Settings.datum (s : Settings) : Datum :=
  .record "oasgen.config.Settings" [
    ("generator_id", .str s.generatorId), ("base_name", .str s.baseName),
    ("artifact_id", .str s.artifactId), ("artifact_version", .str s.artifactVersion),
    ("group_id", .str s.groupId), ("interface_only", .bool s.interfaceOnly),
    ("include_build_descriptor", .bool s.includeBuildDescriptor),
    ("source_folder", .str s.sourceFolder), ("api_package", .str s.apiPackage),
    ("model_package", .str s.modelPackage), ("invoker_package", .str s.invokerPackage),
    ("package_name", .str s.packageName), ("permissive_types", .bool s.permissiveTypes),
    ("generate_models", .bool s.generateModels), ("generate_apis", .bool s.generateApis),
    ("generate_supporting_files", .bool s.generateSupportingFiles),
    ("workers", .value (.int s.workers)), ("extra", .options s.extra)] []

/-- What templates see of a property. -/
def Property.datum (p : Property) : Datum :=
  .record "oasgen.model.Property" [
    ("base_name", .str p.wireName), ("name", .str p.name), ("getter", .str p.getter),
    ("setter", .str p.setter), ("datatype", .str p.type), ("base_type", .str p.baseType),
    ("default_value", .str p.default), ("required", .bool p.required),
    ("description", .value p.description), ("nullable", .bool p.nullable),
    ("read_only", .bool p.readOnly), ("is_enum", .bool p.isEnum),
    ("allowable_values", .ofValues p.allowedValues), ("is_container", .bool p.isContainer),
    ("is_primitive", .bool p.isPrimitive), ("is_wide_integer", .bool p.isWideInteger)] []

/-- What templates see of a model. -/
def Model.datum (m : Model) : Datum :=
  .record "oasgen.model.Model" [
    ("name", .str m.name), ("classname", .str m.className),
    ("description", .value m.description), ("vars", .tuple (m.properties.map Property.datum)),
    ("imports", .strs m.imports), ("composed_of", .strs m.composedOf),
    ("parent", .ofText? m.parent), ("references", .names m.references),
    ("is_enum", .bool m.isEnum), ("allowable_values", .ofValues m.allowedValues),
    ("enum_datatype", .str m.enumType), ("enum_literals", .strs m.enumLiterals)] [
    ("required_vars", .tuple (m.requiredProperties.map Property.datum)),
    ("optional_vars", .tuple (m.optionalProperties.map Property.datum))]

/-- What templates see of a parameter. -/
def Parameter.datum (p : Parameter) : Datum :=
  .record "oasgen.model.Parameter" [
    ("base_name", .str p.wireName), ("name", .str p.name), ("location", .location p.location),
    ("required", .bool p.required), ("datatype", .str p.type),
    ("description", .value p.description), ("default_value", .str p.default),
    ("imports", .strs p.imports)] [("is_body", .bool (p.location = .body))]

/-- What templates see of a response. -/
def Response.datum (r : Response) : Datum :=
  .record "oasgen.model.Response" [
    ("code", .str r.code), ("description", .value r.description), ("datatype", .ofText? r.type),
    ("is_default", .bool r.isDefault)] []

/-- What templates see of an operation. -/
def Operation.datum (op : Operation) : Datum :=
  .record "oasgen.model.Operation" [
    ("http_method", .str op.httpMethod), ("path", .value op.path),
    ("operation_id", .str op.operationId), ("nickname", .str op.nickname),
    ("group", .value op.group), ("parameters", .tuple (op.parameters.map Parameter.datum)),
    ("responses", .tuple (op.responses.map Response.datum)),
    ("return_type", .str op.returnType), ("summary", .value op.summary),
    ("notes", .value op.notes), ("tags", .ofValues op.tags), ("imports", .strs op.imports),
    ("deprecated", .bool op.deprecated)] [
    ("body_param", match op.bodyParameter? with
      | none => .value .null
      | some p => p.datum),
    ("parameters_in", .operation "method" none)]

/-- What templates see of a group. -/
def OperationGroup.datum (g : OperationGroup) : Datum :=
  .record "oasgen.model.OperationGroup" [
    ("name", .str g.name), ("classname", .str g.className),
    ("operations", .tuple (g.operations.map Operation.datum)), ("imports", .strs g.imports)] []

end ApiScaffold
