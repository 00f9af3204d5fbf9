import ApiScaffold.Document.Copy
import ApiScaffold.Document.Route
import ApiScaffold.Spec
import ApiScaffold.Target.Basic

/-!
# The normal form of a document

A run works on a document with a mapping of component schemas and, for some targets, with a server.
What is missing is put in: `normalize` says what becomes of the members of the document.

The schemas are put into the mapping of components itself. A YAML text may have that mapping at
other places too, by aliases, and there it changes as well. A `Loaded` document is a document with
the routes to these places, its twins; `Loaded.padded` is the document after such a change. A
document without twins, as every JSON text is, is its own padded form, and no other mapping is ever
changed in its place, so no other sharing has to be kept.
-/

namespace ApiScaffold

namespace Generator

/-- The value under a key if it is a mapping, else an empty one. -/
def mapAt (members : Members) (key : String) : Members :=
  match Members.get? members key with
  | some (.map inner) => inner
  | _ => []

/-- Members with a mapping of schemas, which is empty if they have none. -/
def withMapping (parts : Members) : Members :=
  match Members.get? parts "schemas" with
  | some (.map _) => parts
  | _ => Members.insert parts (.str "schemas") .emptyMap

/-- The document with a mapping of component schemas, which is put in where there is none. -/
def withSchemas (members : Members) : Members :=
  Members.insert members (.str "components") (.map (withMapping (mapAt members "components")))

/-- The document with a server at the root, if it has none. -/
def withServer (members : Members) : Members :=
  if (Members.getD members "servers" .null).isTruthy then members
  else Members.insert members (.str "servers") (.list [.map [(.str "url", .str "/")]])

/-- The document in the form that a run of the target works on. -/
def normalize (t : Target) (members : Members) : Members :=
  if t.needsServer then withServer (withSchemas members) else withSchemas members

end Generator

/-- The copy of a document. -/
def Spec.copy (order : SetOrder) (spec : Spec) : Spec :=
  { spec with members := Value.copyMembers order spec.members }

/-- A document as it was loaded: with the places that are one with its mapping of components. -/
structure Loaded where
  spec : Spec
  twins : List Twin := []

namespace Loaded

/-- The copy of a loaded document; its twins are one with its components as they were. -/
def copy (order : SetOrder) (d : Loaded) : Loaded := { d with spec := d.spec.copy order }

/-- Whether the mapping of components is one without a mapping of schemas. -/
def lacksSchemas (d : Loaded) : Bool :=
  match Members.get? d.spec.members "components" with
  | some (.map parts) => match Members.get? parts "schemas" with
    | some (.map _) => false
    | _ => true
  | _ => false

/-- The routes to twins under a key. -/
def routesUnder (d : Loaded) (key : Value) : List Route :=
  (d.twins.filter fun twin => twin.key.keyEq key).map Twin.route

/-- A mapping of components with a mapping of schemas. -/
def pad : Value → Value
  | .map parts => .map (Generator.withMapping parts)
  | v => v

/-- The member of a document after its components got a mapping of schemas, if they lack one. -/
def paddedMember (d : Loaded) (member : Value × Value) : Value × Value :=
  if d.lacksSchemas then
    (member.1, (d.routesUnder member.1).foldl (fun v route => v.changeAt pad route) member.2)
  else member

/-- The document after its components got a mapping of schemas at the places of all twins. -/
def padded (d : Loaded) : Spec :=
  { d.spec with members := d.spec.members.map d.paddedMember }

end Loaded

end ApiScaffold
