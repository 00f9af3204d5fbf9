import ApiScaffold.Document.Order
import ApiScaffold.Document.Pointer
import ApiScaffold.Failure
import ApiScaffold.Text.Kind
import ApiScaffold.Text.Url

/-!
# Accepted documents

A document whose version is 3, whose paths are a mapping, and in which every reference that the walk
over lists and mappings meets points at a mapping of the document (`Spec.ofValue`). The members are
kept as they are; everything else is computed from them when it is asked for.

* References: `resolve` goes to the target of one, `deref` follows them until a mapping that is
  none. How many hops that may take is bounded by the number of values, beyond which a chain has to
  repeat itself.
* Components: `schemas` and the name of the component schema that a reference is to
  (`schemaTarget?`).
* Operations: the methods of all path items in order (`slots`), up to the first item that is no
  mapping.

References inside pairs are not met by the walk, and those that are no text are not checked.
-/

namespace ApiScaffold

/-- A document with the name of its source. -/
structure Spec where
  members : Members
  source : String

namespace Value

mutual

/-- The references below a value, each with its place, in the order of a walk from the root; none
stands where the walk would not end, or comes to a key that cannot be written. -/
def references (place : String) : Value → List (Option (String × String))
  | .map members =>
    (match Members.get? members "$ref" with
      | some (.str reference) => [some (place, reference)]
      | _ => []) ++ memberReferences place members
  | .list items => itemReferences place 0 items
  | .again _ => [none]
  | _ => []

def memberReferences (place : String) : List (Value × Value) → List (Option (String × String))
  | [] => []
  | (key, v) :: rest =>
    (match key.display? with
      | some name => references (place ++ "/" ++ name) v
      | none => [none]) ++ memberReferences place rest

def itemReferences (place : String) (index : Nat) : List Value → List (Option (String × String))
  | [] => []
  | v :: rest =>
    references (place ++ "/" ++ toString index) v ++ itemReferences place (index + 1) rest

end

/-- The member of a mapping under a key, or a default. -/
def member (v : Value) (key : String) (default : Value) : Attempt Value :=
  match v with
  | .map members => .ok (Members.getD members key default)
  | _ => .error .unsuitable

/-- A value that counts as false is replaced by another. -/
def orElse (v fallback : Value) : Value := if v.isTruthy then v else fallback

/-- What iteration over a value yields. -/
def elements (v : Value) : Attempt (List Value) := require v.elements?

/-- The members of a mapping. -/
def entries : Value → Attempt Members
  | .map members => .ok members
  | _ => .error .unsuitable

end Value

namespace Spec

/-- The document as a value. -/
def document (spec : Spec) : Value := .map spec.members

/-- The mapping that a reference points at. -/
def resolveIn (document : Value) (reference : String) : Attempt Members :=
  match Pointer.body? reference with
  | none => .error (.spec (.unsupportedReference reference))
  | some body => match Pointer.follow document (Pointer.keys body) with
    | none => .error (.spec (.unresolvable reference))
    | some (.map members) => .ok members
    | some _ => .error (.spec (.targetNotMapping reference))

/-- The mapping that a reference points at. -/
def resolve (spec : Spec) (reference : String) : Attempt Members :=
  resolveIn spec.document reference

/-- Accepts references, in their order, that point at mappings of the document. -/
def checkReferences (document : Value) : List (Option (String × String)) → Attempt Unit
  | [] => .ok ()
  | none :: _ => .error .unsuitable
  | some (place, reference) :: rest =>
    match Pointer.body? reference with
    | none => .error (.spec (.externalReference place reference))
    | some _ => match resolveIn document reference with
      | .error failure => .error failure
      | .ok _ => checkReferences document rest

/-- The version of the specification that a document names. -/
def versionOf (members : Members) : Attempt String :=
  require (Members.getD members "openapi" (.str "")).display?

/-- Checks version and paths of a document. -/
def checkHeader (document : Value) (source : String) : Attempt Members :=
  match document with
  | .map members => do
    let version ← versionOf members
    if !version.startsWith "3." then .error (.spec (.unsupportedVersion source version))
    else if !(Members.getD members "paths" .emptyMap).isMap then
      .error (.spec (.pathsNotMapping source))
    else return members
  | _ => .error (.spec (.notMapping source))

/-- Accepts a document. -/
def ofValue (document : Value) (source : String) : Attempt Spec := do
  let members ← checkHeader document source
  checkReferences document (document.references "#")
  return { members, source }

/-- The part of the document that describes the service. -/
def info (spec : Spec) : Value := Members.getD spec.members "info" .emptyMap

def title (spec : Spec) : Attempt Value := spec.info.member "title" (.str "")

def version (spec : Spec) : Attempt String := do
  require (← spec.info.member "version" (.str "unknown")).display?

def description (spec : Spec) : Attempt Value := spec.info.member "description" (.str "")

def paths (spec : Spec) : Value :=
  (Members.getD spec.members "paths" .null).orElse .emptyMap

def schemas (spec : Spec) : Attempt Value :=
  return (← ((Members.getD spec.members "components" .null).orElse .emptyMap).member "schemas"
    .null).orElse .emptyMap

/-- The first of a list of servers; a text has characters in its place, bytes have numbers, and a
mapping what stands under the key zero. -/
def firstServer (servers : Value) : Attempt Value :=
  match servers with
  | .list (first :: _) => .ok first
  | .map members => require (Members.find? members (.int 0))
  | .str _ | .bytes _ => .ok .null
  | _ => .error .unsuitable

/-- The path of the first server's URL, without slashes at its end. -/
def basePath (spec : Spec) : Attempt String := do
  let servers := Members.getD spec.members "servers" .null
  if !servers.isTruthy then return ""
  else match ← firstServer servers with
    | .map server =>
      let url ← require (Members.getD server "url" (.str "")).asStr?
      let path ← require (Url.path? url)
      return String.ofList (Text.dropTail (· == '/') path.toList)
    | _ => return ""

/-- Follows references from members that may be one until a mapping that is none; `hops` bounds the
length of the chain, which cannot pass a reference twice. -/
def derefFrom (document : Value) (hops : Nat) (seen : List String) (members : Members) :
    Attempt Members :=
  match Members.get? members "$ref" with
  | none => .ok members
  | some (.str reference) =>
    if seen.contains reference then .error (.spec (.circularReference (.str reference)))
    else match resolveIn document reference with
      | .error failure => .error failure
      | .ok next => match hops with
        | 0 => .error (.spec (.circularReference (.str reference)))
        | hops + 1 => derefFrom document hops (reference :: seen) next
  | some _ => .error .unsuitable

/-- A number that no chain of references passes before it repeats one: every reference is a value of
the document. -/
def chainBound (document : Value) : Nat := document.nodeCount + 1

/-- Follows references to a mapping that is none. -/
def deref (spec : Spec) (members : Members) : Attempt Members :=
  if Members.has members "$ref" then
    derefFrom spec.document (chainBound spec.document) [] members
  else .ok members

/-- Follows references from any value; one that cannot hold a reference is its own end. -/
def derefValue (spec : Spec) (v : Value) : Attempt Value :=
  match v with
  | .map members => return .map (← spec.deref members)
  | .list items =>
    if items.any (·.keyEq (.str "$ref")) then .error .unsuitable else .ok v
  | .str s =>
    if (s.splitOn "$ref").length > 1 then .error .unsuitable else .ok v
  | _ => .error .unsuitable

/-- What the references to component schemas start with. -/
def schemaPrefix : String := "#/components/schemas/"

/-- The component schema that a reference names. -/
def schemaNameOf? (reference : String) : Option String :=
  if reference.startsWith schemaPrefix then some (Pointer.lastKey reference) else none

/-- The component schema that a mapping refers to. -/
def schemaTarget? (members : Members) : Option String :=
  match Members.get? members "$ref" with
  | some (.str reference) => schemaNameOf? reference
  | _ => none

/-- The methods of operations, in the order in which a path item is read. -/
def methods : List String := ["get", "put", "post", "delete", "options", "head", "patch", "trace"]

/-- An operation where it stands in the document. -/
structure Slot where
  path : Value
  method : String
  operation : Value
  pathItem : Members

/-- The operations of a path item. -/
def slotsOf (path : Value) (item : Members) : List Slot :=
  methods.filterMap fun method => (Members.get? item method).map fun operation =>
    { path, method, operation, pathItem := item }

/-- The operations of path items up to the first that is no mapping, and the failure that it is. -/
def slotsUntil : List (Value × Value) → List Slot × Option Failure
  | [] => ([], none)
  | (path, .map item) :: rest =>
    let (slots, stop) := slotsUntil rest
    (slotsOf path item ++ slots, stop)
  | (path, _) :: _ => ([], some (.spec (.pathItemNotMapping path)))

/-- The operations of the document in the order of their paths, as far as they can be read. -/
def slots (spec : Spec) : List Slot × Option Failure :=
  match (do require (← spec.paths.entries).sorted? : Attempt Members) with
  | .ok members => slotsUntil members
  | .error failure => ([], some failure)

end Spec

end ApiScaffold
