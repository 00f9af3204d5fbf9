import ApiScaffold.Document.Copy
import ApiScaffold.Document.Route
import ApiScaffold.Document.Yaml.Tree
import ApiScaffold.Text.Base64

/-!
# The meaning of nodes

The value that the nodes of a YAML text stand for. First the nodes are given their meaning, one
generation after the other from the root on: a scalar with the collection that it is part of, a
collection after all that stand at most as deep. The first node without a meaning is a fault, so the
order decides which fault of several is reported. Then the meanings are put together (`assemble`).

A node may stand at several places. It has one meaning, which is written out at each of them; where
a node stands inside itself the value is cut off. That two places are one node is lost in the value,
and it is only needed for the mapping of the components: `twins` gives the routes to its other
places.
-/

namespace ApiScaffold.Yaml

/-- What a node stands for, where the parts of collections are still nodes. -/
inductive Meaning where
  | value (v : Value)
  | list (items : List NodeId)
  | map (members : List (Value × NodeId))
  | pairs (pairs : List (NodeId × NodeId))

/-- Nodes and what they stand for, as far as it is known. -/
structure Construction where
  order : SetOrder
  nodes : Nodes
  meanings : Array (Option Meaning)
  /-- The collections of the next generation, the last first. -/
  waiting : List NodeId := []
  /-- How many merge keys there are, or were at first. -/
  mergeBound : Nat

namespace Construction

/-- The fault of a node that has no meaning. -/
def failNode {α : Type} (n : Node) (problem : String) : Except Stop α := failAt problem n.mark

/-- A value that a scalar has if its text is of the form that its kind asks for. -/
def suited : Option Value → Except Stop Value
  | some v => .ok v
  | none => .error .unsuitable

/-- The text of a node as a scalar; for a mapping it is that of its scalar value. `fuel` bounds how
many mappings may stand inside each other. -/
def scalarText (nodes : Nodes) : Nat → Node → Except Stop String
  | 0, _ => .error .unsuitable
  | fuel + 1, n =>
    let misfit := failNode n ("expected a scalar node, but found " ++ n.content.form)
    match n.content with
    | .scalar text => .ok text
    | .sequence _ => misfit
    | .mapping pairs =>
      match pairs.find? fun p => nodes.hasKind p.1 .scalarKey with
      | none => misfit
      | some p => match nodes[p.2]? with
        | some v => scalarText nodes fuel v
        | none => .error .unsuitable

/-- The value of a node that is no collection. -/
def scalarValue (nodes : Nodes) (n : Node) : Except Stop Value := do
  let text := scalarText nodes (nodes.size + 1) n
  match n.kind with
  | .null => return (fun _ => .null) (← text)
  | .text => return .str (← text)
  | .bool => suited ((Scalar.bool? (← text)).map .bool)
  | .int => suited ((Scalar.int? (← text).toList).map .int)
  | .float => suited ((Scalar.float? (← text).toList).map .float)
  | .time => do
    let text ← text
    match n.content with
    | .scalar _ => suited (Scalar.time? text.toList)
    | _ => .error .unsuitable
  | .binary => match Text.Base64.decode (← text) with
    | .ok bytes => return .bytes bytes
    | .error problem => failNode n problem
  | kind => failNode n ("could not determine a constructor for the tag " ++ Text.quoted kind.tag)

/-- Whether the nodes of a kind are collections. -/
def isCollection : Kind → Bool
  | .sequence | .mapping | .set | .pairs _ => true
  | _ => false

/-- Gives a node its meaning if it has none yet. A collection is empty at first, and waits. -/
def visit (c : Construction) (id : NodeId) : Except Stop Construction :=
  match c.meanings[id]?, c.nodes[id]? with
  | some none, some n =>
    if isCollection n.kind then
      .ok { c with
        meanings := c.meanings.setIfInBounds id (some (.list []))
        waiting := id :: c.waiting }
    else do
      let v ← scalarValue c.nodes n
      return { c with meanings := c.meanings.setIfInBounds id (some (.value v)) }
  | _, _ => .ok c

/-- The value of a node as a key. -/
def key? (c : Construction) (id : NodeId) : Option Value :=
  match (c.meanings[id]?).join with
  | some (.value v) => if v.isKey then some v else none
  | _ => none

/-- Visits keys and values of a mapping; a key has to be a scalar. -/
def visitPairs (c : Construction) (owner : Node) :
    List (NodeId × NodeId) → Except Stop (Construction × List (Value × NodeId))
  | [] => .ok (c, [])
  | (key, v) :: rest => do
    let c ← c.visit key
    match c.key? key with
    | none =>
      failIn "while constructing a mapping" owner.mark "found unhashable key"
        ((c.nodes[key]?.map Node.mark).getD owner.mark)
    | some k => do
      let (c, members) ← (← c.visit v).visitPairs owner rest
      return (c, (k, v) :: members)

/-- Visits the members of a mapping after all merging. -/
def visitMembers (c : Construction) (id : NodeId) (owner : Node) :
    Except Stop (Construction × List (Value × NodeId)) :=
  match owner.content with
  | .mapping _ => do
    let nodes ← c.nodes.flatten (c.mergeBound + 1) id []
    { c with nodes }.visitPairs owner (nodes.pairs id)
  | content => failNode owner ("expected a mapping node, but found " ++ content.form)

/-- Visits the one member of a mapping among others. -/
def visitSingle (c : Construction) (context : String) (owner : Node) (item : NodeId) :
    Except Stop (Construction × (NodeId × NodeId)) :=
  match c.nodes[item]? with
  | some { content := .mapping [(key, v)], .. } => do return (← (← c.visit key).visit v, (key, v))
  | some { content := .mapping pairs, mark, .. } =>
    failIn context owner.mark
      ("expected a single mapping item, but found " ++ toString pairs.length ++ " items") mark
  | some n =>
    failIn context owner.mark
      ("expected a mapping of length 1, but found " ++ n.content.form) n.mark
  | none => .error .unsuitable

/-- Gives a collection its parts. -/
def expand (c : Construction) (id : NodeId) : Except Stop Construction := do
  match c.nodes[id]? with
  | none => return c
  | some n =>
    let (c, meaning) ← match n.kind, n.content with
      | .set, _ => do
        let (c, members) ← c.visitMembers id n
        let distinct := Members.collect (members.map fun m => (m.1, .null))
        pure (c, Meaning.value (.set (c.order.built (distinct.map Prod.fst))))
      | .pairs ordered, .sequence items => do
        let context := "while constructing " ++ if ordered then "an ordered map" else "pairs"
        let (c, pairs) ← items.foldlM (fun (c, found) item => do
          let (c, pair) ← c.visitSingle context n item
          return (c, pair :: found)) (c, [])
        pure (c, Meaning.pairs pairs.reverse)
      | .pairs ordered, content =>
        failIn ("while constructing " ++ if ordered then "an ordered map" else "pairs") n.mark
          ("expected a sequence, but found " ++ content.form) n.mark
      | .sequence, .sequence items => do pure (← items.foldlM visit c, Meaning.list items)
      | .sequence, content => failNode n ("expected a sequence node, but found " ++ content.form)
      | _, _ => do
        let (c, members) ← c.visitMembers id n
        pure (c, Meaning.map members)
    return { c with meanings := c.meanings.setIfInBounds id (some meaning) }

/-- Expands collections generation by generation; each has one at least that no other has, so
`fuel` is the number of nodes. -/
def expandAll : Nat → Construction → Except Stop Construction
  | 0, c => .ok c
  | fuel + 1, c =>
    if c.waiting.isEmpty then .ok c
    else do expandAll fuel (← c.waiting.reverse.foldlM expand { c with waiting := [] })

/-- What the nodes stand for that the root needs. -/
def ofRoot (order : SetOrder) (nodes : Nodes) (root : NodeId) : Except Stop Construction := do
  let start : Construction :=
    { order, nodes, meanings := Array.replicate nodes.size none, mergeBound := nodes.mergeCount }
  expandAll (nodes.size + 1) (← start.visit root)

end Construction

/-- The value of a node inside those that are given. `fuel` bounds how deep it is. Pairs that have
no end stand as a whole for a value without an end, so that no walk passes them by. -/
def assemble (meanings : Array (Option Meaning)) : Nat → List NodeId → NodeId → Value
  | 0, _, _ => .null
  | fuel + 1, around, id =>
    let part := fun n => assemble meanings fuel (id :: around) n
    match (meanings[id]?).join with
    | none => .null
    | some (.value v) => v
    | some (.list items) =>
      if around.contains id then .again false else .list (items.map part)
    | some (.pairs pairs) =>
      if around.contains id then .again false
      else
        let items := pairs.map fun p => Value.pair (part p.1) (part p.2)
        if items.all Value.isFinite then .list items else .again false
    | some (.map members) =>
      if around.contains id then .again true
      else .map (Members.collect (members.map fun m => (m.1, part m.2)))

/-- The value of the root. Where it stands inside itself it is written out once more, so that each
of its members is what it is by itself. -/
def valueOf (c : Construction) (root : NodeId) : Value :=
  let part := assemble c.meanings (c.nodes.size + 1) []
  match (c.meanings[root]?).join with
  | some (.list items) => .list (items.map part)
  | some (.map members) => .map (Members.collect (members.map fun m => (m.1, part m.2)))
  | _ => part root

/-- The twins to which routes in a document lead, whose members are given; none is that under the
key of the components itself. -/
def twinsOf (members : Members) (routes : List Route) : List Twin :=
  routes.filterMap fun route => match route with
    | [] => none
    | n :: rest => (members[n]?).bind fun m =>
      if apart : m.1.keyEq (.str "components") = false then some ⟨m.1, rest, apart⟩ else none

/-- The twins of the components in a document. They are found where the node of the components has
been given a meaning without an end. -/
def twins (c : Construction) (root : NodeId) : List Twin :=
  match (c.meanings[root]?).join with
  | some (.map given) =>
    match given.reverse.find? fun m => m.1.keyEq (.str "components") with
    | none => []
    | some (_, id) =>
      let meanings := c.meanings.setIfInBounds id (some (.value (.again true)))
      match valueOf { c with meanings } root with
      | .map members => twinsOf members (Value.endlessRoutes (.map members))
      | _ => []
  | _ => []

/-- Reads a text that is one document, with the twins of its components; an empty one is null. -/
def read (order : SetOrder) (s : String) : Except Stop (Value × List Twin) := do
  let (nodes, root?) ← nodes s.toList
  match root? with
  | none => return (.null, [])
  | some root =>
    let c ← Construction.ofRoot order nodes root
    return (valueOf c root, twins c root)

/-- The account of what is wrong with a text, if it is malformed. -/
def Stop.account? (stop : Stop) (text : List Char) : Option String :=
  match stop with
  | fault f => some (f.account text)
  | character position c => some (characterAccount position c)
  | unsuitable => none

end ApiScaffold.Yaml
