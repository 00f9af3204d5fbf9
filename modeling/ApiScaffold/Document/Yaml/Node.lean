import ApiScaffold.Document.Yaml.Fault
import ApiScaffold.Document.Yaml.Kind

/-!
# Nodes

The nodes of a YAML text. A node knows its parts by their numbers, so that an alias is the number of
a node that stands elsewhere, and a node may be among its own parts.

Merge keys are resolved here, before nodes have a meaning: the pairs of the merged mappings are put
in front of those of the mapping itself, so that its own members win when members of one key are
collected.
-/

namespace ApiScaffold.Yaml

/-- The number of a node among the nodes of a text. -/
abbrev NodeId := Nat

inductive Content where
  | scalar (text : String)
  | sequence (items : List NodeId)
  | mapping (pairs : List (NodeId × NodeId))

/-- The form of a content as messages name it. -/
def Content.form : Content → String
  | scalar _ => "scalar"
  | sequence _ => "sequence"
  | mapping _ => "mapping"

structure Node where
  kind : Kind
  content : Content
  /-- Where the node starts. -/
  mark : Mark

/-- The nodes of a text by their numbers. -/
abbrev Nodes := Array Node

namespace Nodes

/-- The pairs of a node that is a mapping. -/
def pairs (nodes : Nodes) (id : NodeId) : List (NodeId × NodeId) :=
  match nodes[id]? with
  | some { content := .mapping pairs, .. } => pairs
  | _ => []

def hasKind (nodes : Nodes) (id : NodeId) (kind : Kind) : Bool :=
  (nodes[id]?.map Node.kind) == some kind

def setContent (nodes : Nodes) (id : NodeId) (content : Content) : Nodes :=
  nodes.modify id fun n => { n with content }

/-- Makes a node a text if it is the key of the value that a mapping has as a scalar. -/
def plainKey (nodes : Nodes) (id : NodeId) : Nodes :=
  nodes.modify id fun n => if n.kind = .scalarKey then { n with kind := .text } else n

/-- The first pair of a mapping whose value is to be merged into it: its place and that value. -/
def firstMerge? (nodes : Nodes) (id : NodeId) : Option (Nat × NodeId) :=
  let pairs := nodes.pairs id
  (pairs.findIdx? fun p => nodes.hasKind p.1 .merge).bind fun place =>
    pairs[place]?.map fun p => (place, p.2)

/-- How many pairs are to be merged into the mappings around them. -/
def mergeCount (nodes : Nodes) : Nat :=
  ((List.range nodes.size).flatMap nodes.pairs).countP fun p => nodes.hasKind p.1 .merge

/-- The fault of a node that cannot be merged into a mapping. -/
def failMerge {α : Type} (owner : Mark) (wanted : String) (n : Node) : Except Stop α :=
  failIn "while constructing a mapping" owner
    ("expected " ++ wanted ++ " for merging, but found " ++ n.content.form) n.mark

/-- Merges into a mapping what its merge keys ask for, in front of its own pairs; `merged` is what
has been found so far. Of several mappings under one key the last stands first. Each step takes a
merge key away, and `fuel` bounds their number. -/
def flatten : Nat → NodeId → List (NodeId × NodeId) → Nodes → Except Stop Nodes
  | 0, _, _, nodes => .ok nodes
  | fuel + 1, id, merged, nodes =>
    match nodes[id]?, nodes.firstMerge? id with
    | some owner, some (place, source) => do
      let nodes := nodes.setContent id (.mapping ((nodes.pairs id).eraseIdx place))
      match nodes[source]? with
      | some { content := .mapping _, .. } =>
        let nodes ← flatten fuel source [] nodes
        flatten fuel id (merged ++ nodes.pairs source) nodes
      | some { content := .sequence items, .. } =>
        let (nodes, found) ← items.foldlM (fun (nodes, found) item =>
          match nodes[item]? with
          | some { content := .mapping _, .. } => do
            let nodes ← flatten fuel item [] nodes
            return (nodes, nodes.pairs item ++ found)
          | some n => failMerge owner.mark "a mapping" n
          | none => .error .unsuitable) (nodes, [])
        flatten fuel id (merged ++ found) nodes
      | some n => failMerge owner.mark "a mapping or list of mappings" n
      | none => .error .unsuitable
    | _, _ =>
      let own := nodes.pairs id
      .ok (own.foldl (fun nodes p => nodes.plainKey p.1)
        (if merged.isEmpty then nodes else nodes.setContent id (.mapping (merged ++ own))))

end Nodes

end ApiScaffold.Yaml
