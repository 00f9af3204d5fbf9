import ApiScaffold.Document.Yaml.Layout
import ApiScaffold.Document.Yaml.Node

/-!
# The nodes that tokens describe

The grammar of YAML over tokens: sequences and mappings in blocks and in brackets, properties before
nodes, and the borders of documents. A text has to be one document; a second one is a fault.

Nodes are added as they begin and filled when they are complete, since an alias stands for the node
of its anchor also where that node has begun but is not complete. Every reading takes at least one
token or goes down one level, so `fuel` is computed from the number of tokens.
-/

namespace ApiScaffold.Yaml

/-- How many sequences and mappings may stand inside each other. -/
def maxDepth : Nat := 488

/-- Tokens that are still to be read, and what has been read that counts for them. -/
structure Reading where
  tokens : List Token
  /-- The fault behind the last token, if there is one. -/
  stop : Option Stop
  /-- The meaning of the handles of tags. -/
  handles : List (String × String) := []
  nodes : Nodes := #[]
  /-- The nodes that have begun, by the names of their anchors. -/
  anchors : List (String × NodeId) := []
  /-- How many sequences and mappings are not complete. -/
  depth : Nat := 0

/-- The handles that have a meaning without a directive. -/
def standardHandles : List (String × String) := [("!", "!"), ("!!", standardPrefix)]

/-- A step of reading. -/
abbrev Read := StateT Reading (Except Stop)

namespace Read

/-- A step that ends the reading. -/
def fail {α : Type} (e : Except Stop α) : Read α := fun r => e.map fun a => (a, r)

/-- The next token, which stays. -/
def peek : Read Token := fun r =>
  match r.tokens with
  | t :: _ => .ok (t, r)
  | [] => .error (r.stop.getD .unsuitable)

/-- The next token, which is taken. -/
def take : Read Token := fun r =>
  match r.tokens with
  | t :: rest => .ok (t, { r with tokens := rest })
  | [] => .error (r.stop.getD .unsuitable)

/-- A token's name in a message. -/
def named (t : Token) : String := Text.quoted t.kind.name

/-- What stands before the content of a node. -/
structure Properties where
  anchor : Option String := none
  /-- The tag with the meaning of its handle put in. -/
  tag : Option String := none
  start : Mark

/-- The tag that a token names. -/
def fullTag (start mark : Mark) (handle : Option String) (suffix : String) : Read String := do
  match handle with
  | none => return suffix
  | some h => match (← get).handles.lookup h with
    | some before => return before ++ suffix
    | none =>
      fail (failIn "while parsing a node" start
        ("found undefined tag handle " ++ Text.quoted h) mark)

/-- An anchor and a tag, in either order. -/
def properties : Read Properties := do
  let first ← peek
  match first.kind with
  | .anchor name =>
    let _ ← take
    let second ← peek
    match second.kind with
    | .tag handle suffix =>
      let _ ← take
      let tag ← fullTag first.start second.start handle suffix
      return { anchor := some name, tag := some tag, start := first.start }
    | _ => return { anchor := some name, start := first.start }
  | .tag handle suffix =>
    let _ ← take
    let second ← peek
    match second.kind with
    | .anchor name =>
      let _ ← take
      let tag ← fullTag first.start first.start handle suffix
      return { anchor := some name, tag := some tag, start := first.start }
    | _ => return { tag := some (← fullTag first.start first.start handle suffix)
                    start := first.start }
  | _ => return { start := first.start }

/-- The node of an alias. -/
def aliased (name : String) (mark : Mark) : Read NodeId := do
  match (← get).anchors.lookup name with
  | some id => return id
  | none => fail (failAt ("found undefined alias " ++ Text.quoted name) mark)

/-- Where a node starts. -/
def startOf (id : NodeId) : Read Mark := do
  return (((← get).nodes[id]?).map Node.mark).getD ⟨0, 0, 0⟩

/-- Adds a node. -/
def add (n : Node) : Read NodeId := do
  let id := (← get).nodes.size
  modify fun r => { r with nodes := r.nodes.push n }
  return id

/-- Adds a node with properties. -/
def addWith (p : Properties) (kind : Kind) (content : Content) : Read NodeId := do
  match p.anchor with
  | none => add { kind, content, mark := p.start }
  | some name =>
    match (← get).anchors.lookup name with
    | some first =>
      fail (failIn ("found duplicate anchor " ++ Text.quoted name ++ "; first occurrence")
        (← startOf first) "second occurrence" p.start)
    | none => do
      let id ← add { kind, content, mark := p.start }
      modify fun r => { r with anchors := (name, id) :: r.anchors }
      return id

/-- Adds a sequence or mapping that is still empty and reads what it holds. -/
def fill (p : Properties) (kind : Kind) (empty : Content) (contents : Read Content) :
    Read NodeId := do
  let id ← addWith p kind empty
  let depth := (← get).depth
  if depth = maxDepth then fail (.error .unsuitable)
  else
    modify fun r => { r with depth := depth + 1 }
    let content ← contents
    modify fun r => { r with depth, nodes := r.nodes.setContent id content }
    return id

/-- The kind of a collection with properties. -/
def collectionKind (p : Properties) (standard : Kind) : Kind :=
  match p.tag with
  | none | some "!" => standard
  | some tag => .ofTag tag

/-- The kind of a scalar with properties. -/
def scalarKind (p : Properties) (text : String) (plain : Bool) : Kind :=
  match p.tag with
  | none => if plain then .ofPlain text else .text
  | some "!" => .ofForm text
  | some tag => .ofTag tag

/-- Adds a scalar. -/
def addScalar (p : Properties) (text : String) (plain : Bool) : Read NodeId :=
  addWith p (scalarKind p text plain) (.scalar text)

/-- Adds a sequence and reads its items. -/
def addSequence (p : Properties) (items : Read (List NodeId)) : Read NodeId :=
  fill p (collectionKind p .sequence) (.sequence []) (.sequence <$> items)

/-- Adds a mapping and reads its pairs. -/
def addMapping (p : Properties) (pairs : Read (List (NodeId × NodeId))) : Read NodeId :=
  fill p (collectionKind p .mapping) (.mapping []) (.mapping <$> pairs)

/-- Adds the node that stands where there is none. -/
def absent (mark : Mark) : Read NodeId := addScalar { start := mark } "" true

/-- Which tokens a node may start with. -/
structure Place where
  /-- Whether it may be a block. -/
  block : Bool := true
  /-- Whether it may be a sequence at the indentation around it. -/
  indentless : Bool := false

/-- Whether the value of a block mapping's key or value is missing before a token. -/
def endsPair : TokenKind → Bool
  | .key | .value | .blockEnd => true
  | _ => false

mutual

/-- A node; `fuel` bounds the nesting and the number of parts. -/
def node : Nat → Place → Read NodeId
  | 0, _ => fail (.error .unsuitable)
  | fuel + 1, place => do
    let first ← peek
    match first.kind with
    | .aliasOf name =>
      let _ ← take
      aliased name first.start
    | _ =>
      let p ← properties
      let t ← peek
      match t.kind, place with
      | .blockEntry, { indentless := true, .. } => addSequence p (indentlessItems fuel)
      | .scalar text plain, _ =>
        let _ ← take
        addScalar p text plain
      | .flowSequenceStart, _ => addSequence p do
        let _ ← take
        flowItems fuel t.start true
      | .flowMappingStart, _ => addMapping p do
        let _ ← take
        flowPairs fuel t.start true
      | .blockSequenceStart, { block := true, .. } => addSequence p do
        let _ ← take
        blockItems fuel t.start
      | .blockMappingStart, { block := true, .. } => addMapping p do
        let _ ← take
        blockPairs fuel t.start
      | _, _ =>
        if p.anchor.isSome || p.tag.isSome then addScalar p "" true
        else
          fail (failIn ("while parsing a " ++ (if place.block then "block" else "flow") ++ " node")
            p.start ("expected the node content, but found " ++ named t) t.start)

/-- The items of a block sequence. -/
def blockItems : Nat → Mark → Read (List NodeId)
  | 0, _ => fail (.error .unsuitable)
  | fuel + 1, began => do
    let t ← take
    match t.kind with
    | .blockEntry =>
      let next ← peek
      let item ← match next.kind with
        | .blockEntry | .blockEnd => absent t.stop
        | _ => node fuel {}
      return item :: (← blockItems fuel began)
    | .blockEnd => return []
    | _ =>
      fail (failIn "while parsing a block collection" began
        ("expected <block end>, but found " ++ named t) t.start)

/-- The items of a sequence at the indentation around it. -/
def indentlessItems : Nat → Read (List NodeId)
  | 0 => fail (.error .unsuitable)
  | fuel + 1 => do
    let t ← peek
    match t.kind with
    | .blockEntry =>
      let _ ← take
      let next ← peek
      let item ← match next.kind with
        | .blockEntry | .key | .value | .blockEnd => absent t.stop
        | _ => node fuel {}
      return item :: (← indentlessItems fuel)
    | _ => return []

/-- The pairs of a block mapping. -/
def blockPairs : Nat → Mark → Read (List (NodeId × NodeId))
  | 0, _ => fail (.error .unsuitable)
  | fuel + 1, began => do
    let t ← take
    match t.kind with
    | .key =>
      let key ← if endsPair (← peek).kind then absent t.stop
        else node fuel { indentless := true }
      let next ← peek
      let v ← match next.kind with
        | .value => do
          let _ ← take
          if endsPair (← peek).kind then absent next.stop
          else node fuel { indentless := true }
        | _ => absent next.start
      return (key, v) :: (← blockPairs fuel began)
    | .blockEnd => return []
    | _ =>
      fail (failIn "while parsing a block mapping" began
        ("expected <block end>, but found " ++ named t) t.start)

/-- The items of a sequence in brackets. -/
def flowItems : Nat → Mark → Bool → Read (List NodeId)
  | 0, _, _ => fail (.error .unsuitable)
  | fuel + 1, began, first => do
    let t ← peek
    match t.kind, first with
    | .flowSequenceEnd, _ =>
      let _ ← take
      return []
    | .flowEntry, false =>
      let _ ← take
      flowItem fuel began
    | _, true => flowItem fuel began
    | _, false =>
      fail (failIn "while parsing a flow sequence" began
        ("expected ',' or ']', but got " ++ named t) t.start)

/-- An item of a sequence in brackets and those after it, or the end of the sequence. An item may be
a single pair. -/
def flowItem : Nat → Mark → Read (List NodeId)
  | 0, _ => fail (.error .unsuitable)
  | fuel + 1, began => do
    let t ← peek
    match t.kind with
    | .flowSequenceEnd =>
      let _ ← take
      return []
    | .key =>
      let pair ← addMapping { start := t.start } do
        let _ ← take
        let key ← match (← peek).kind with
          | .value | .flowEntry | .flowSequenceEnd => absent t.stop
          | _ => node fuel { block := false }
        let next ← peek
        let v ← match next.kind with
          | .value => do
            let _ ← take
            match (← peek).kind with
            | .flowEntry | .flowSequenceEnd => absent next.stop
            | _ => node fuel { block := false }
          | _ => absent next.start
        return [(key, v)]
      return pair :: (← flowItems fuel began false)
    | _ =>
      let item ← node fuel { block := false }
      return item :: (← flowItems fuel began false)

/-- The pairs of a mapping in braces. -/
def flowPairs : Nat → Mark → Bool → Read (List (NodeId × NodeId))
  | 0, _, _ => fail (.error .unsuitable)
  | fuel + 1, began, first => do
    let t ← peek
    match t.kind, first with
    | .flowMappingEnd, _ =>
      let _ ← take
      return []
    | .flowEntry, false =>
      let _ ← take
      flowPair fuel began
    | _, true => flowPair fuel began
    | _, false =>
      fail (failIn "while parsing a flow mapping" began
        ("expected ',' or '\x7d', but got " ++ named t) t.start)

/-- A pair of a mapping in braces and those after it, or the end of the mapping. -/
def flowPair : Nat → Mark → Read (List (NodeId × NodeId))
  | 0, _ => fail (.error .unsuitable)
  | fuel + 1, began => do
    let t ← peek
    match t.kind with
    | .flowMappingEnd =>
      let _ ← take
      return []
    | .key =>
      let _ ← take
      let key ← match (← peek).kind with
        | .value | .flowEntry | .flowMappingEnd => absent t.stop
        | _ => node fuel { block := false }
      let next ← peek
      let v ← match next.kind with
        | .value => do
          let _ ← take
          match (← peek).kind with
          | .flowEntry | .flowMappingEnd => absent next.stop
          | _ => node fuel { block := false }
        | _ => absent next.start
      return (key, v) :: (← flowPairs fuel began false)
    | _ =>
      let key ← node fuel { block := false }
      let v ← absent (← peek).start
      return (key, v) :: (← flowPairs fuel began false)

end

/-- Takes the marks of document ends; `fuel` bounds their number. -/
def skipEnds : Nat → Read Unit
  | 0 => return
  | fuel + 1 => do
    match (← peek).kind with
    | .documentEnd =>
      let _ ← take
      skipEnds fuel
    | _ => return

/-- Takes directives; one version and one meaning of each handle may be given. -/
def directives (version : Bool) (handles : List (String × String)) :
    Nat → Read (List (String × String))
  | 0 => return handles
  | fuel + 1 => do
    let t ← peek
    match t.kind with
    | .directive (.version major _) =>
      let _ ← take
      if version then fail (failAt "found duplicate YAML directive" t.start)
      else if major ≠ 1 then
        fail (failAt "found incompatible YAML document (version 1.* is required)" t.start)
      else directives true handles fuel
    | .directive (.tagHandle handle before) =>
      let _ ← take
      if (handles.lookup handle).isSome then
        fail (failAt ("duplicate tag handle " ++ Text.quoted handle) t.start)
      else directives version (handles ++ [(handle, before)]) fuel
    | .directive .other =>
      let _ ← take
      directives version handles fuel
    | _ => return handles

/-- The border of a document with the directives before it, and the place where it starts; nothing
at the end of the text. -/
def border (fuel : Nat) : Read (Option Mark) := do
  skipEnds fuel
  let first ← peek
  match first.kind with
  | .streamEnd => return none
  | _ =>
    let handles ← directives false [] fuel
    modify fun r => { r with handles := handles ++ standardHandles }
    let t ← take
    match t.kind with
    | .documentStart => return some first.start
    | _ =>
      fail (failAt ("expected '<document start>', but found " ++ named t) t.start)

/-- The node of a document behind its border. -/
def content (fuel : Nat) : Read NodeId := do
  let t ← peek
  match t.kind with
  | .directive _ | .documentStart | .documentEnd | .streamEnd => absent t.start
  | _ => node fuel {}

/-- The node of the one document of a text, if there is a document. -/
def document (fuel : Nat) : Read (Option NodeId) := do
  let first ← peek
  let root? ← match first.kind with
    | .directive _ | .documentStart | .streamEnd => do
      match ← border fuel with
      | none => pure none
      | some _ => some <$> content fuel
    | _ => do
      modify fun r => { r with handles := standardHandles }
      some <$> node fuel {}
  match root? with
  | none => return none
  | some root =>
    match ← border fuel with
    | none => return some root
    | some mark =>
      fail (failIn "expected a single document in the stream" (← startOf root)
        "but found another document" mark)

end Read

/-- Whether a text may hold a character. -/
def isAllowed (c : Char) : Bool :=
  let n := c.toNat
  n == 9 || n == 10 || n == 13 || (0x20 ≤ n && n ≤ 0x7E) || n == 0x85 || (0xA0 ≤ n && n ≤ 0xFFFD)
    || 0x10000 ≤ n

/-- The nodes of a text that is one document, and which of them is the root; there is none in an
empty text. -/
def nodes (cs : List Char) : Except Stop (Nodes × Option NodeId) :=
  match cs.findIdx? fun c => !isAllowed c with
  | some i => .error (.character (Text.letters (cs.take i)).length (cs[i]?.getD ' '))
  | none => do
    let (ts, stop) := tokens cs
    let (root?, r) ← (Read.document (3 * ts.length + 3)).run { tokens := ts, stop }
    return (r.nodes, root?)

end ApiScaffold.Yaml
