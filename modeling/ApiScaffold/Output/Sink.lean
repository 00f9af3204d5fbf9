import ApiScaffold.Log
import ApiScaffold.Output.FileTree
import ApiScaffold.Output.Ignore

/-!
# Where files go

A run puts its files in memory or below a directory of a tree. Both have patterns of paths that are
never written; in a directory a file holds them, which a run may write itself, so they are read when
they are needed.

One write leaves all files as they are if it fails. Several are made one after the other
(`writeAll`), and a failure leaves what was written before it.

A text with a lone half cannot be written as bytes; that is found out when its turn comes and not
before.
-/

namespace ApiScaffold

inductive Sink where
  /-- Texts by relative path, with fixed patterns. -/
  | memory (files : List (String × String)) (rules : IgnoreRules)
  /-- Files below a directory, with the patterns that a file there holds. -/
  | directory (root : Path) (tree : FileTree)

namespace Sink

/-- Gives a path a text, in its place if it has one. -/
def putText : List (String × String) → String → String → List (String × String)
  | [], path, text => [(path, text)]
  | (p, old) :: rest, path, text =>
    if p = path then (p, text) :: rest else (p, old) :: putText rest path text

/-- The patterns that hold at present. -/
def rules : Sink → Attempt IgnoreRules
  | memory _ rules => .ok rules
  | directory root tree =>
    match tree.read ((Path.ofString IgnoreRules.fileName).under root) with
    | .ok (.text s) => .ok (IgnoreRules.ofText s)
    | .ok .bytes => .error .unsuitable
    | .error .nameTooLong => .error .system
    | .error _ => .ok { patterns := [] }

/-- Writes a text under a relative path. A failure leaves all files as they are, and so does a text
that holds more than characters. -/
def write (sink : Sink) (path text : String) : Sink × Logged Unit :=
  if text.any Text.isHalf then (sink, Logged.ofAttempt (.error .unsuitable))
  else match sink with
  | memory files rules => (memory (putText files path text) rules, pure ())
  | directory root tree =>
    let target := (Path.ofString path).under root
    if target.isUnnameable then (sink, Logged.ofAttempt (.error .unsuitable))
    else match tree.write target text with
      | (tree, .ok _) =>
        (directory root tree, Logged.report .info .writer ("Wrote " ++ target.toString))
      | (tree, .error _) => (directory root tree, Logged.ofAttempt (.error .system))

/-- Writes texts in order up to the first that fails, and tells their paths. -/
def writeAll (sink : Sink) : List (String × String) → Sink × Logged (List String)
  | [] => (sink, pure [])
  | (path, text) :: rest =>
    let (sink, written) := sink.write path text
    match written.result with
    | .error failure => (sink, { log := written.log, result := .error failure })
    | .ok _ =>
      let (sink, more) := sink.writeAll rest
      (sink, { log := written.log ++ more.log, result := (path :: ·) <$> more.result })

/-- The text under a relative path. -/
def text (sink : Sink) (path : String) : Attempt String :=
  match sink with
  | memory files _ => require (files.lookup path)
  | directory root tree =>
    let target := (Path.ofString path).under root
    if target.isUnnameable then .error .unsuitable
    else match tree.read target with
      | .ok (.text s) => .ok s
      | .ok .bytes => .error .unsuitable
      | .error _ => .error .system

/-- The relative paths of all files, in order. -/
def listing : Sink → List String
  | memory files _ => (files.map Prod.fst).mergeSort fun a b => !(b < a)
  | directory root tree =>
    let start := String.join (root.names.map (· ++ "/"))
    (tree.listing.map Prod.fst).filterMap fun path =>
      if path.startsWith start then some (String.ofList (path.toList.drop start.length)) else none

end Sink

end ApiScaffold
