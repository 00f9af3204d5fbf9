import ApiScaffold.Command.Run

/-!
# The program

Reads the files that a request needs, does what it asks for (`Command.Run`), and writes what is new.

This is the one module that touches the disk. Arguments and files are spelt when they come in, and
what is printed or written is the characters that a text spells (`Text.Point`). A run works on a
tree of the files that may matter to it. Which further templates it asks for is only known from the
faults of a run without them, so a run is made again as long as the disk has one more.
-/

namespace ApiScaffold.Command

/-- What is printed for arguments that are no request. -/
def usage : String :=
  "usage: oasgen [-v] generate -g ID -i SPEC -o DIR [-t DIR] [-D KEY=VALUE] [--workers N]\n"
    ++ "       oasgen [-v] list\n"
    ++ "       oasgen [-v] config-help -g ID\n"

/-- The place of a path if all directories on its way are there. -/
def placeOf (path : Path) : Place :=
  path.names.foldl (fun place name => if name = ".." then FileTree.above place else place ++ [name])
    (FileTree.start path)

/-- The path of a place. -/
def pathOf (place : Place) : Path where
  absolute := place.head? = some "/"
  names := place.filter (· ≠ "/")

/-- The tree with a file from the disk, if it is there. -/
def addFromDisk (files : FileTree) (path : Path) : IO FileTree := do
  match ← (IO.FS.readBinFile (Text.plain path.toString)).toBaseIO with
  | .error _ => return files
  | .ok bytes =>
    let content := match String.fromUTF8? bytes with
      | some s => FileContent.text (Text.spelt s)
      | none => .bytes
    return { files with files := FileTree.put files.files (placeOf path) content }

/-- The files that matter to a run: the document, the patterns of ignored paths, and what may stand
before a built-in template. -/
def sources (job : Job) : List Path :=
  let templates := match job.templates? with
    | none => []
    | some folder => Template.Builtin.all.map fun entry =>
      (Path.ofString entry.file).under (Path.ofString folder)
  Path.ofString job.input
    :: (Path.ofString IgnoreRules.fileName).under (Path.ofString job.output) :: templates

/-- The path of a template that a run asks for and that is not at hand. -/
def missingTemplate? (job : Job) : Failure → Option Path
  | .render _ (.missingInclude _ name) =>
    job.templates?.map fun folder => (Path.ofString name).under (Path.ofString folder)
  | _ => none

/-- Makes a run over the files at hand, and makes it again as long as the disk has further templates
that it asks for. -/
partial def generateFromDisk (files : FileTree) (job : Job) : IO (FileTree × Effect) := do
  let effect := generate .asGiven Source.offline files job
  let more ← (effect.faults.filterMap (missingTemplate? job)).foldlM addFromDisk files
  if more.files.length > files.files.length then generateFromDisk more job
  else return (files, effect)

/-- Puts a text in the place of a file, making the directories above it. -/
def writeToDisk (place : Place) (text : String) : IO Unit := do
  let path := pathOf place
  IO.FS.createDirAll (Text.plain path.parent.toString)
  let draft := { path with names := path.parent.names ++ ["." ++ path.name ++ ".tmp"] }
  IO.FS.writeFile (Text.plain draft.toString) (Text.plain text)
  IO.FS.rename (Text.plain draft.toString) (Text.plain path.toString)

/-- Does what a request asks for, and leaves on the disk what it leaves. -/
def perform (request : Request) : IO Effect := do
  let start : FileTree := { files := [], directories := [] }
  match request with
  | .generate job =>
    let files ← (sources job).foldlM addFromDisk start
    let (files, effect) ← generateFromDisk files job
    for (place, content) in (effect.files.since files).files do
      match content with
      | .text s => writeToDisk place s
      | .bytes => pure ()
    return effect
  | other => return other.run .asGiven Source.offline start

end ApiScaffold.Command

open ApiScaffold ApiScaffold.Command in
/-- Reads the arguments, shows what the request comes to and gives its exit status. -/
def main (args : List String) : IO UInt32 := do
  match Invocation.ofArguments? (args.map Text.spelt) with
  | none =>
    (← IO.getStderr).putStr usage
    return 2
  | some invocation =>
    let effect ← perform invocation.request
    for line in effect.diagnostics invocation.verbose do
      (← IO.getStderr).putStrLn (Text.plain line)
    for line in effect.printed do
      (← IO.getStdout).putStrLn (Text.plain line)
    match effect.status with
    | .ok status => return status.toUInt32
    | .error _ => return 3
