import ApiScaffold.Document.Json
import ApiScaffold.Document.Yaml.Meaning
import ApiScaffold.Generator.Normal
import ApiScaffold.Log
import ApiScaffold.Output.FileTree
import ApiScaffold.Text.Kind

/-!
# Sources of documents

Where documents come from: files and addresses on the web. What is not JSON by its name or its first
character is YAML. What the web answers is a parameter (`Fetch`), and so is the order in which the
elements of sets are met.

A document is accepted after a fixed order of tests (`load`): its text has a value, the rules for
documents hold (`Spec.ofValue`), and not too many lists and mappings stand inside each other. The
twins of its components come with it, since only the text tells where they are.
-/

namespace ApiScaffold.Source

/-- What an address answers: a text, or why there is none. -/
abbrev Fetch := String → Except String String

/-- The answer where there is no way to the web. -/
def offline : Fetch := fun _ => .error "[Errno -3] Temporary failure in name resolution"

/-- What an address on the web starts with. -/
def schemes : List String := ["http://", "https://"]

def isAddress (location : String) : Bool := schemes.any fun scheme => location.startsWith scheme

/-- Whether a text is read as JSON. -/
def isJson (source text : String) : Bool :=
  source.endsWith ".json" || (text.toList.dropWhile Text.isBlank).head? == some '\x7b'

/-- What follows from a text without a value: it is malformed if there is an account of that. -/
def unread (source : String) (account? : Option String) : Failure :=
  match account? with
  | some detail => .spec (.unparsable source detail)
  | none => .unsuitable

/-- The value that a text stands for, with the twins of its components. -/
def read (order : SetOrder) (source text : String) : Attempt (Value × List Twin) :=
  if isJson source text then
    match Json.read text with
    | .ok value => .ok (value, [])
    | .error stop => .error (unread source (stop.account? text.toList))
  else (Yaml.read order text).mapError fun stop => unread source (stop.account? text.toList)

/-- The text of a file; all line ends in it become line feeds. -/
def fileText (tree : FileTree) (location : String) : Attempt String :=
  let path := Path.ofString location
  if path.isUnnameable then .error .unsuitable
  else match tree.read path with
    | .ok (.text s) => .ok (String.ofList (Text.plainLineEnds s.toList))
    | .ok .bytes => .error .unsuitable
    | .error refusal =>
      .error (.spec (.unreadable location
        (refusal.message ++ ": " ++ Text.quoted path.toString)))

/-- The text at a location. -/
def text (fetch : Fetch) (tree : FileTree) (location : String) : Attempt String :=
  if isAddress location then
    match fetch location with
    | .ok s => .ok s
    | .error detail => .error (.spec (.unfetchable location detail))
  else fileText tree location

/-- How many lists and mappings of a document may stand inside each other. -/
def maxDepth : Nat := 490

/-- The document at a location, if it is acceptable. -/
def load (order : SetOrder) (fetch : Fetch) (tree : FileTree) (location : String) :
    Logged Loaded := do
  let s ← text fetch tree location
  Logged.report .info .loader ("Loaded spec from " ++ location)
  let (value, twins) ← read order location s
  let spec ← Spec.ofValue value location
  if maxDepth < value.depth then .ofAttempt (.error .unsuitable) else return { spec, twins }

end ApiScaffold.Source
