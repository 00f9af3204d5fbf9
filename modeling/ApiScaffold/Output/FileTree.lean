import ApiScaffold.Output.Path
import ApiScaffold.Text.Quoted

/-!
# Trees of files

Files below a directory: reading, and writing that puts a whole file in place at once. A directory
above a file is there without being listed; what lies outside of the tree is a place that starts by
leading upwards or at the root.

The file system's refusals are part of the model (`Refusal`): a name that is too long, a file where
a directory is needed and the like, in the order in which the steps of a path meet them. A write
makes the directories above the file first, and those stay when the write itself is refused.
-/

namespace ApiScaffold

/-- What a file holds: text, or bytes that are no text. -/
inductive FileContent where
  | text (s : String)
  | bytes
deriving DecidableEq

/-- The text that a file holds, if it holds one. -/
def FileContent.text? : FileContent → Option String
  | text s => some s
  | bytes => none

/-- Why the file system refuses. -/
inductive Refusal where
  | noEntry
  | isDirectory
  | notDirectory
  | exists
  | nameTooLong
deriving DecidableEq

/-- The number and wording of a refusal. -/
def Refusal.message : Refusal → String
  | noEntry => "[Errno 2] No such file or directory"
  | isDirectory => "[Errno 21] Is a directory"
  | notDirectory => "[Errno 20] Not a directory"
  | .exists => "[Errno 17] File exists"
  | nameTooLong => "[Errno 36] File name too long"

/-- A place in the tree: the names from its root. What lies outside starts with a name that leads
upwards or with a slash. -/
abbrev Place := List String

/-- Files and directories. A directory above a file is there without being listed. -/
structure FileTree where
  files : List (Place × FileContent)
  directories : List Place

namespace FileTree

def file? (tree : FileTree) (place : Place) : Option FileContent := tree.files.lookup place

/-- Whether a place is outside of what the tree describes. -/
def isOutside (place : Place) : Bool := place == ["/"] || place.all (· == "..")

/-- Whether a place is a directory. -/
def isDirectory (tree : FileTree) (place : Place) : Bool :=
  isOutside place || tree.directories.contains place
    || tree.files.any fun f => place.isPrefixOf f.1 && place.length < f.1.length

/-- The place one step up. -/
def above (place : Place) : Place :=
  match place.getLast? with
  | none | some ".." => place ++ [".."]
  | some "/" => place
  | some _ => place.dropLast

/-- The most bytes that a name may have. -/
def maxNameBytes : Nat := 255

/-- What stands at a place that is no directory. -/
def refusalAt (tree : FileTree) (place : Place) : Refusal :=
  if (tree.file? place).isSome then .notDirectory else .noEntry

/-- The place of names from a place on, each of which but the last has to be in a directory. -/
def locateFrom (tree : FileTree) : Place → List String → Except Refusal Place
  | place, [] => .ok place
  | place, name :: rest =>
    if !tree.isDirectory place then .error (tree.refusalAt place)
    else if Text.byteCount name > maxNameBytes then .error .nameTooLong
    else if name = ".." then locateFrom tree (above place) rest
    else locateFrom tree (place ++ [name]) rest

/-- The place where a path starts. -/
def start (path : Path) : Place := if path.absolute then ["/"] else []

def locate (tree : FileTree) (path : Path) : Except Refusal Place :=
  tree.locateFrom (start path) path.names

/-- The content of a file. -/
def read (tree : FileTree) (path : Path) : Except Refusal FileContent := do
  let place ← tree.locate path
  match tree.file? place with
  | some content => return content
  | none => if tree.isDirectory place then .error .isDirectory else .error .noEntry

/-- Whether a path leads to a file. -/
def isFile (tree : FileTree) (path : Path) : Bool :=
  match tree.read path with
  | .ok _ => true
  | .error _ => false

/-- The tree with the directories on the way of names, as far as they can be made, and the place
where the way ends. -/
def makeFrom (tree : FileTree) : Place → List String → FileTree × Except Refusal Place
  | place, [] => (tree, .ok place)
  | place, name :: rest =>
    if name = ".." then makeFrom tree (above place) rest
    else
      let next := place ++ [name]
      if tree.isDirectory next then makeFrom tree next rest
      else if (tree.file? next).isSome then (tree, .error .exists)
      else if Text.byteCount name > maxNameBytes then (tree, .error .nameTooLong)
      else makeFrom { tree with directories := tree.directories ++ [next] } next rest

/-- The name under which a file is written before it is put in place has so many bytes more. -/
def temporaryBytes : Nat := 14

/-- Gives a place a content. -/
def put (files : List (Place × FileContent)) (place : Place) (content : FileContent) :
    List (Place × FileContent) :=
  match files with
  | [] => [(place, content)]
  | (p, old) :: rest =>
    if p = place then (p, content) :: rest else (p, old) :: put rest place content

/-- Writes a file, making the directories above it; a directory is not replaced. -/
def write (tree : FileTree) (path : Path) (text : String) : FileTree × Except Refusal Unit :=
  match tree.makeFrom (start path) path.parent.names with
  | (tree, .error refusal) => (tree, .error refusal)
  | (tree, .ok folder) =>
    if Text.byteCount path.name + temporaryBytes > maxNameBytes then (tree, .error .nameTooLong)
    else match tree.locateFrom folder [path.name] with
      | .error refusal => (tree, .error refusal)
      | .ok place =>
        if tree.isDirectory place then (tree, .error .isDirectory)
        else ({ tree with files := put tree.files place (.text text) }, .ok ())

/-- The files below a directory, each with its path from there. -/
def below (tree : FileTree) (folder : Path) : List (String × FileContent) :=
  match tree.locate folder with
  | .error _ => []
  | .ok place => (tree.files.filter fun f => place.isPrefixOf f.1).map fun f =>
    (String.intercalate "/" (f.1.drop place.length), f.2)

/-- The files that another tree lacks or has with another content. -/
def since (tree before : FileTree) : FileTree :=
  { tree with files := tree.files.filter fun f => before.file? f.1 ≠ some f.2 }

/-- The files inside the tree with their paths in order. -/
def listing (tree : FileTree) : List (String × FileContent) :=
  ((tree.files.filter fun f => f.1.head? != some ".." && f.1.head? != some "/").map fun f =>
    (String.intercalate "/" f.1, f.2)).mergeSort fun a b => !(b.1 < a.1)

end FileTree

end ApiScaffold
