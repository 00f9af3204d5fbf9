import ApiScaffold.Document.Value
import ApiScaffold.Text.Split

/-!
# Pointers

A pointer gives the keys on the way from the root of a document, separated by slashes; `~1` stands
for a slash in a key and `~0` for a tilde. References into the document are pointers behind a mark.

The two escapes are undone in the order in which they are told apart: `~1` first, then `~0`, so that
`~01` is the key `~1`. `Proofs.Document.Pointer` shows that every way of keys has a pointer that
leads back to it.
-/

namespace ApiScaffold.Pointer

/-- A key as one segment of a pointer. -/
def escape : List Char → List Char
  | [] => []
  | c :: rest =>
    if c = '~' then '~' :: '0' :: escape rest
    else if c = '/' then '~' :: '1' :: escape rest
    else c :: escape rest

/-- The key that a segment stands for. -/
def unescape (segment : List Char) : List Char :=
  Text.replacePair '~' '0' '~' (Text.replacePair '~' '1' '/' segment)

/-- The keys of a pointer without its mark. -/
def keys (body : List Char) : List String :=
  (Text.splitOn '/' body).map fun segment => String.ofList (unescape segment)

/-- What stands at the end of the way that keys describe. -/
def follow : Value → List String → Option Value
  | v, [] => some v
  | v, key :: rest => match v.get? key with
    | some next => follow next rest
    | none => none

/-- The last key of a reference. -/
def lastKey (reference : String) : String :=
  String.ofList (unescape (Text.afterLast '/' reference.toList))

/-- The body of a reference into the document itself. -/
def body? (reference : String) : Option (List Char) :=
  match reference.toList with
  | '#' :: '/' :: rest => some rest
  | _ => none

/-- The pointer to the end of a way of keys. -/
def ofKeys (ks : List String) : String :=
  String.ofList ('#' :: '/' :: Text.joinWith ['/'] (ks.map fun k => escape k.toList))

end ApiScaffold.Pointer
