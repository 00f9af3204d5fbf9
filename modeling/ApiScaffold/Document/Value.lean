import ApiScaffold.Document.Moment
import ApiScaffold.Number.Binary64
import ApiScaffold.Text.Point

/-!
# Values of a document

A value is a scalar, a list, a pair, a set or a mapping (`Value`). The members of a mapping keep
their order; their keys are scalars, compared by value, so that `true`, `1` and `1.0` are one key
(`keyEq`).

Three things besides matter wherever something is said of all documents.

* A `pair` is an item of a list of pairs or of an ordered mapping, as YAML can ask for them. Walks
  over lists and mappings, among them the one that checks references, do not enter it.
* A mapping that an alias puts at several places is written out at each of them. That matters where
  a mapping is changed in its place, which happens to that of the components only: its other places
  are kept as routes beside the document (`Document.Route`).
* A set is written in the order in which its elements are met. That order depends on how the set was
  made and changes when it is copied; it comes from a `SetOrder` (`Document.Copy`).

A value that stands inside itself has no end. Its tree is cut off there by `again`, and no document
that is accepted holds one.
-/

namespace ApiScaffold

/-- A value of a document. -/
inductive Value where
  | null
  | bool (b : Bool)
  | int (n : Int)
  | float (x : Binary64)
  | str (s : String)
  | bytes (bs : List UInt8)
  | date (d : Day)
  | moment (m : Moment)
  | list (items : List Value)
  /-- Two values as one item of a list. A walk over lists and mappings does not enter it. -/
  | pair (first second : Value)
  /-- A set by its elements, which are keys. -/
  | set (elements : List Value)
  | map (members : List (Value × Value))
  /-- The list or mapping around this place that stands here again: a value without an end. No
  document that is accepted holds one. -/
  | again (isMapping : Bool)
deriving Inhabited

/-- The members of a mapping in order. -/
abbrev Members := List (Value × Value)

namespace Value

mutual

/-- How many values stand inside each other. -/
def depth : Value → Nat
  | .list items => 1 + depthOfItems items
  | .pair a b => 1 + max (depth a) (depth b)
  | .map members => 1 + depthOfMembers members
  | _ => 0

def depthOfItems : List Value → Nat
  | [] => 0
  | x :: xs => max (depth x) (depthOfItems xs)

def depthOfMembers : List (Value × Value) → Nat
  | [] => 0
  | (_, x) :: xs => max (depth x) (depthOfMembers xs)

end

mutual

/-- The number of values that a walk over lists and mappings comes to, the value itself included. -/
def nodeCount : Value → Nat
  | .list items => 1 + nodeCountItems items
  | .map members => 1 + nodeCountMembers members
  | _ => 1

def nodeCountItems : List Value → Nat
  | [] => 0
  | x :: xs => nodeCount x + nodeCountItems xs

def nodeCountMembers : List (Value × Value) → Nat
  | [] => 0
  | (_, x) :: xs => nodeCount x + nodeCountMembers xs

end

/-- The exact value of a boolean, an integer or a finite number, as a ratio. -/
def ratio? : Value → Option (Int × Nat)
  | .bool b => some (if b then 1 else 0, 1)
  | .int n => some (n, 1)
  | .float x => x.toRatio?
  | _ => none

/-- Whether two values are one key. -/
def keyEq : Value → Value → Bool
  | .null, .null => true
  | .str a, .str b => a == b
  | .bytes a, .bytes b => a == b
  | .date a, .date b => a == b
  | .moment a, .moment b => a.sameInstant b
  | .float x, .float y => x.sameValue y
  | x, y => match x.ratio?, y.ratio? with
    | some (a, b), some (c, d) => a * Int.ofNat d == c * Int.ofNat b
    | _, _ => false

mutual

/-- Equality of values; the order of members counts, that of the elements of a set does not. -/
def same : Value → Value → Bool
  | .null, .null => true
  | .bool a, .bool b => a == b
  | .int a, .int b => a == b
  | .float a, .float b => a == b
  | .str a, .str b => a == b
  | .bytes a, .bytes b => a == b
  | .date a, .date b => a == b
  | .moment a, .moment b => a == b
  | .list xs, .list ys => sameItems xs ys
  | .pair a b, .pair c d => same a c && same b d
  | .set xs, .set ys => xs.length == ys.length && xs.all fun x => ys.any x.keyEq
  | .map xs, .map ys => sameMembers xs ys
  | .again a, .again b => a == b
  | _, _ => false

def sameItems : List Value → List Value → Bool
  | [], [] => true
  | x :: xs, y :: ys => same x y && sameItems xs ys
  | _, _ => false

def sameMembers : List (Value × Value) → List (Value × Value) → Bool
  | [], [] => true
  | (a, x) :: xs, (b, y) :: ys => same a b && same x y && sameMembers xs ys
  | _, _ => false

end

/-- Whether a value can be a key. Pairs are not taken for keys here. -/
def isKey : Value → Bool
  | .list _ | .pair _ _ | .set _ | .map _ | .again _ => false
  | _ => true

def isMap : Value → Bool
  | .map _ => true
  | .again isMapping => isMapping
  | _ => false

/-- Nothing, zero and what is empty count as false. -/
def isTruthy : Value → Bool
  | .null => false
  | .bool b => b
  | .int n => n != 0
  | .float x => x.isTruthy
  | .str s => s != ""
  | .bytes bs => !bs.isEmpty
  | .date _ | .moment _ | .pair _ _ | .again _ => true
  | .list items => !items.isEmpty
  | .set elements => !elements.isEmpty
  | .map members => !members.isEmpty

/-- The name of a value's kind, as messages give it. -/
def kindName : Value → String
  | .null => "NoneType"
  | .bool _ => "bool"
  | .int _ => "int"
  | .float _ => "float"
  | .str _ => "str"
  | .bytes _ => "bytes"
  | .date _ => "date"
  | .moment _ => "datetime"
  | .list _ | .again false => "list"
  | .pair _ _ => "tuple"
  | .set _ => "set"
  | .map _ | .again true => "dict"

/-- What iteration over a value yields: items, elements, the letters of a text, the numbers of
bytes, or keys. No step goes through a pair, which is an item already. -/
def elements? : Value → Option (List Value)
  | .str s => some ((Text.letters s.toList).map fun letter => .str (String.ofList letter))
  | .bytes bs => some (bs.map fun b => .int (Int.ofNat b.toNat))
  | .list items => some items
  | .set elements => some elements
  | .map members => some (members.map Prod.fst)
  | _ => none

def emptyMap : Value := .map []

end Value

namespace Members

/-- The value under a key. -/
def find? (members : Members) (key : Value) : Option Value :=
  (List.find? (fun member => member.1.keyEq key) members).map Prod.snd

/-- The value under a textual key. -/
def get? : Members → String → Option Value
  | [], _ => none
  | (.str k, v) :: rest, key => if k = key then some v else get? rest key
  | _ :: rest, key => get? rest key

def has (members : Members) (key : String) : Bool := (members.get? key).isSome

/-- The value under a textual key, or nothing. -/
def getD (members : Members) (key : String) (default : Value) : Value :=
  (members.get? key).getD default

/-- Puts a value under a key: in the place of the key's value, or at the end. -/
def insert : Members → Value → Value → Members
  | [], key, v => [(key, v)]
  | (k, old) :: rest, key, v =>
    if k.keyEq key then (k, v) :: rest else (k, old) :: insert rest key v

/-- The members that are given in order. -/
def collect (given : List (Value × Value)) : Members :=
  given.foldl (fun members m => members.insert m.1 m.2) []

/-- The members without a textual key. -/
def erase (members : Members) (key : String) : Members :=
  List.filter (fun member => !member.1.keyEq (.str key)) members

end Members

namespace Value

/-- The value under a textual key of a mapping. -/
def get? : Value → String → Option Value
  | .map members, key => Members.get? members key
  | _, _ => none

/-- Whether a mapping has a textual key. -/
def has (v : Value) (key : String) : Bool := (v.get? key).isSome

/-- A text as a value of the domain, if it is one. -/
def asStr? : Value → Option String
  | .str s => some s
  | _ => none

end Value

end ApiScaffold
