import ApiScaffold.Document.Value

/-!
# Routes into values

A route leads from a value to one inside it by the numbers of the parts that it goes through: items
of a list, the two parts of a pair, values of members. Unlike a pointer it tells apart members whose
keys are no texts, and it goes through lists.

Values are trees. A mapping that a text has at several places, by an alias, is written out at each
of them, and the routes to these places are kept beside the tree where it matters that they are one.
`Value.changeAt` is what a change of the one mapping does to the tree.

The one mapping that a run changes in its place is that of the components of a document. A `Twin` is
another place of it. It stands under another key: a mapping that stands inside itself has no end,
and a document with such a mapping is not accepted.
-/

namespace ApiScaffold

/-- The numbers of the parts on the way from a value to one inside it. -/
abbrev Route := List Nat

namespace Value

/-- A value in which what stands at the end of a route is changed. A route that leads nowhere
changes nothing. -/
def changeAt (change : Value → Value) : Route → Value → Value
  | [], v => change v
  | n :: rest, .list items => .list (items.modify n fun v => changeAt change rest v)
  | n :: rest, .map members =>
    .map (members.modify n fun m => (m.1, changeAt change rest m.2))
  | 0 :: rest, .pair a b => .pair (changeAt change rest a) b
  | 1 :: rest, .pair a b => .pair a (changeAt change rest b)
  | _ :: _, v => v

mutual

/-- The routes to the places where a value has no end. -/
def endlessRoutes : Value → List Route
  | .again _ => [[]]
  | .list items => endlessRoutesOfItems 0 items
  | .pair a b => (endlessRoutes a).map (0 :: ·) ++ (endlessRoutes b).map (1 :: ·)
  | .map members => endlessRoutesOfMembers 0 members
  | _ => []

def endlessRoutesOfItems (n : Nat) : List Value → List Route
  | [] => []
  | v :: rest => (endlessRoutes v).map (n :: ·) ++ endlessRoutesOfItems (n + 1) rest

def endlessRoutesOfMembers (n : Nat) : List (Value × Value) → List Route
  | [] => []
  | (_, v) :: rest => (endlessRoutes v).map (n :: ·) ++ endlessRoutesOfMembers (n + 1) rest

end

/-- Whether a value has an end everywhere. -/
def isFinite (v : Value) : Bool := v.endlessRoutes.isEmpty

end Value

/-- A place of the mapping of components under another key of the document. -/
structure Twin where
  key : Value
  /-- The way from the value under the key. -/
  route : Route
  apart : key.keyEq (.str "components") = false

end ApiScaffold
