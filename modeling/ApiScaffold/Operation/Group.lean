import ApiScaffold.Operation.Basic
import ApiScaffold.Spec
import ApiScaffold.Target.Names
import ApiScaffold.Text.Case

/-!
# Groups of operations

Method names that do not repeat in a group, and the groups of operations that share a class.

Repeated names are told apart in two passes: first by the method of the operation, then by number,
both by counting the earlier operations with the same name. A pass counts the names as they were
before it, so a name that it makes may be one that another operation has already.
-/

namespace ApiScaffold

/-- A method name within its group. -/
structure NicknameKey where
  group : Value
  nickname : String

namespace NicknameKey

def eq (a b : NicknameKey) : Bool := a.group.keyEq b.group && a.nickname == b.nickname

end NicknameKey

namespace Operation

def key (op : Operation) : NicknameKey := { group := op.group, nickname := op.nickname }

/-- Renames each operation by the number of earlier ones with its key; `earlier` holds their keys as
they were. -/
def renameByCount (rename : Operation → Nat → Operation) (earlier : List NicknameKey) :
    List Operation → List Operation
  | [] => []
  | op :: rest =>
    rename op (earlier.countP (op.key.eq ·)) :: renameByCount rename (op.key :: earlier) rest

/-- A repeated name gets the method of its operation. -/
def appendMethod (op : Operation) (repeats : Nat) : Operation :=
  if repeats = 0 then op
  else { op with nickname := op.nickname ++ Text.capitalize op.httpMethod }

/-- A repeated name gets its number. -/
def appendNumber (op : Operation) (repeats : Nat) : Operation :=
  if repeats = 0 then op
  else { op with nickname := op.nickname ++ toString (repeats + 1) }

/-- Tells apart operations of one group and name: first by their method, then by number. -/
def distinguish (ops : List Operation) : List Operation :=
  renameByCount appendNumber [] (renameByCount appendMethod [] ops)

/-- The same for operations whose groups may be anything; a group that is no key stops it. -/
def distinguishAll (ops : List Operation) : Attempt (List Operation) :=
  if ops.all (·.group.isKey) then .ok (distinguish ops) else .error .unsuitable

end Operation

namespace OperationGroup

/-- The groups of operations in the order of their names; each keeps the order of its
operations. -/
def ofOperations (ops : List Operation) : Attempt (List OperationGroup) :=
  if ops.all fun op => op.group.asStr?.isSome then
    .ok ((Target.sortedSet (ops.filterMap (·.group.asStr?))).map fun name =>
      let members := ops.filter fun op => op.group.asStr? = some name
      { name
        className := Target.apiName name
        operations := members
        imports := Target.sortedSet (members.flatMap Operation.imports) })
  else .error .unsuitable

end OperationGroup

end ApiScaffold
