import ApiScaffold.Document.Value

/-!
# Copies of values

A set says which elements it has and not in which order they are met: that depends on how it was
made. A value of this library writes its sets in the order in which they are met, and whatever makes
a set takes that order from a `SetOrder`. There are two ways to make one: to build it from the keys
of a text, and to copy another. Both only permute the elements, and nothing else is known of them,
so what is shown for every `SetOrder` holds whatever the order of sets is.

A run works on a copy of its document. Lists and mappings keep their order when they are copied, so
the copy is the document itself but for the order of the elements of its sets.
-/

namespace ApiScaffold

/-- The order in which the elements of sets are met. -/
structure SetOrder where
  /-- The order in a set that is built from elements one after the other. -/
  built : List Value → List Value
  /-- The order in the copy of a set, from that in the set. -/
  copied : List Value → List Value
  built_perm (elements : List Value) : (built elements).Perm elements
  copied_perm (elements : List Value) : (copied elements).Perm elements

/-- The order in which the elements were given. -/
def SetOrder.asGiven : SetOrder where
  built := id
  copied := id
  built_perm _ := .refl _
  copied_perm _ := .refl _

namespace Value

mutual

/-- The copy of a value. -/
def copy (order : SetOrder) : Value → Value
  | .list items => .list (copyItems order items)
  | .pair a b => .pair (copy order a) (copy order b)
  | .set elements => .set (order.copied elements)
  | .map members => .map (copyMembers order members)
  | v => v

def copyItems (order : SetOrder) : List Value → List Value
  | [] => []
  | x :: xs => copy order x :: copyItems order xs

def copyMembers (order : SetOrder) : List (Value × Value) → List (Value × Value)
  | [] => []
  | (k, v) :: rest => (k, copy order v) :: copyMembers order rest

end

end Value

end ApiScaffold
