import ApiScaffold.Document.Value

/-!
# The order of keys

Numbers, texts, bytes, days and moments are ordered among themselves, and so are moments on clocks
that tell how far they are ahead; nothing orders one of these with another. So a mapping has an
order of its keys only if they are all of one kind (`sortable`), and `sorted?` gives none otherwise.

The order of texts is that of their code points, which is the order of strings here (see
`Text.Point`).
-/

namespace ApiScaffold

namespace Value

/-- The rank of a kind among keys that can be ordered with each other. -/
def orderKind? : Value → Option Nat
  | .bool _ | .int _ | .float _ => some 0
  | .str _ => some 1
  | .date _ => some 2
  | .moment m => some (if m.ahead?.isSome then 3 else 4)
  | .bytes _ => some 5
  | _ => none

/-- Whether one key stands before another of its kind. -/
def keyLess : Value → Value → Bool
  | .str a, .str b => a < b
  | .date a, .date b => a.number < b.number
  | .moment a, .moment b => a.instant < b.instant
  | .bytes a, .bytes b => a < b
  | .float x, .float y => x.less y
  | .float (.infinite negative), _ => negative
  | _, .float (.infinite negative) => !negative
  | x, y => match x.ratio?, y.ratio? with
    | some (a, b), some (c, d) => a * Int.ofNat d < c * Int.ofNat b
    | _, _ => false

end Value

namespace Members

/-- Whether the keys can be ordered: there are fewer than two, or all are of one ordered kind. -/
def sortable : Members → Bool
  | [] => true
  | [_] => true
  | (key, _) :: rest =>
    key.orderKind?.isSome && rest.all fun member => member.1.orderKind? == key.orderKind?

/-- The members in the order of their keys, if there is one. -/
def sorted? (members : Members) : Option Members :=
  if sortable members then some (List.mergeSort members fun a b => !b.1.keyLess a.1) else none

end Members

end ApiScaffold
