import ApiScaffold.Failure

/-!
# Templates

Text with expressions, branches and loops in it. The built-in templates are values of these types,
and the templates that are given to a run are read into them.

Not every operation of the template language is carried out. One that is not stands as `beyond`,
with its operands, since what they lack may show before it is reached; so a template can be read,
checked and found faulty although its text is not described here. A filter that does not exist is
kept by its name, because it is a fault only where it is met.
-/

namespace ApiScaffold.Template

/-- What an expression passes a value through. -/
inductive Filter where
  | snake
  | camelToSnake
  | pascal
  | lowerFirst
  | constant
  /-- JSON that is safe inside markup. -/
  | json
  /-- The items as text with a separator between them. -/
  | joined (separator : String)
  /-- The same field of every item. -/
  | fields (key : String)
  /-- The items with a certain text at the end of a way of fields. -/
  | whereEquals (way : List String) (text : String)
  /-- The part of a text before the last separator. -/
  | beforeLast (separator : Char)
  /-- The part of a text after the last separator. -/
  | afterLast (separator : Char)
  /-- A filter that does not exist, named at a line. -/
  | unknown (name : String) (line : Nat)

inductive Expr where
  | name (x : String)
  | literal (v : Value)
  /-- Nothing, with the report of why. -/
  | absent (binding : MissingBinding)
  | field (e : Expr) (key : String)
  | item (e index : Expr)
  | either (a b : Expr)
  | both (a b : Expr)
  | negate (e : Expr)
  | choose (condition yes no : Expr)
  | equal (a b : Expr)
  | among (a b : Expr)
  | filtered (e : Expr) (f : Filter)
  /-- The operands of an operation of a kind that can be written but is not carried out. -/
  | beyond (kind : String) (a b : Expr)

namespace Expr

/-- An operation that is not carried out, with any number of operands. -/
def beyondAll (kind : String) : List Expr → Expr
  | [] => .beyond kind (.literal .null) (.literal .null)
  | operands => operands.foldr (.beyond kind) (.literal .null)

/-- The kind of an expression, as reports name it. -/
def kind : Expr → String
  | .name _ => "name"
  | .literal (.list _) => "list"
  | .literal (.map _) => "dict"
  | .literal _ | .absent _ => "const"
  | .field _ _ => "getattr"
  | .item _ _ => "getitem"
  | .either _ _ => "or"
  | .both _ _ => "and"
  | .negate _ => "not"
  | .choose _ _ _ => "condexpr"
  | .equal _ _ | .among _ _ => "compare"
  | .filtered _ _ => "filter"
  | .beyond kind _ _ => kind

def literal? : Expr → Option Value
  | .literal v => some v
  | _ => none

/-- A list of entries; it is a literal if all of them are. -/
def ofItems (entries : List Expr) : Expr :=
  match entries.mapM literal? with
  | some vs => .literal (.list vs)
  | none => beyondAll "list" entries

/-- A key and its value, if both are literals and the one can be a key. -/
def literalMember? (entry : Expr × Expr) : Option (Value × Value) := do
  let key ← entry.1.literal?
  if key.isKey then return (key, ← entry.2.literal?) else none

/-- A mapping of keys with their values; it is a literal if all of them are. -/
def ofMembers (entries : List (Expr × Expr)) : Expr :=
  match entries.mapM literalMember? with
  | some members => .literal (.map (Members.collect members))
  | none => beyondAll "dict" (entries.flatMap fun (key, v) => [key, v])

/-- The kind of a row of expressions with commas between them. -/
def rowKind : String := "tuple"

/-- Whether a value can be given to an expression: a name, or a row of such. -/
def canReceive : Expr → Bool
  | .name _ => true
  | .beyond kind e (.literal _) => kind == rowKind && e.canReceive
  | .beyond kind e more => kind == rowKind && e.canReceive && more.canReceive
  | _ => false

end Expr

inductive Node where
  | text (s : String)
  | print (e : Expr)
  | branch (condition : Expr) (yes no : List Node)
  /-- The body once for each item, or the other nodes if there is none. The line is the one where
  the name of the item stands, if the template was read from text. -/
  | each (x : String) (source : Expr) (body otherwise : List Node) (line : Nat)
  | assign (x : String) (e : Expr)
  /-- Another template in this place. -/
  | embed (e : Expr)

instance : Coe String Node := ⟨.text⟩

instance : Coe Expr Node := ⟨.print⟩

end ApiScaffold.Template

namespace ApiScaffold

/-- A template. -/
abbrev Template := List Template.Node

end ApiScaffold
