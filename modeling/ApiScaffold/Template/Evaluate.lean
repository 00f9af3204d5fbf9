import ApiScaffold.Naming
import ApiScaffold.Template.Basic
import ApiScaffold.Template.Datum
import ApiScaffold.Template.Markup

/-!
# The text of a template

The text that a template stands for in a scope. Evaluation goes from left to right and ends at the
first expression that has no value, so of several faults the first is reported. An operation that is
not carried out has no value either, and no wording: it ends a run without a fault of the template
(`notCarriedOut`).

The names in sight are a list, inner ones first; a loop puts its items and its turn in front, and
what it assigns is gone behind it. Embedding another template is a parameter (`embed`), so this
recursion is on the nodes alone.
-/

namespace ApiScaffold.Template

open Datum (Stop)

/-- The names in sight, inner ones first. -/
abbrev Scope := List (String × Datum)

/-- The text of a datum that is a text. -/
def textOf : Datum → Except Stop String
  | .value (.str s) => .ok s
  | _ => .error .unsuitable

/-- The datum at the end of a way of fields. -/
def follow (d : Datum) (way : List String) : Except Stop Datum :=
  way.foldlM Datum.field d

/-- The JSON text of a datum that is a document's value or a list of such. -/
def jsonOf : Datum → Except Stop String
  | .value v => match Markup.json? v with
    | some text => .ok text
    | none => .error .unsuitable
  | .list ds | .tuple ds =>
    match (ds.mapM fun d => match d with
      | .value v => Markup.json? v
      | _ => none) with
    | some texts => .ok ("[" ++ String.intercalate ", " texts ++ "]")
    | none => .error .unsuitable
  | _ => .error .unsuitable

/-- What a filter makes of a datum. -/
def Filter.apply : Filter → Datum → Except Stop Datum
  | .snake, d => return .str (Naming.snakeCase (← textOf d))
  | .camelToSnake, d => return .str (Naming.camelToSnake (← textOf d))
  | .pascal, d => return .str (Naming.pascalCase (← textOf d))
  | .lowerFirst, .missing binding => .error (.unbound binding)
  | .lowerFirst, d => return .str (Text.lowerFirst (← textOf d))
  | .constant, d => return .str (Naming.constant (← d.display))
  | .json, d => return .str (← jsonOf d)
  | .joined separator, d => do
    return .str (String.intercalate separator (← (← d.items).mapM Datum.display))
  | .fields key, d => do
    return .list (← (← d.items).mapM fun item => item.field key)
  | .whereEquals way text, d => do
    return .list (← (← d.items).filterM fun item => do
      (← follow item way).equal (.str text))
  | .beforeLast separator, d => do
    return .str (String.ofList (Text.beforeLast separator (← textOf d).toList))
  | .afterLast separator, d => do
    return .str (String.ofList (Text.afterLast separator (← textOf d).toList))
  | .unknown name _, _ => .error (.unknownFilter name)

/-- The names in sight of every template, where nothing else has them. -/
def globals : Scope := [
  ("range", .operation "type" (some "<class 'range'>")),
  ("dict", .operation "type" (some "<class 'dict'>")),
  ("lipsum", .operation "function" none),
  ("cycler", .operation "type" (some "<class 'jinja2.utils.Cycler'>")),
  ("joiner", .operation "type" (some "<class 'jinja2.utils.Joiner'>")),
  ("namespace", .operation "type" (some "<class 'jinja2.utils.Namespace'>"))]

/-- The datum of a name. -/
def find (scope : Scope) (x : String) : Datum :=
  ((scope.lookup x).or (globals.lookup x)).getD (.missing (.name x))

/-- The kinds of operations that notice what is missing among their operands. -/
def strictKinds : List String :=
  ["add", "sub", "mul", "div", "floordiv", "pow", "neg", "pos", "compare"]

/-- The end of the evaluation at an operation that is not carried out. -/
def notCarriedOut (kind : String) (a b : Datum) : Except Stop Datum :=
  if strictKinds.contains kind then do
    let _ ← a.present
    let _ ← b.present
    .error .unsuitable
  else .error .unsuitable

/-- The datum that an expression stands for. -/
def Expr.eval (scope : Scope) : Expr → Except Stop Datum
  | .name x => .ok (find scope x)
  | .literal v => .ok (.value v)
  | .absent binding => .ok (.missing binding)
  | .field e key => do (← e.eval scope).field key
  | .item e index => do (← e.eval scope).item (← index.eval scope)
  | .either a b => do
    let d ← a.eval scope
    if ← d.truth then return d else b.eval scope
  | .both a b => do
    let d ← a.eval scope
    if ← d.truth then b.eval scope else return d
  | .negate e => return .bool (!(← (← e.eval scope).truth))
  | .choose condition yes no => do
    if ← (← condition.eval scope).truth then yes.eval scope else no.eval scope
  | .equal a b => do return .bool (← (← a.eval scope).equal (← b.eval scope))
  | .among a b => do return .bool (← (← a.eval scope).among (← b.eval scope))
  | .filtered e f => do f.apply (← e.eval scope)
  | .beyond kind a b => do notCarriedOut kind (← a.eval scope) (← b.eval scope)

mutual

/-- The text of a node and the scope after it, where `embed` gives the text of another template. -/
def Node.run (embed : String → Scope → Except Stop String) (scope : Scope) :
    Node → Except Stop (String × Scope)
  | .text s => .ok (s, scope)
  | .print e => do return (← (← e.eval scope).display, scope)
  | .branch condition yes no => do
    if ← (← condition.eval scope).truth then runAll embed scope yes else runAll embed scope no
  | .each x source body otherwise _ => do
    let items ← (← source.eval scope).items
    if items.isEmpty then return ((← runAll embed scope otherwise).1, scope)
    else
      let texts ← items.zipIdx.mapM fun (item, index) => do
        return (← runAll embed ((x, item) :: ("loop", .turn index items.length) :: scope) body).1
      return (String.join texts, scope)
  | .assign x e => do return ("", (x, ← e.eval scope) :: scope)
  | .embed e => do return (← embed (← textOf (← (← e.eval scope).present)) scope, scope)

/-- The text of nodes in order; each sees what those before it assign. -/
def runAll (embed : String → Scope → Except Stop String) (scope : Scope) :
    List Node → Except Stop (String × Scope)
  | [] => .ok ("", scope)
  | n :: rest => do
    let (text, scope) ← n.run embed scope
    let (more, scope) ← runAll embed scope rest
    return (text ++ more, scope)

end

end ApiScaffold.Template
