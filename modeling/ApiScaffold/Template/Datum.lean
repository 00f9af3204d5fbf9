import ApiScaffold.Failure
import ApiScaffold.Generator.Options
import ApiScaffold.Operation.Basic
import ApiScaffold.Text.Case
import ApiScaffold.Text.Split

/-!
# What templates work on

Values of the document and the parts of a run, each with its text, its fields and its items
(`Datum`).

What is missing is a datum too. It ends the evaluation where it is used, but for the missing part of
a choice, which counts as nothing. A field that belongs to the kind of a datum comes before the
members of a mapping, and for an index in brackets it is the other way round.

What a datum can only be called for is known by its name, so that a template which mentions it has a
text.
-/

namespace ApiScaffold

/-- A value in a template. What is missing ends the evaluation where it is used, but for the missing
part of a choice, which counts as nothing. -/
inductive Datum where
  | value (v : Value)
  | list (items : List Datum)
  | tuple (items : List Datum)
  | names (xs : List String)
  | options (entries : Options)
  | location (l : Location)
  /-- A part of a run: its kind, the fields that its text shows, and others. -/
  | record (kind : String) (shown derived : List (String × Datum))
  /-- What the body of a loop knows about its turn. -/
  | turn (index length : Nat)
  /-- What could only be called, of a kind and maybe with a text of its own. -/
  | operation (kind : String) (text? : Option String)
  | missing (binding : MissingBinding)
deriving Inhabited

namespace Datum

def str (s : String) : Datum := .value (.str s)

def bool (b : Bool) : Datum := .value (.bool b)

def nat (n : Nat) : Datum := .value (.int n)

def strs (xs : List String) : Datum := .tuple (xs.map str)

/-- Why the evaluation of a template ends early. -/
inductive Stop where
  | unbound (binding : MissingBinding)
  | missingInclude (name : String)
  /-- The text of an embedded template is malformed. -/
  | malformed (detail : String)
  | unknownFilter (name : String)
  | unsuitable

/-- The name of a location among the constants that locations are. -/
def constantOf (l : Location) : String := Text.upper l.name

/-- A location among the constants, as it is shown inside other data. -/
def quotedLocation (l : Location) : String :=
  "<ParameterLocation." ++ constantOf l ++ ": " ++ Text.quoted l.name ++ ">"

/-- The kind of a datum in a message about a missing field. -/
def owner : Datum → String
  | .value .null => "None"
  | .value (.date _) => "datetime.date object"
  | .value (.moment _) => "datetime.datetime object"
  | .value v => v.kindName ++ " object"
  | .list _ => "list object"
  | .tuple _ => "tuple object"
  | .names _ => "frozenset object"
  | .options _ => "mappingproxy object"
  | .location _ => "oasgen.model.ParameterLocation object"
  | .record kind _ _ => kind ++ " object"
  | .turn _ _ => "jinja2.runtime.LoopContext object"
  | .operation kind _ => kind ++ " object"
  | .missing _ => "Undefined"

/-- The last part of a dotted name. -/
def shortKind (kind : String) : String := String.ofList (Text.afterLast '.' kind.toList)

mutual

/-- The text of a datum inside another. -/
def quotedText : Datum → String
  | .value v => v.quotedText
  | .list items => "[" ++ String.intercalate ", " (quotedItems items) ++ "]"
  | .tuple items =>
    match quotedItems items with
    | [single] => "(" ++ single ++ ",)"
    | parts => "(" ++ String.intercalate ", " parts ++ ")"
  | .names [] => "frozenset()"
  | .names xs =>
    "frozenset(\x7b" ++ String.intercalate ", " (xs.map Text.quoted) ++ "\x7d)"
  | .options entries =>
    "mappingproxy(" ++ (Value.map (entries.map fun e => (.str e.1, e.2))).quotedText ++ ")"
  | .location l => quotedLocation l
  | .record kind shown _ =>
    shortKind kind ++ "(" ++ String.intercalate ", " (quotedFields shown) ++ ")"
  | .turn index length =>
    "<LoopContext " ++ toString (index + 1) ++ "/" ++ toString length ++ ">"
  | .operation kind text? => text?.getD ("<" ++ kind ++ ">")
  | .missing _ => "Undefined"

def quotedItems : List Datum → List String
  | [] => []
  | d :: rest => quotedText d :: quotedItems rest

def quotedFields : List (String × Datum) → List String
  | [] => []
  | (key, d) :: rest => (key ++ "=" ++ quotedText d) :: quotedFields rest

end

/-- The text of a datum. -/
def display : Datum → Except Stop String
  | .value v => match v.display? with
    | some text => .ok text
    | none => .error .unsuitable
  | .location l => .ok ("ParameterLocation." ++ constantOf l)
  | .missing (.otherwise _ _) => .ok ""
  | .missing binding => .error (.unbound binding)
  | d => .ok d.quotedText

/-- Whether a datum counts as true. -/
def truth : Datum → Except Stop Bool
  | .value v => .ok v.isTruthy
  | .list items => .ok (!items.isEmpty)
  | .tuple items => .ok (!items.isEmpty)
  | .names xs => .ok (!xs.isEmpty)
  | .options entries => .ok (!List.isEmpty entries)
  | .location _ => .ok true
  | .record _ _ _ => .ok true
  | .turn _ _ => .ok true
  | .operation _ _ => .ok true
  | .missing (.otherwise _ _) => .ok false
  | .missing binding => .error (.unbound binding)

/-- The items of a datum. -/
def items : Datum → Except Stop (List Datum)
  | .value (.pair a b) => .ok [.value a, .value b]
  | .value v => match v.elements? with
    | some vs => .ok (vs.map .value)
    | none => .error .unsuitable
  | .list ds => .ok ds
  | .tuple ds => .ok ds
  | .names xs => .ok (xs.map str)
  | .options entries => .ok (List.map (fun e => str e.1) entries)
  | .missing (.otherwise _ _) => .ok []
  | .missing binding => .error (.unbound binding)
  | _ => .error .unsuitable

/-- A datum unless it is missing. -/
def present : Datum → Except Stop Datum
  | .missing binding => .error (.unbound binding)
  | d => .ok d

/-- The names of what could be done with a value of the document. -/
def operationsOf : Value → List String
  | .map _ => [
    "clear", "copy", "fromkeys", "get", "items", "keys", "pop", "popitem", "setdefault", "update",
    "values"]
  | .pair _ _ => ["count", "index"]
  | .list _ => [
    "append", "clear", "copy", "count", "extend", "index", "insert", "pop", "remove", "reverse",
    "sort"]
  | .str _ => [
    "capitalize", "casefold", "center", "count", "encode", "endswith", "expandtabs", "find",
    "format", "format_map", "index", "isalnum", "isalpha", "isascii", "isdecimal", "isdigit",
    "isidentifier", "islower", "isnumeric", "isprintable", "isspace", "istitle", "isupper", "join",
    "ljust", "lower", "lstrip", "maketrans", "partition", "removeprefix", "removesuffix", "replace",
    "rfind", "rindex", "rjust", "rpartition", "rsplit", "rstrip", "split", "splitlines",
    "startswith", "strip", "swapcase", "title", "translate", "upper", "zfill"]
  | .int _ | .bool _ => [
    "as_integer_ratio", "bit_count", "bit_length", "conjugate", "from_bytes", "to_bytes"]
  | .float _ => ["as_integer_ratio", "conjugate", "fromhex", "hex", "is_integer"]
  | _ => []

/-- The parts of a number by name. -/
def numberPart? (v : Value) (key : String) : Option Value :=
  match v, key with
  | .int n, "real" | .int n, "numerator" => some (.int n)
  | .bool b, "real" | .bool b, "numerator" => some (.int (if b then 1 else 0))
  | .int _, "imag" | .bool _, "imag" => some (.int 0)
  | .int _, "denominator" | .bool _, "denominator" => some (.int 1)
  | .float x, "real" => some (.float x)
  | .float _, "imag" => some (.float .zero)
  | _, _ => none

/-- What a name stands for in the turn of a loop. -/
def turnField? (index length : Nat) : String → Option Datum
  | "index" => some (nat (index + 1))
  | "index0" => some (nat index)
  | "first" => some (bool (index == 0))
  | "last" => some (bool (index + 1 == length))
  | "length" => some (nat length)
  | "revindex" => some (nat (length - index))
  | "revindex0" => some (nat (length - index - 1))
  | "depth" => some (nat 1)
  | "depth0" => some (nat 0)
  | "cycle" | "changed" => some (.operation "method" none)
  | _ => none

/-- The part of a datum that belongs to its kind and bears a name. -/
def own? (d : Datum) (key : String) : Option Datum :=
  let operation := fun (names : List String) =>
    if names.contains key then some (Datum.operation "builtin_function_or_method" none) else none
  match d with
  | .value v => ((numberPart? v key).map .value).or (operation (operationsOf v))
  | .list _ => operation (operationsOf (.list []))
  | .tuple _ => operation ["count", "index"]
  | .names _ => operation [
      "copy", "difference", "intersection", "isdisjoint", "issubset", "issuperset",
      "symmetric_difference", "union"]
  | .options _ => operation ["copy", "get", "items", "keys", "values"]
  | .location l =>
    if key = "value" then some (str l.name)
    else if key = "name" then some (str (constantOf l))
    else if key = "rank" then some (nat l.rank) else none
  | .record _ shown derived => (shown ++ derived).lookup key
  | .turn index length => turnField? index length key
  | .operation _ _ => none
  | .missing _ => none

/-- The member of a mapping under a key. -/
def member? (d : Datum) (key : String) : Option Datum :=
  match d with
  | .value v => (v.get? key).map .value
  | .options entries => (entries.get? key).map .value
  | _ => none

/-- What is found, or else the report that a datum has no field of a name. -/
def orMissing (d : Datum) (key : String) (found : Option Datum) : Except Stop Datum :=
  match d with
  | .missing binding => .error (.unbound binding)
  | _ => .ok (found.getD (.missing (.field d.owner key)))

/-- The field of a datum: what belongs to its kind comes before the members of a mapping. -/
def field (d : Datum) (key : String) : Except Stop Datum :=
  orMissing d key ((d.own? key).or (d.member? key))

/-- The item of a sequence at a place, counted from the end if it is negative. -/
def itemAt? {α : Type} (xs : List α) (index : Int) : Option α :=
  if 0 ≤ index then xs[index.toNat]?
  else if -index ≤ xs.length then xs[xs.length - (-index).toNat]? else none

/-- The index that a value is. -/
def index? : Value → Option Int
  | .int n => some n
  | .bool b => some (if b then 1 else 0)
  | _ => none

/-- The item of a sequence, or the member of a mapping, under a value. -/
def element? (d : Datum) (v : Value) : Option Datum :=
  match d with
  | .value (.map members) => (Members.find? members v).map .value
  | .value (.list vs) => do (itemAt? vs (← index? v)).map .value
  | .value (.pair a b) => do (itemAt? [a, b] (← index? v)).map .value
  | .value (.str s) => do
    (itemAt? (Text.letters s.toList) (← index? v)).map fun letter => str (String.ofList letter)
  | .list ds | .tuple ds => do itemAt? ds (← index? v)
  | _ => none

/-- The item of a datum under an index; under a name the members of a mapping come first. -/
def item (d index : Datum) : Except Stop Datum :=
  match d, index with
  | .missing binding, _ => .error (.unbound binding)
  | _, .missing binding => .error (.unbound binding)
  | _, .value (.str key) => orMissing d key ((d.member? key).or (d.own? key))
  | _, .value v => .ok ((element? d v).getD (.missing (.element d.owner v.quotedText)))
  | _, _ => .ok (.missing (.element d.owner index.quotedText))

/-- Whether two data are equal. The missing part of a choice is equal to its like only. -/
def equal : Datum → Datum → Except Stop Bool
  | .missing (.otherwise _ _), .missing (.otherwise _ _) => .ok true
  | .missing (.otherwise _ _), d => do
    let _ ← d.present
    return false
  | d, .missing (.otherwise _ _) => do
    let _ ← d.present
    return false
  | .missing binding, _ => .error (.unbound binding)
  | _, .missing binding => .error (.unbound binding)
  | .value a, .value b => .ok (a.keyEq b || a.same b)
  | .location a, .location b => .ok (a = b)
  | _, _ => .ok false

/-- Whether a datum is among items, compared from the first on. -/
def amongItems (d : Datum) : List Datum → Except Stop Bool
  | [] => .ok false
  | x :: rest =>
    match equal d x with
    | .ok false => amongItems d rest
    | verdict => verdict

/-- Whether a datum is an item, a key or a part of another. -/
def among (d whole : Datum) : Except Stop Bool :=
  match whole with
  | .value (.str s) => match d with
    | .value (.str part) => .ok ((s.splitOn part).length > 1 || part = "")
    | _ => .error .unsuitable
  | _ => match whole.items with
    | .ok ds => amongItems d ds
    | .error stop => .error stop

end Datum

end ApiScaffold
