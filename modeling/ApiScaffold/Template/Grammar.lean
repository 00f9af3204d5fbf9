import ApiScaffold.Template.Basic
import ApiScaffold.Template.Token

/-!
# The grammar of templates

The reading of a template from its tokens. Filters bind closest, then arithmetic, comparisons,
`not`, `and`, `or` and choices; `if` and `for` tags enclose the nodes up to their end tags.

A fault is reported at the token where it is noticed, unless that token is a report of its own,
which then comes first. What exists in the template language and is not described here, filters and
tags among it, is not a fault: it is listed (`otherFilters`, `otherTags`) and reading ends without a
report. Only what exists nowhere is refused by its name.
-/

namespace ApiScaffold.Template

/-- What is read from the tokens, and the tokens after it. -/
abbrev Read (α : Type) := α × List Token

/-- The token at the head; behind the last one stands the end again. -/
def next (ts : List Token) : Token := ts.headD { line := 1, lexeme := .ending }

/-- A report about a token, unless the token is a report of its own. -/
def report (t : Token) (detail : String) : Malformed :=
  match t.lexeme with
  | .broken own => ⟨t.line, own⟩
  | _ => ⟨t.line, detail⟩

/-- The report that something else stands where a token was expected. -/
def expected (what : String) (t : Token) : Malformed :=
  match t.lexeme with
  | .ending => ⟨t.line, "unexpected end of template, expected " ++ Text.quoted what ++ "."⟩
  | l => report t ("expected token " ++ Text.quoted what ++ ", got " ++ Text.quoted l.describe)

def unexpected (t : Token) : Malformed :=
  report t ("unexpected " ++ Text.quoted t.lexeme.describe)

/-- The report that an expression is missing before a token. -/
def missingExpression (t : Token) : Malformed :=
  report t ("Expected an expression, got " ++ Text.quoted t.lexeme.describe)

/-- The tokens after a mark. -/
def skipMark? (m : String) (ts : List Token) : Option (List Token) :=
  match ts with
  | { lexeme := .mark s, .. } :: rest => if s = m then some rest else none
  | _ => none

/-- The tokens after a word. -/
def skipWord? (w : String) (ts : List Token) : Option (List Token) :=
  match ts with
  | { lexeme := .name s, .. } :: rest => if s = w then some rest else none
  | _ => none

def expectMark (m : String) (ts : List Token) : Except Refusal (List Token) :=
  match skipMark? m ts with
  | some rest => .ok rest
  | none => .error (expected m (next ts))

def expectClosing (p : Place) (ts : List Token) : Except Refusal (List Token) :=
  match ts with
  | { lexeme := .closing q, .. } :: rest =>
    if q = p then .ok rest else .error (expected (Lexeme.closing p).describe (next ts))
  | _ => .error (expected (Lexeme.closing p).describe (next ts))

/-- The tokens after one of some marks. -/
def skipOneOf? (ms : List String) (ts : List Token) : Option (List Token) :=
  ms.findSome? fun m => skipMark? m ts

/-- The literal that a word stands for. -/
def wordLiteral? : String → Option Value
  | "true" | "True" => some (.bool true)
  | "false" | "False" => some (.bool false)
  | "none" | "None" => some .null
  | _ => none

/-- What stands between the brackets of a call: values by place, and what else there is. -/
structure Arguments where
  values : List Expr
  others : List Expr

namespace Arguments

def none : Arguments := ⟨[], []⟩

def toList (a : Arguments) : List Expr := a.values ++ a.others

end Arguments

/-- The filters without arguments by name. -/
def plainFilters : List (String × Filter) := [
  ("snake", .snake), ("camel_to_snake", .camelToSnake), ("camelize", .pascal),
  ("lower_first", .lowerFirst), ("constant", .constant), ("tojson", .json), ("join", .joined "")]

/-- The further filters that exist. What they make of a value is not said here. -/
def otherFilters : List String := [
  "abs", "attr", "batch", "capitalize", "center", "count", "d", "default", "dictsort", "e",
  "escape", "filesizeformat", "first", "float", "forceescape", "format", "groupby", "indent", "int",
  "items", "last", "length", "list", "lower", "map", "max", "min", "pprint", "random", "reject",
  "rejectattr", "replace", "reverse", "round", "safe", "select", "selectattr", "slice", "sort",
  "string", "striptags", "sum", "title", "trim", "truncate", "unique", "upper", "urlencode",
  "urlize", "wordcount", "wordwrap", "xmlattr"]

/-- An expression passed through the filter of a name, which stands at a line. -/
def passed (e : Expr) (name : String) (line : Nat) (arguments : Arguments) : Expr :=
  match plainFilters.lookup name, arguments.toList with
  | none, operands =>
    if otherFilters.contains name then .beyondAll "filter" (e :: operands)
    else .filtered e (.unknown name line)
  | some f, [] => .filtered e f
  | some (.joined _), [.literal (.str separator)] => .filtered e (.joined separator)
  | some _, operands => .beyondAll "filter" (e :: operands)

/-- The string literals at the head, which are one text. -/
def strings : List Token → String × List Token
  | { lexeme := .str s, .. } :: rest =>
    let (more, after) := strings rest
    (s ++ more, after)
  | ts => ("", ts)

/-- Where a row of expressions stands, which decides how its items are read and where it ends. -/
inductive Slot where
  | printed
  | bracketed
  | condition
  /-- What a loop goes through. -/
  | source
  /-- The names that a loop gives its items. -/
  | items
  /-- The names that an assignment gives its values. -/
  | assigned
deriving DecidableEq

/-- Whether a row ends at a token. -/
def Slot.endsAt (slot : Slot) (t : Token) : Bool :=
  match t.lexeme with
  | .closing _ | .mark ")" => true
  | .name word => (slot = .source && word == "recursive") || (slot = .items && word == "in")
  | _ => false

/-- The marks of arithmetic with the kinds of their operations, by how close they bind, loosest
first. -/
def arithmeticMarks : Nat → List (String × String)
  | 0 => [("+", "add"), ("-", "sub")]
  | 1 => [("~", "concat")]
  | 2 => [("*", "mul"), ("/", "div"), ("//", "floordiv"), ("%", "mod")]
  | _ => [("**", "pow")]

/-- The marks of signs with the kinds of their operations. -/
def signMarks : List (String × String) := [("-", "neg"), ("+", "pos")]

/-- The kind of the operation whose mark is at the head, and the tokens after the mark. -/
def skipOperation? (marks : List (String × String)) (ts : List Token) :
    Option (String × List Token) :=
  marks.findSome? fun (m, kind) => (skipMark? m ts).map fun rest => (kind, rest)

/-- The comparison at the head. -/
def comparator? (ts : List Token) : Option ((Expr → Expr → Expr) × List Token) :=
  match skipMark? "==" ts, skipMark? "!=" ts, skipOneOf? ["<", "<=", ">", ">="] ts with
  | some rest, _, _ => some (.equal, rest)
  | _, some rest, _ => some (fun a b => .negate (.equal a b), rest)
  | _, _, some rest => some (.beyond "compare", rest)
  | none, none, none =>
    match skipWord? "in" ts, (skipWord? "not" ts).bind (skipWord? "in") with
    | some rest, _ => some (.among, rest)
    | _, some rest => some (fun a b => .negate (.among a b), rest)
    | none, none => none

/-- Whether the operand of a test may start at a token. -/
def startsOperand (t : Token) : Bool :=
  match t.lexeme with
  | .name word => !(["else", "or", "and"].contains word)
  | .str _ | .number _ | .mark "[" | .mark "\x7b" => true
  | _ => false

/-- The report of the token behind another, if it is one: it is met before the other is refused. -/
def reportBehind (ts : List Token) (own : Malformed) : Malformed :=
  match ts with
  | { lexeme := .broken detail, line } :: _ => ⟨line, detail⟩
  | _ => own

/-- The name of a filter or a test, whose parts are divided by points. -/
def dottedName (ts : List Token) : Except Refusal (Read String) :=
  match ts with
  | { lexeme := .name part, .. } :: { lexeme := .mark ".", .. } :: rest => do
    let (more, rest) ← dottedName rest
    return (part ++ "." ++ more, rest)
  | { lexeme := .name part, .. } :: rest => .ok (part, rest)
  | _ => .error (expected "name" (next ts))

mutual

/-- An expression of the template of a name. -/
def expression (template : String) : Nat → List Token → Except Refusal (Read Expr)
  | 0, ts => .error (unexpected (next ts))
  | fuel + 1, ts => do
    let (e, rest) ← disjunction template fuel ts
    choices template fuel (next ts).line e rest

/-- The choices after an expression. -/
def choices (template : String) : Nat → Nat → Expr → List Token → Except Refusal (Read Expr)
  | 0, _, _, ts => .error (unexpected (next ts))
  | fuel + 1, line, yes, ts =>
    match skipWord? "if" ts with
    | none => .ok (yes, ts)
    | some rest => do
      let (condition, rest) ← disjunction template fuel rest
      match skipWord? "else" rest with
      | some rest =>
        let (no, rest) ← expression template fuel rest
        choices template fuel (next rest).line (.choose condition yes no) rest
      | none =>
        choices template fuel (next rest).line
          (.choose condition yes (.absent (.otherwise template line))) rest

def disjunction (template : String) : Nat → List Token → Except Refusal (Read Expr)
  | 0, ts => .error (unexpected (next ts))
  | fuel + 1, ts => do
    let (e, rest) ← conjunction template fuel ts
    disjuncts template fuel e rest

/-- The further alternatives after an expression. -/
def disjuncts (template : String) : Nat → Expr → List Token → Except Refusal (Read Expr)
  | 0, _, ts => .error (unexpected (next ts))
  | fuel + 1, e, ts =>
    match skipWord? "or" ts with
    | none => .ok (e, ts)
    | some rest => do
      let (f, rest) ← conjunction template fuel rest
      disjuncts template fuel (.either e f) rest

def conjunction (template : String) : Nat → List Token → Except Refusal (Read Expr)
  | 0, ts => .error (unexpected (next ts))
  | fuel + 1, ts => do
    let (e, rest) ← negation template fuel ts
    conjuncts template fuel e rest

/-- The further conditions after an expression. -/
def conjuncts (template : String) : Nat → Expr → List Token → Except Refusal (Read Expr)
  | 0, _, ts => .error (unexpected (next ts))
  | fuel + 1, e, ts =>
    match skipWord? "and" ts with
    | none => .ok (e, ts)
    | some rest => do
      let (f, rest) ← negation template fuel rest
      conjuncts template fuel (.both e f) rest

def negation (template : String) : Nat → List Token → Except Refusal (Read Expr)
  | 0, ts => .error (unexpected (next ts))
  | fuel + 1, ts =>
    match skipWord? "not" ts with
    | some rest => do
      let (e, rest) ← negation template fuel rest
      return (.negate e, rest)
    | none => do
      let (e, rest) ← arithmetic template fuel 0 ts
      comparisons template fuel none e rest

/-- The comparisons after an operand; in a chain of them each has to hold. -/
def comparisons (template : String) :
    Nat → Option Expr → Expr → List Token → Except Refusal (Read Expr)
  | 0, _, _, ts => .error (unexpected (next ts))
  | fuel + 1, links, last, ts =>
    match comparator? ts with
    | none => match skipWord? "not" ts with
      | none => .ok (links.getD last, ts)
      | some rest =>
        if rest.isEmpty then .ok (links.getD last, ts)
        else match (next rest).lexeme with
          | .broken detail => .error (some ⟨(next rest).line, detail⟩)
          | _ => .ok (links.getD last, ts)
    | some (compare, rest) => do
      let (e, rest) ← arithmetic template fuel 0 rest
      let link := compare last e
      comparisons template fuel (some (links.elim link (.both · link))) e rest

/-- Operands and the arithmetic between them that binds as close as a level or closer. -/
def arithmetic (template : String) : Nat → Nat → List Token → Except Refusal (Read Expr)
  | 0, _, ts => .error (unexpected (next ts))
  | fuel + 1, level, ts =>
    if 4 ≤ level then signed template fuel true ts
    else do
      let (e, rest) ← arithmetic template fuel (level + 1) ts
      operations template fuel level e rest

/-- The further operands of a level after an expression. -/
def operations (template : String) :
    Nat → Nat → Expr → List Token → Except Refusal (Read Expr)
  | 0, _, _, ts => .error (unexpected (next ts))
  | fuel + 1, level, e, ts =>
    match skipOperation? (arithmeticMarks level) ts with
    | none => .ok (e, ts)
    | some (kind, rest) => do
      let (f, rest) ← arithmetic template fuel (level + 1) rest
      operations template fuel level (.beyond kind e f) rest

/-- An operand with its signs, its parts and, unless a sign stands before it, its filters. -/
def signed (template : String) : Nat → Bool → List Token → Except Refusal (Read Expr)
  | 0, _, ts => .error (unexpected (next ts))
  | fuel + 1, filtering, ts => do
    let (e, rest) ← match skipOperation? signMarks ts with
      | some (kind, rest) => do
        let (e, rest) ← signed template fuel false rest
        pure (Expr.beyondAll kind [e], rest)
      | none => operand template fuel ts
    let (e, rest) ← parts template fuel e rest
    if filtering then filters template fuel e rest else return (e, rest)

/-- A name, a literal or expressions in brackets. -/
def operand (template : String) : Nat → List Token → Except Refusal (Read Expr)
  | 0, ts => .error (unexpected (next ts))
  | fuel + 1, ts =>
    match ts with
    | { lexeme := .name s, .. } :: rest =>
      match wordLiteral? s with
      | some v => .ok (.literal v, rest)
      | none => .ok (.name s, rest)
    | { lexeme := .str _, .. } :: _ =>
      let (s, rest) := strings ts
      .ok (.literal (.str s), rest)
    | { lexeme := .number v, .. } :: rest => .ok (.literal v, rest)
    | { lexeme := .mark "(", .. } :: rest => do
      let (e, rest) ← row template fuel .bracketed rest
      return (e, ← expectMark ")" rest)
    | { lexeme := .mark "[", .. } :: rest => listItems template fuel [] rest
    | { lexeme := .mark "\x7b", .. } :: rest => mapMembers template fuel [] rest
    | _ => .error (unexpected (next ts))

/-- The items of a list up to its closing mark. -/
def listItems (template : String) :
    Nat → List Expr → List Token → Except Refusal (Read Expr)
  | 0, _, ts => .error (unexpected (next ts))
  | fuel + 1, before, ts =>
    match skipMark? "]" ts with
    | some rest => .ok (.ofItems before, rest)
    | none => do
      let ts ← if before.isEmpty then pure ts else expectMark "," ts
      match skipMark? "]" ts with
      | some rest => return (.ofItems before, rest)
      | none =>
        let (e, rest) ← expression template fuel ts
        listItems template fuel (before ++ [e]) rest

/-- The members of a mapping up to its closing mark. -/
def mapMembers (template : String) :
    Nat → List (Expr × Expr) → List Token → Except Refusal (Read Expr)
  | 0, _, ts => .error (unexpected (next ts))
  | fuel + 1, before, ts =>
    match skipMark? "\x7d" ts with
    | some rest => .ok (.ofMembers before, rest)
    | none => do
      let ts ← if before.isEmpty then pure ts else expectMark "," ts
      match skipMark? "\x7d" ts with
      | some rest => return (.ofMembers before, rest)
      | none =>
        let (key, rest) ← expression template fuel ts
        let (v, rest) ← expression template fuel (← expectMark ":" rest)
        mapMembers template fuel (before ++ [(key, v)]) rest

/-- One item of a row. -/
def rowItem (template : String) : Nat → Slot → List Token → Except Refusal (Read Expr)
  | 0, _, ts => .error (unexpected (next ts))
  | fuel + 1, slot, ts =>
    match slot with
    | .printed | .bracketed => expression template fuel ts
    | .condition | .source => disjunction template fuel ts
    | .items | .assigned => operand template fuel ts

/-- Expressions with commas between them; one without a comma is itself. -/
def row (template : String) : Nat → Slot → List Token → Except Refusal (Read Expr)
  | 0, _, ts => .error (unexpected (next ts))
  | fuel + 1, slot, ts =>
    if slot.endsAt (next ts) then
      if slot = .bracketed then .ok (.beyondAll Expr.rowKind [], ts)
      else .error (missingExpression (next ts))
    else do
      let (e, rest) ← rowItem template fuel slot ts
      match skipMark? "," rest with
      | none => return (e, rest)
      | some rest => rowRest template fuel slot [e] rest

/-- The rest of a row behind a comma. -/
def rowRest (template : String) :
    Nat → Slot → List Expr → List Token → Except Refusal (Read Expr)
  | 0, _, _, ts => .error (unexpected (next ts))
  | fuel + 1, slot, before, ts =>
    if slot.endsAt (next ts) then .ok (.beyondAll Expr.rowKind before, ts)
    else do
      let (e, rest) ← rowItem template fuel slot ts
      match skipMark? "," rest with
      | none => return (.beyondAll Expr.rowKind (before ++ [e]), rest)
      | some rest => rowRest template fuel slot (before ++ [e]) rest

/-- The fields, items and calls after an operand. -/
def parts (template : String) : Nat → Expr → List Token → Except Refusal (Read Expr)
  | 0, _, ts => .error (unexpected (next ts))
  | fuel + 1, e, ts =>
    match skipMark? "." ts, skipMark? "[" ts, skipMark? "(" ts with
    | some ({ lexeme := .name key, .. } :: rest), _, _ =>
      parts template fuel (.field e key) rest
    | some ({ lexeme := .number (.int n), .. } :: rest), _, _ =>
      parts template fuel (.item e (.literal (.int n))) rest
    | some rest, _, _ =>
      .error (reportBehind (rest.drop 1) (report (next rest) "expected name or number"))
    | none, some rest, _ => do
      let (indices, rest) ← subscripts template fuel [] rest
      match indices with
      | [index] => parts template fuel (.item e index) rest
      | _ => parts template fuel (.beyondAll "getitem" (e :: indices)) rest
    | none, none, some rest => do
      let (a, rest) ← arguments template fuel (next ts).line 0 .none rest
      parts template fuel (.beyondAll "call" (e :: a.toList)) rest
    | none, none, none => .ok (e, ts)

/-- The indices up to the closing of their bracket. -/
def subscripts (template : String) :
    Nat → List Expr → List Token → Except Refusal (Read (List Expr))
  | 0, _, ts => .error (unexpected (next ts))
  | fuel + 1, before, ts =>
    match skipMark? "]" ts with
    | some rest => .ok (before, rest)
    | none => do
      let ts ← if before.isEmpty then pure ts else expectMark "," ts
      let (index, rest) ← subscript template fuel ts
      subscripts template fuel (before ++ [index]) rest

/-- One index, or the bounds of a slice. -/
def subscript (template : String) : Nat → List Token → Except Refusal (Read Expr)
  | 0, ts => .error (unexpected (next ts))
  | fuel + 1, ts => do
    let (start, rest) ← if (skipMark? ":" ts).isSome then pure ([], ts) else do
      let (e, rest) ← expression template fuel ts
      pure ([e], rest)
    match skipMark? ":" rest, start with
    | none, [e] => return (e, rest)
    | none, _ => .error (unexpected (next rest))
    | some rest, _ =>
      let (stop, rest) ← bound template fuel rest
      match skipMark? ":" rest with
      | none => return (.beyondAll "slice" (start ++ stop), rest)
      | some rest =>
        let (step, rest) ← bound template fuel rest
        return (.beyondAll "slice" (start ++ stop ++ step), rest)

/-- A bound of a slice, which may be left out. -/
def bound (template : String) : Nat → List Token → Except Refusal (Read (List Expr))
  | 0, ts => .error (unexpected (next ts))
  | fuel + 1, ts =>
    if (skipOneOf? [":", "]", ","] ts).isSome then .ok ([], ts)
    else do
      let (e, rest) ← expression template fuel ts
      return ([e], rest)

/-- The filters, tests and calls after an operand. -/
def filters (template : String) : Nat → Expr → List Token → Except Refusal (Read Expr)
  | 0, _, ts => .error (unexpected (next ts))
  | fuel + 1, e, ts =>
    match skipMark? "|" ts, skipWord? "is" ts, skipMark? "(" ts with
    | some rest, _, _ => do
      let (name, after) ← dottedName rest
      let (a, after) ← match skipMark? "(" after with
        | none => pure (Arguments.none, after)
        | some inside => arguments template fuel (next after).line 0 .none inside
      filters template fuel (passed e name (next rest).line a) after
    | none, some rest, _ => do
      let negated := skipWord? "not" rest
      let (_, rest) ← dottedName (negated.getD rest)
      let (operands, rest) ← tested template fuel rest
      let kind := if negated.isSome then "not" else "test"
      filters template fuel (.beyondAll kind (e :: operands)) rest
    | none, none, some rest => do
      let (a, rest) ← arguments template fuel (next ts).line 0 .none rest
      filters template fuel (.beyondAll "call" (e :: a.toList)) rest
    | none, none, none => .ok (e, ts)

/-- What a test compares with. -/
def tested (template : String) : Nat → List Token → Except Refusal (Read (List Expr))
  | 0, ts => .error (unexpected (next ts))
  | fuel + 1, ts =>
    match skipMark? "(" ts with
    | some rest => do
      let (a, rest) ← arguments template fuel (next ts).line 0 .none rest
      return (a.toList, rest)
    | none =>
      if !startsOperand (next ts) then .ok ([], ts)
      else if (skipWord? "is" ts).isSome then
        .error (report (next ts) "You cannot chain multiple tests with is")
      else do
        let (e, rest) ← operand template fuel ts
        let (e, rest) ← parts template fuel e rest
        return ([e], rest)

/-- The arguments up to the closing of a bracket that opened at a line. After values by name only
such may follow (`kinds` is one or more), after a spread row no values by place (two or more), and
nothing may follow a spread mapping (three). -/
def arguments (template : String) :
    Nat → Nat → Nat → Arguments → List Token → Except Refusal (Read Arguments)
  | 0, _, _, _, ts => .error (unexpected (next ts))
  | fuel + 1, line, kinds, before, ts =>
    match skipMark? ")" ts with
    | some rest => .ok (before, rest)
    | none => do
      let ts ← if before.toList.isEmpty then pure ts else expectMark "," ts
      let refused : Malformed := ⟨line, "invalid syntax for function call expression"⟩
      let another := fun (e : Expr) => { before with others := before.others ++ [e] }
      match skipMark? ")" ts, skipMark? "*" ts, skipMark? "**" ts, ts with
      | some rest, _, _, _ => return (before, rest)
      | _, some rest, _, _ =>
        if 2 ≤ kinds then .error refused
        else
          let (e, rest) ← expression template fuel rest
          arguments template fuel line 2 (another e) rest
      | _, _, some rest, _ =>
        if 3 ≤ kinds then .error refused
        else
          let (e, rest) ← expression template fuel rest
          arguments template fuel line 3 (another e) rest
      | _, _, _, { lexeme := .name _, .. } :: { lexeme := .mark "=", .. } :: rest =>
        if 3 ≤ kinds then .error refused
        else
          let (e, rest) ← expression template fuel rest
          arguments template fuel line (max kinds 1) (another e) rest
      | _, _, _, { lexeme := .name _, .. } :: { lexeme := .broken detail, line := place } :: _ =>
        .error (some ⟨place, detail⟩)
      | _, _, _, _ =>
        if 1 ≤ kinds then .error refused
        else
          let (e, rest) ← expression template fuel ts
          arguments template fuel line kinds { before with values := before.values ++ [e] } rest

end

/-- A block whose nodes are read: its tag, and the tags that may come after them. -/
structure Block where
  tag : String
  ends : List String

namespace Block

def ofLoop : Block := ⟨"for", ["endfor", "else"]⟩

def ofEmptyLoop : Block := ⟨"for", ["endfor"]⟩

def ofBranch : Block := ⟨"if", ["elif", "else", "endif"]⟩

def ofLastBranch : Block := ⟨"if", ["endif"]⟩

def ofAssignment : Block := ⟨"set", ["endset"]⟩

/-- What is wrong with a tag, or with the end of the template, inside open blocks, of which the
innermost comes first. -/
def misplaced (tag? : Option String) (blocks : List Block) : String :=
  let found := match tag? with
    | none => "Unexpected end of template."
    | some tag => "Encountered unknown tag " ++ Text.quoted tag ++ "."
  match blocks with
  | [] => found
  | innermost :: _ =>
    let wanted := String.intercalate " or " (innermost.ends.map Text.quoted)
    found
      ++ (if blocks.any fun block => tag?.any block.ends.contains then
          " You probably made a nesting mistake. Jinja is expecting this tag, but currently "
            ++ "looking for " ++ wanted ++ "."
        else " Jinja was looking for the following tags: " ++ wanted ++ ".")
      ++ " The innermost block that needs to be closed is " ++ Text.quoted innermost.tag ++ "."

/-- Whether a tag may come after the nodes of the innermost of blocks. -/
def isEnd (tag : String) : List Block → Bool
  | [] => false
  | block :: _ => block.ends.contains tag

end Block

/-- What a loop or an assignment gives its values: one name, or several. -/
inductive Receiver where
  | name (x : String)
  | several

/-- What stands on the receiving side of a loop or an assignment. -/
def receiver (template : String) (fuel : Nat) (slot : Slot) (ts : List Token) :
    Except Refusal (Read Receiver) := do
  let (e, rest) ← row template fuel slot ts
  if !e.canReceive then
    .error (reportBehind rest ⟨(next ts).line, "can't assign to " ++ Text.quoted e.kind⟩)
  else match e with
    | .name x => return (.name x, rest)
    | _ => return (.several, rest)

/-- The tokens behind the closing of a tag that opens a block; a colon may stand before it. -/
def expectBlock (ts : List Token) : Except Refusal (List Token) :=
  expectClosing .tag ((skipMark? ":" ts).getD ts)

/-- The further tags that exist. What they do is not said here. -/
def otherTags : List String := [
  "autoescape", "block", "call", "extends", "filter", "from", "import", "macro", "print", "with"]

/-- The tokens after two words. -/
def skipWords? (first second : String) (ts : List Token) : Option (List Token) :=
  (skipWord? first ts).bind (skipWord? second)

mutual

/-- Nodes up to a tag that the innermost block waits for, which is left at the head, or to the end
if no block is open. -/
def nodes (template : String) : Nat → List Block → List Token → Except Refusal (Read (List Node))
  | 0, _, ts => .error (unexpected (next ts))
  | fuel + 1, blocks, ts =>
    match ts with
    | { lexeme := .text s, .. } :: rest => do
      let (more, rest) ← nodes template fuel blocks rest
      return (.text s :: more, rest)
    | { lexeme := .opening .print, .. } :: rest => do
      let (e, rest) ← row template fuel .printed rest
      let (more, rest) ← nodes template fuel blocks (← expectClosing .print rest)
      return (.print e :: more, rest)
    | { lexeme := .opening .tag, .. } :: rest =>
      match rest with
      | { lexeme := .name word, line } :: inside =>
        if Block.isEnd word blocks then .ok ([], rest)
        else do
          let (node, rest) ← tag template fuel blocks word line inside
          let (more, rest) ← nodes template fuel blocks (← expectClosing .tag rest)
          return (node :: more, rest)
      | _ => .error (report (next rest) "tag name expected")
    | { lexeme := .ending, line } :: _ =>
      if blocks.isEmpty then .ok ([], ts) else .error (some ⟨line, Block.misplaced none blocks⟩)
    | _ => .error (unexpected (next ts))

/-- A tag after its name, up to the closing of its last part. -/
def tag (template : String) :
    Nat → List Block → String → Nat → List Token → Except Refusal (Read Node)
  | 0, _, _, _, ts => .error (unexpected (next ts))
  | fuel + 1, blocks, word, line, ts =>
    match word with
    | "if" => branches template fuel blocks ts
    | "for" => loop template fuel blocks ts
    | "set" => assignment template fuel blocks ts
    | "include" => do
      let (e, rest) ← expression template fuel ts
      let lenient := skipWords? "ignore" "missing" rest
      let rest := lenient.getD rest
      let apart := skipWords? "without" "context" rest
      let rest := (apart.or (skipWords? "with" "context" rest)).getD rest
      return (if lenient.isSome || apart.isSome then .print (.beyondAll word [e]) else .embed e,
        rest)
    | _ =>
      if otherTags.contains word then .error none
      else .error (some ⟨line, Block.misplaced (some word) blocks⟩)

/-- The branches from a condition on. -/
def branches (template : String) :
    Nat → List Block → List Token → Except Refusal (Read Node)
  | 0, _, ts => .error (unexpected (next ts))
  | fuel + 1, blocks, ts => do
    let (condition, rest) ← row template fuel .condition ts
    let (yes, rest) ← nodes template fuel (.ofBranch :: blocks) (← expectBlock rest)
    match skipWord? "elif" rest, skipWord? "else" rest with
    | some rest, _ =>
      let (no, rest) ← branches template fuel blocks rest
      return (.branch condition yes [no], rest)
    | none, some rest =>
      let (no, rest) ← nodes template fuel (.ofLastBranch :: blocks) (← expectBlock rest)
      return (.branch condition yes no, rest.drop 1)
    | none, none => return (.branch condition yes [], rest.drop 1)

/-- A loop from the name of its items on. -/
def loop (template : String) : Nat → List Block → List Token → Except Refusal (Read Node)
  | 0, _, ts => .error (unexpected (next ts))
  | fuel + 1, blocks, ts => do
    let (received, rest) ← receiver template fuel .items ts
    match skipWord? "in" rest with
    | none => .error (expected "in" (next rest))
    | some rest =>
      let (source, rest) ← row template fuel .source rest
      let (condition?, rest) ← match skipWord? "if" rest with
        | none => pure (none, rest)
        | some rest => do
          let (e, rest) ← expression template fuel rest
          pure (some e, rest)
      let recursive := skipWord? "recursive" rest
      let (body, rest) ←
        nodes template fuel (.ofLoop :: blocks) (← expectBlock (recursive.getD rest))
      let (otherwise, rest) ← match skipWord? "else" rest with
        | some rest => nodes template fuel (.ofEmptyLoop :: blocks) (← expectBlock rest)
        | none => pure ([], rest)
      let node : Node := match received, condition?, recursive with
        | .name x, none, none => .each x source body otherwise (next ts).line
        | _, _, _ => .print (.beyondAll "for" [source])
      return (node, rest.drop 1)

/-- An assignment from its receiver on; without an expression it takes the text up to its end
tag. -/
def assignment (template : String) : Nat → List Block → List Token → Except Refusal (Read Node)
  | 0, _, ts => .error (unexpected (next ts))
  | fuel + 1, blocks, ts => do
    let (received, rest) ← receiver template fuel .assigned ts
    match skipMark? "=" rest with
    | some rest =>
      let (e, rest) ← row template fuel .printed rest
      return (match received with
        | .name x => .assign x e
        | .several => .print (.beyondAll "set" [e]), rest)
    | none =>
      let (e, rest) ←
        if (skipMark? "|" rest).isSome then filters template fuel (.literal (.str "")) rest
        else pure (.literal .null, rest)
      let (_, rest) ← nodes template fuel (.ofAssignment :: blocks) (← expectBlock rest)
      return (.print (.beyondAll "set" [e]), rest.drop 1)

end

/-- The nodes of the template of a name, read from its text. -/
def nodesOfText (name text : String) : Except Refusal Template := do
  let ts := tokens text
  let (template, _) ← nodes name (32 * ts.length + 32) [] ts
  return template

end ApiScaffold.Template
