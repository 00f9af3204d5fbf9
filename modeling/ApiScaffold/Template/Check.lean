import ApiScaffold.Template.Evaluate
import ApiScaffold.Template.Grammar

/-!
# What is wrong with a template

A template whose text can be read may be faulty all the same: it may use filters that do not exist,
and its loops may give their items the name of their turn. Both are found before anything is
evaluated.

The order in which faults are found is that of a compiler which folds constants: a part that an
earlier constant makes superfluous is not looked at, and filters in branches and choices are only
met when they are reached.
-/

namespace ApiScaffold.Template

/-- The datum of an expression in which no name plays a part. -/
def Expr.constant? : Expr → Option Datum
  | .name _ | .absent _ | .beyond _ _ _ => none
  | .literal v => some (.value v)
  | .field e key => do settled (Datum.field (← e.constant?) key)
  | .item e index => do settled (Datum.item (← e.constant?) (← index.constant?))
  | .either a b => do
    let d ← a.constant?
    if ← settled d.truth then return d else b.constant?
  | .both a b => do
    let d ← a.constant?
    if ← settled d.truth then b.constant? else return d
  | .negate e => do return .bool (!(← settled (← e.constant?).truth))
  | .choose condition yes no => do
    if ← settled (← condition.constant?).truth then yes.constant? else no.constant?
  | .equal a b => do return .bool (← settled ((← a.constant?).equal (← b.constant?)))
  | .among a b => do return .bool (← settled ((← a.constant?).among (← b.constant?)))
  | .filtered e f => do settled (f.apply (← e.constant?))
where
  settled {α : Type} (outcome : Except Datum.Stop α) : Option α := outcome.toOption

/-- The unknown filters of an expression with their lines. -/
def Expr.unknownFilters (e : Expr) : List (String × Nat) :=
  if e.constant?.isSome then []
  else match e with
    | .field e _ | .negate e => e.unknownFilters
    | .item a b | .either a b | .both a b | .equal a b | .among a b | .beyond _ a b =>
      a.unknownFilters ++ b.unknownFilters
    | .filtered e (.unknown filter line) => (filter, line) :: e.unknownFilters
    | .filtered e _ => e.unknownFilters
    | _ => []

/-- The first use of a name among expressions and what comes after: whether it is read. -/
def Expr.reads (x : String) : Expr → Bool
  | .name y => x == y
  | .literal _ | .absent _ => false
  | .field e _ | .negate e | .filtered e _ => e.reads x
  | .item a b | .either a b | .both a b | .equal a b | .among a b | .beyond _ a b =>
    a.reads x || b.reads x
  | .choose condition yes no => condition.reads x || yes.reads x || no.reads x

/-- Whether the first use of a name reads it; there may be none. -/
def Expr.use? (x : String) (e : Expr) : Option Bool := if e.reads x then some true else none

mutual

def Node.use? (x : String) : Node → Option Bool
  | .text _ => none
  | .print e | .embed e => e.use? x
  | .branch condition yes no => ((condition.use? x).or (useIn? x yes)).or (useIn? x no)
  | .each y source body otherwise _ =>
    if x = y then some false
    else ((source.use? x).or (useIn? x body)).or (useIn? x otherwise)
  | .assign y e => if x = y then some false else e.use? x

def useIn? (x : String) : List Node → Option Bool
  | [] => none
  | n :: rest => (n.use? x).or (useIn? x rest)

end

mutual

/-- The lines where loops give their items a name. -/
def Node.linesNaming (x : String) : Node → List Nat
  | .each y _ body otherwise line =>
    (if x = y then [line] else []) ++ linesNamingIn x body ++ linesNamingIn x otherwise
  | .branch _ yes no => linesNamingIn x yes ++ linesNamingIn x no
  | _ => []

def linesNamingIn (x : String) : List Node → List Nat
  | [] => []
  | n :: rest => n.linesNaming x ++ linesNamingIn x rest

end

/-- The faults of expressions, unless they are only met when they are reached. -/
def Expr.faults (reached : Bool) (e : Expr) : List Malformed :=
  if reached then
    e.unknownFilters.map fun (filter, line) =>
      ⟨line, "No filter named " ++ Text.quoted filter ++ "."⟩
  else []

mutual

/-- The faults of a node in the order in which they are found; `reached` is false in branches. -/
def Node.faults (reached : Bool) : Node → List Malformed
  | .text _ => []
  | .print e | .assign _ e | .embed e => e.faults reached
  | .branch _ yes no => faultsIn false yes ++ faultsIn false no
  | .each x source body otherwise line =>
    (if useIn? "loop" body = some true then
      (Node.each x source body otherwise line).linesNaming "loop" |>.map fun line =>
        ⟨line, "Can't assign to special loop variable in for-loop"⟩
    else [])
      ++ source.faults reached ++ faultsIn true body ++ faultsIn true otherwise

def faultsIn (reached : Bool) : List Node → List Malformed
  | [] => []
  | n :: rest => n.faults reached ++ faultsIn reached rest

end

/-- Reads the template of a name from its text. -/
def ofText (name text : String) : Except Refusal Template := do
  let template ← nodesOfText name text
  match faultsIn true template with
  | [] => return template
  | fault :: _ => .error (some fault)

end ApiScaffold.Template
