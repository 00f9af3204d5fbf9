import ApiScaffold.Target.Basic
import ApiScaffold.Template.Builtin
import ApiScaffold.Template.Check

/-!
# The templates of a run

The templates that a run can use: texts given to it, which come first, and the built-in ones of its
target. Rendering gives the text for one destination or the fault that there is none.

* A template is found by the segments of its id; an id that leads upwards has none (`find`).
* Templates may embed each other, to a depth (`embedded`).
* A fault keeps the destination and what is wrong; an operation that is not carried out has no
  wording and ends the run.

What a run needs of all this is an `Engine`: a function from id, scope and destination to a text or
a failure. `engineOf` is the one that the templates here make.
-/

namespace ApiScaffold.Template

open Datum (Stop)

/-- A template that is given to a run under a relative path. Its file may hold no text. -/
structure Override where
  path : String
  text? : Option String

/-- The templates of a run: those given to it, and the built-in directories in the order in which
they are searched. -/
structure Library where
  overrides : List Override
  folders : List String

/-- A template where it is found. -/
inductive Origin where
  | override (path : String) (text? : Option String)
  | builtin (entry : Builtin.Entry)

/-- The segments of a template's id; an id that leads upwards has none, nor has an empty one. -/
def segments? (id : String) : Option (List String) :=
  let parts := (Text.splitString '/' id).filter fun part => part != "" && part != "."
  if parts.isEmpty || parts.contains ".." then none else some parts

namespace Library

def ofTarget (t : Target) (overrides : List Override) : Library where
  overrides
  folders := t.templateFolders

/-- The template that is given under a path. -/
def override? (library : Library) (parts : List String) : Option Override :=
  library.overrides.find? fun o => segments? o.path = some parts

/-- The built-in template of a name in the first directory that has it. -/
def builtin? (library : Library) (file : String) : Option Builtin.Entry :=
  library.folders.findSome? fun folder =>
    Builtin.all.find? fun entry => entry.folder = folder && entry.file = file

/-- Where the template of an id is found. -/
def find? (library : Library) (id : String) : Option Origin :=
  (segments? id).bind fun parts =>
    let path := String.intercalate "/" parts
    match library.override? parts with
    | some given => some (.override path given.text?)
    | none => (library.builtin? path).map .builtin

end Library

namespace Origin

/-- The template of an id that is found here. A file without a text has none, and no account of the
fault. -/
def template (id : String) : Origin → Except Refusal Template
  | override _ (some text) => ofText id text
  | override _ none => .error none
  | builtin entry => .ok entry.template

/-- A short account of where a template is found. -/
def account : Origin → String
  | override path _ => "override:" ++ path
  | builtin entry => "builtin:" ++ entry.folder ++ "/" ++ entry.file

end Origin

namespace Library

/-- How deep templates may be embedded in each other. -/
def depthLimit : Nat := 100

/-- The text of a template inside another, embedded to a depth. -/
def embedded (library : Library) : Nat → String → Scope → Except Stop String
  | 0, _, _ => .error .unsuitable
  | depth + 1, id, scope =>
    match library.find? id with
    | none => .error (.missingInclude id)
    | some origin => match origin.template id with
      | .error (some fault) => .error (.malformed fault.detail)
      | .error none => .error .unsuitable
      | .ok template => return (← runAll (library.embedded depth) scope template).1

/-- The fault of a template that stopped. -/
def faultOf (id : String) : Stop → Option RenderFault
  | .unbound binding => some (.unbound id binding)
  | .missingInclude name => some (.missingInclude id name)
  | .malformed detail => some (.malformedInside id detail)
  | .unknownFilter name => some (.unknownFilter id name)
  | .unsuitable => none

/-- The template of an id, for a destination. -/
def load (library : Library) (id destination : String) : Attempt Template :=
  match library.find? id with
  | none => .error (.render destination (.missing id))
  | some origin => match origin.template id with
    | .error (some fault) => .error (.render destination (.malformed id fault.line fault.detail))
    | .error none => .error .unsuitable
    | .ok template => .ok template

/-- The name of the template itself, which no scope may give to anything else. -/
def reservedName : String := "self"

/-- The text of the template of an id in a scope, for a destination. -/
def render (library : Library) (id : String) (scope : Scope) (destination : String) :
    Attempt String := do
  let template ← library.load id destination
  if (scope.lookup reservedName).isSome then .error .unsuitable
  else match runAll (library.embedded depthLimit) scope template with
    | .ok (text, _) => .ok text
    | .error stop => match faultOf id stop with
      | some fault => .error (.render destination fault)
      | none => .error .unsuitable

/-- Where the template of an id is found; its text has to be well-formed. -/
def source (library : Library) (id : String) : Attempt String :=
  match library.find? id with
  | none => .error (.render id .noSource)
  | some origin => match origin.template id with
    | .error _ => .error .unsuitable
    | .ok _ => .ok origin.account

end Library

/-- What renders: from the id of a template, what the template sees, and the destination that a
fault names. -/
abbrev Engine := String → Scope → String → Attempt String

/-- What renders the templates of a target, and those that come before them. -/
def engineOf (overrides : List Override) (t : Target) : Engine :=
  (Library.ofTarget t overrides).render

end ApiScaffold.Template
