import ApiScaffold.Failure
import ApiScaffold.Number.Numeral
import ApiScaffold.Target.Basic
import ApiScaffold.Text.Case

/-!
# Options

Options by name in the order in which they were given, and the reading of texts, flags and counts
from their values. An option that is refused says why, with its value, and so the value has to be
one that can be written.

Options are merged from the defaults that all targets start from, the defaults of a target and those
that are given, the later winning (`defaultsOf`).
-/

namespace ApiScaffold

/-- Options in the order in which they were given. -/
abbrev Options := List (String × Value)

namespace Options

def get? (options : Options) (key : String) : Option Value := List.lookup key options

/-- Gives an option a value, in its place if it has one. -/
def set : Options → String → Value → Options
  | [], key, value => [(key, value)]
  | (k, old) :: rest, key, value =>
    if k = key then (k, value) :: rest else (k, old) :: set rest key value

def unset (options : Options) (key : String) : Options :=
  List.filter (fun option => option.1 ≠ key) options

/-- Options in which those of the second list win. -/
def merge (base winning : Options) : Options :=
  List.foldl (fun options option => set options option.1 option.2) base winning

/-- The defaults that all targets start from. -/
def common : Options := [
  ("baseName", .str "openapi"),
  ("artifactVersion", .str "1.0.0"),
  ("groupId", .str "io.openapi"),
  ("interfaceOnly", .bool false),
  ("includeBuildDescriptor", .bool true),
  ("sourceFolder", .str "src/main/java"),
  ("apiPackage", .str "io.openapi.api"),
  ("modelPackage", .str "io.openapi.model"),
  ("invokerPackage", .str "io.openapi"),
  ("packageName", .str "openapi_client"),
  ("permissiveTypes", .bool false),
  ("generateModels", .bool true),
  ("generateApis", .bool true),
  ("generateSupportingFiles", .bool true),
  ("workers", .int 1)]

/-- The options that settings have a field for. -/
def known : List String := "artifactId" :: common.map Prod.fst

/-- Every option that a target understands, with its default. -/
def defaultsOf (t : Target) : Options := merge common t.optionDefaults

def trueWords : List String := ["true", "1", "yes", "on"]

def falseWords : List String := ["false", "0", "no", "off"]

/-- Refuses the value of an option for a fault whose account shows it, which needs that its integers
can be written. -/
def refuse {α : Type} (value : Value) (fault : ConfigFault) : Attempt α :=
  if value.isWritable then .error (.config fault) else .error .unsuitable

/-- Reads a text: that of any value whose integers can be written. -/
def text (value : Value) : Attempt String := require value.display?

/-- Reads a flag: a boolean, the integers 0 and 1, or one of the words for yes and no. -/
def flag (key : String) (value : Value) : Attempt Bool :=
  let refusal : Attempt Bool := refuse value (.expectsBoolean key value)
  match value with
  | .bool b => .ok b
  | .int 0 => .ok false
  | .int 1 => .ok true
  | .str s =>
    let word := Text.lower (Text.trim s)
    if trueWords.contains word then .ok true
    else if falseWords.contains word then .ok false
    else refusal
  | _ => refusal

/-- The integer that a value counts as. A number without an integer part that is infinite is beyond
what the reading of counts covers. -/
def integerPart (key : String) (value : Value) : Attempt Int :=
  let refusal : Attempt Int := refuse value (.expectsInteger key value)
  match value with
  | .bool b => .ok (if b then 1 else 0)
  | .int n => .ok n
  | .float .nan => refusal
  | .float x => require x.truncate?
  | .str s => match Numeral.integer? s with
    | some n => .ok n
    | none => refusal
  | _ => refusal

/-- Reads an integer that is no boolean and not below a limit. -/
def count (key : String) (value : Value) (least : Int) : Attempt Int := do
  let n ← integerPart key value
  match value with
  | .bool _ => refuse value (.integerTooSmall key least value)
  | _ => if n < least then refuse value (.integerTooSmall key least value) else .ok n

end Options

end ApiScaffold
