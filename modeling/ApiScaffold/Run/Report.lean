import ApiScaffold.Generator.Settings
import ApiScaffold.Model.Basic
import ApiScaffold.Operation.Basic

/-!
# The report of a run

What was built, which files were written or left out, and the faults that were recorded, each list
in the order of the run. A run with recorded faults has a report as well, and its exit status tells
the difference.
-/

namespace ApiScaffold

structure Report where
  generatorId : String
  models : List Model
  operations : List Operation
  groups : List OperationGroup
  /-- The destinations that were written, in order. -/
  files : List String
  /-- The destinations that were left out. -/
  skipped : List String
  /-- The recorded faults: of schemas, of operations, of files. -/
  errors : List Failure

namespace Report

def isClean (r : Report) : Bool := r.errors.isEmpty

/-- The exit status of a run: 1 if faults were recorded, else 0. -/
def status (r : Report) : Nat := if r.isClean then 0 else 1

/-- The report in one line. -/
def summary (r : Report) : String :=
  r.generatorId ++ ": " ++ toString r.files.length ++ " files (" ++ toString r.models.length
    ++ " models, " ++ toString r.operations.length ++ " operations)"
    ++ (if r.skipped.isEmpty then "" else ", " ++ toString r.skipped.length ++ " ignored")
    ++ (if r.errors.isEmpty then "" else ", " ++ toString r.errors.length ++ " errors")

end Report

end ApiScaffold
