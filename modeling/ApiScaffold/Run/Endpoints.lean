import ApiScaffold.Operation.Build
import ApiScaffold.Operation.Group

/-!
# The endpoints of a run

Each path and method becomes an operation or has a fault that is recorded (`Endpoint`). Only a fault
in the building of the operation is recorded; any other failure ends the run.

A path item without methods to read ends the run as well, but only when the walk comes to it, so
that the faults of the endpoints before it are met first.
-/

namespace ApiScaffold

/-- What a path and a method come to. -/
inductive Endpoint where
  | operation (op : Operation)
  | failed (subject : Value) (fault : BuildFault)

namespace Endpoint

/-- What an operation of the document comes to. Only a fault in the building is recorded; any other
failure ends the run. -/
def ofSlot (g : Generator) (spec : Spec) (slot : Spec.Slot) : Logged Endpoint :=
  match Operation.ofSlot g spec slot.path slot.method slot.operation (.map slot.pathItem) with
  | .ok op => do
    Logged.report .debug .operations
      ("Built operation " ++ op.httpMethod ++ " " ++ op.path.display ++ " -> " ++ op.nickname)
    return .operation op
  | .error (.build subject fault) => do
    Logged.report .warning .generator
      ("Operation " ++ Text.upper slot.method ++ " " ++ slot.path.display ++ " failed: "
        ++ fault.message)
    return .failed subject fault
  | .error failure => Logged.ofAttempt (.error failure)

/-- The endpoints of a document, by path and method. A path that has no methods to read ends the run
when the walk comes to it. -/
def all (g : Generator) (spec : Spec) : Logged (List Endpoint) := do
  let (slots, stop) := spec.slots
  let endpoints ← slots.mapM (ofSlot g spec)
  match stop with
  | some failure => Logged.ofAttempt (.error failure)
  | none => return endpoints

def operation? : Endpoint → Option Operation
  | operation op => some op
  | _ => none

/-- The fault that is recorded. -/
def failure? : Endpoint → Option Failure
  | failed subject fault => some (.build subject fault)
  | _ => none

end Endpoint

end ApiScaffold
