import ApiScaffold.Proofs.Attempt
import ApiScaffold.Proofs.Operation.Group
import ApiScaffold.Run.Endpoints

/-!
# What becomes of the operations

What becomes of the operations of a document: each that is built stands in one place of the
document.

`builtAt` is the operation of a slot, where it can be built, and `Outcome` what a slot comes to, an
operation or a recorded fault. `all_ok` shows that every slot comes to one endpoint, and that all
paths of a document whose endpoints are gathered can be read; a document without lone halves has
operations without any.
-/

namespace ApiScaffold.Endpoint

variable {g : Generator} {spec : Spec}

theorem operation?_eq_some {e : Endpoint} {op : Operation} :
    e.operation? = some op ↔ e = .operation op := by
  cases e <;> simp [operation?]

/-- The operation of a slot, where it can be built. -/
def builtAt (g : Generator) (spec : Spec) (slot : Spec.Slot) : Attempt Operation :=
  Operation.ofSlot g spec slot.path slot.method slot.operation (.map slot.pathItem)

/-- What a slot comes to. -/
inductive Outcome (g : Generator) (spec : Spec) (slot : Spec.Slot) : Endpoint → Prop
  | operation {op : Operation} (h : builtAt g spec slot = .ok op) :
      Outcome g spec slot (.operation op)
  | failed {subject : Value} {fault : BuildFault}
      (h : builtAt g spec slot = .error (.build subject fault)) :
      Outcome g spec slot (.failed subject fault)

theorem ofSlot_ok {slot : Spec.Slot} {e : Endpoint} (h : (ofSlot g spec slot).result = .ok e) :
    Outcome g spec slot e := by
  unfold ofSlot at h
  split at h
  next built hbuilt =>
    simp only [Logged.result_bind, Logged.result_report, Attempt.bind_eq_ok,
      Logged.result_pure, Except.ok.injEq] at h
    obtain ⟨-, -, rfl⟩ := h
    exact .operation hbuilt
  next subject fault hfault =>
    simp only [Logged.result_bind, Logged.result_report, Attempt.bind_eq_ok,
      Logged.result_pure, Except.ok.injEq] at h
    obtain ⟨-, -, rfl⟩ := h
    exact .failed hfault
  next => cases h

/-- Every slot of a document comes to one endpoint, and all its paths can be read. -/
theorem all_ok {endpoints : List Endpoint} (h : (all g spec).result = .ok endpoints) :
    spec.slots.2 = none ∧ List.Forall₂ (Outcome g spec) spec.slots.1 endpoints := by
  simp only [all, Logged.result_bind, Logged.result_mapM, Attempt.bind_eq_ok] at h
  obtain ⟨built, hb, h⟩ := h
  split at h
  next => cases h
  next hstop =>
    cases h
    exact ⟨hstop, (Attempt.mapM_eq_ok.mp hb).imp fun slot e he => ofSlot_ok he⟩

/-- An operation of a run is that of a slot of the document. -/
theorem exists_of_mem_operations {endpoints : List Endpoint}
    (h : (all g spec).result = .ok endpoints) {op : Operation}
    (hop : op ∈ endpoints.filterMap operation?) :
    ∃ slot ∈ spec.slots.1, Operation.ofSlot g spec slot.path slot.method slot.operation
      (.map slot.pathItem) = .ok op := by
  obtain ⟨e, he, hop⟩ := List.mem_filterMap.mp hop
  rw [operation?_eq_some.mp hop] at he
  obtain ⟨slot, hs, hout⟩ := Attempt.exists_of_forall₂ (all_ok h).2 he
  cases hout with
  | operation hok => exact ⟨slot, hs, hok⟩

theorem isWhole_of_mem_operations {endpoints : List Endpoint} (ht : g.target.IsWhole)
    (hspec : spec.IsWhole) (h : (all g spec).result = .ok endpoints) {op : Operation}
    (hop : op ∈ endpoints.filterMap operation?) : op.IsWhole := by
  obtain ⟨slot, hs, hok⟩ := exists_of_mem_operations h hop
  have hslot := hspec.slots hs
  exact Operation.isWhole_ofSlot ht hspec hslot.path hslot.method hslot.operation hslot.pathItem
    hok

end ApiScaffold.Endpoint
