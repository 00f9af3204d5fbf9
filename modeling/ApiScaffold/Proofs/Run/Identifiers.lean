import ApiScaffold.Proofs.Operation.Distinct
import ApiScaffold.Proofs.Run.Coverage
import ApiScaffold.Proofs.Run.Endpoints
import ApiScaffold.Proofs.Target.Identifiers

/-!
# The method names of a run

The method names of a run are legal when operations are built, and telling operations apart puts
only HTTP methods and numbers behind them, which keeps them legal (`IsNamed`,
`isNamed_of_distinguishAll`).

`legal_names` collects what is known of all names: fields, methods and classes are legal for each
target whatever they are made from, and methods stay so when operations are told apart.
-/

namespace ApiScaffold

namespace Operation

/-- The name of an operation is legal, and its HTTP method is one that path items are read for. -/
structure IsNamed (t : Target) (op : Operation) : Prop where
  legal : t.IsLegal op.nickname
  method : ∃ method ∈ Spec.methods, op.httpMethod = Text.upper method

variable {t : Target} {op : Operation}

theorem IsNamed.appendMethod (h : op.IsNamed t) (ht : t.Escapes) (n : Nat) :
    (appendMethod op n).IsNamed t := by
  unfold Operation.appendMethod
  split
  case isTrue => exact h
  case isFalse =>
    obtain ⟨method, hm, hmethod⟩ := h.method
    refine ⟨?_, method, hm, hmethod⟩
    rw [hmethod]
    exact ht.legal_append_method h.legal hm

theorem IsNamed.appendNumber (h : op.IsNamed t) (ht : t.Escapes) (n : Nat) :
    (appendNumber op n).IsNamed t := by
  unfold Operation.appendNumber
  split
  case isTrue => exact h
  case isFalse => exact ⟨ht.legal_append_number h.legal _, h.method⟩

theorem isNamed_of_distinguishAll (ht : t.Escapes) {ops named : List Operation}
    (hops : ∀ op ∈ ops, op.IsNamed t) (h : distinguishAll ops = .ok named) :
    ∀ op ∈ named, op.IsNamed t :=
  distinguishAll_forall (fun _ n hop => hop.appendMethod ht n)
    (fun _ n hop => hop.appendNumber ht n) hops h

/-- An operation of a document is named so when it is built. -/
theorem isNamed_of_slot {g : Generator} (ht : g.target.Escapes) {spec : Spec} {slot : Spec.Slot}
    (hs : slot ∈ spec.slots.1) (h : Endpoint.builtAt g spec slot = .ok op) :
    op.IsNamed g.target := by
  obtain ⟨_, _, _, hmethod, _⟩ := Spec.mem_of_slots hs
  obtain ⟨_, _, _, _, _, _, _, -, -, hparts⟩ := ofSlot_ok h
  rw [hparts.assembled]
  exact ⟨ht.legal_operationName _, slot.method, hmethod, rfl⟩

end Operation

namespace Target

open Operation

variable {t : Target}

/-- The names of a target are legal whatever they are made from, and they stay so when operations
are told apart, be it any operations of legal names or those of a run. -/
theorem legal_names (ht : t ∈ [jaxrsSpec, spring, python]) :
    (∀ name, t.IsLegal (t.modelName name) ∧ t.IsLegal (t.fieldName name)
      ∧ t.IsLegal (t.operationName name))
    ∧ (∀ ops named, (∀ op ∈ ops, op.IsNamed t) → distinguishAll ops = .ok named →
        ∀ op ∈ named, t.IsLegal op.nickname)
    ∧ ∀ g spec endpoints named, g.target = t → (Endpoint.all g spec).result = .ok endpoints →
        distinguishAll (endpoints.filterMap Endpoint.operation?) = .ok named →
        ∀ op ∈ named, t.IsLegal op.nickname := by
  have hesc := escapes_of_builtin ht
  refine ⟨fun name => ⟨hesc.legal_modelName name, hesc.legal_fieldName name,
    hesc.legal_operationName name⟩, ?lists, ?runs⟩
  case lists =>
    intro ops named hops hd op hop
    exact (isNamed_of_distinguishAll hesc hops hd op hop).legal
  case runs =>
    rintro g spec endpoints named rfl hall hd op hop
    refine (isNamed_of_distinguishAll hesc ?_ hd op hop).legal
    intro built hbuilt
    obtain ⟨slot, hs, hok⟩ := Endpoint.exists_of_mem_operations hall hbuilt
    exact isNamed_of_slot hesc hs hok

/-- Reserved words, a digit in front and a text without letters in Python, three methods that would
all be called after one reserved word, and the methods of a shop. -/
theorem legal_names_python :
    python ∈ [jaxrsSpec, spring, python]
    ∧ [python.modelName "None", python.fieldName "Class", python.fieldName "1st",
        python.fieldName "日本", python.operationName "IMPORT"]
      = ["ModelNone", "class_", "_1st", "value", "call_import"]
    ∧ python.IsLegal (python.modelName "None")
    ∧ (∃ named, distinguishAll (List.replicate 3 (sketch "pets" (python.operationName "IMPORT")
          "GET")) = .ok named
      ∧ named.map nickname = ["call_import", "call_importGet", "call_importGet2"]
      ∧ ∀ op ∈ named, python.IsLegal op.nickname)
    ∧ ∃ endpoints named, (Endpoint.all (.ofTarget python []) .shop).result = .ok endpoints
      ∧ distinguishAll (endpoints.filterMap Endpoint.operation?) = .ok named
      ∧ named.map nickname = ["read", "readPost"] ∧ ∀ op ∈ named, python.IsLegal op.nickname := by
  obtain ⟨hnames, hlists, hruns⟩ := @legal_names python (by simp)
  refine ⟨by simp, by decide +kernel, (hnames "None").1, ⟨_, rfl, by decide +kernel, ?_⟩, ?_⟩
  · have hnamed : (sketch "pets" (python.operationName "IMPORT") "GET").IsNamed python :=
      ⟨(hnames "IMPORT").2.2, "get", by decide, rfl⟩
    refine hlists (List.replicate 3 (sketch "pets" (python.operationName "IMPORT") "GET")) _ ?_ rfl
    intro op hop
    rw [List.eq_of_mem_replicate hop]
    exact hnamed
  · have hbrief : ((Endpoint.all (.ofTarget python []) .shop).result.toOption.map fun endpoints =>
        (distinguishAll (endpoints.filterMap Endpoint.operation?)).toOption.map (·.map nickname))
        = some (some ["read", "readPost"]) := by
      decide +kernel
    obtain ⟨endpoints, hall, hb⟩ := Attempt.exists_of_toOption_map hbrief
    obtain ⟨named, hd, hnicknames⟩ := Attempt.exists_of_toOption_map hb
    exact ⟨endpoints, named, hall, hd, hnicknames, hruns (.ofTarget python []) .shop _ _ rfl hall hd⟩

end Target

end ApiScaffold
