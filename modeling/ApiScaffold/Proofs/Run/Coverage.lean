import ApiScaffold.Proofs.Document.Textual
import ApiScaffold.Proofs.Generator.Preprocess
import ApiScaffold.Proofs.Model.Fault
import ApiScaffold.Proofs.Run.Components
import ApiScaffold.Proofs.Run.Conservation
import ApiScaffold.Proofs.Run.Endpoints

/-!
# What a report covers

Each component schema is inlined, or has one model, or has one recorded fault; each path and method
has one operation or one recorded fault; and each operation stands in one group. Nothing else is in
the report.

* `slots_of_textual`: the slots of a document whose paths are texts are its operations, each once. A
  slot is a path and a method, so different paths have different slots.
* `Covers`, of components and of endpoints, is said of the document alone. `covers_of_outcomes` has
  it from what each schema comes to, and `all_covers` from what each slot does.
* `generate_covers`: the report of every run over a document with textual keys covers its component
  schemas and its operations, with groups that take the operations apart.

The shop at the end has an alias, faults of both kinds and two operations of one name.
-/

namespace ApiScaffold

/-! ## The operations of a document -/

namespace Spec

/-- Two operations do not stand under one path and method. -/
def Slot.Differs (a b : Slot) : Prop := ¬(a.path = b.path ∧ a.method = b.method)

/-- A slot is the operation of a method in a path item that the document has. -/
def HasSlot (spec : Spec) (slot : Slot) : Prop :=
  ∃ paths, spec.paths = .map paths ∧ (slot.path, .map slot.pathItem) ∈ paths
    ∧ slot.method ∈ methods ∧ Members.get? slot.pathItem slot.method = some slot.operation

theorem mem_slotsUntil {members : Members} (h : (slotsUntil members).2 = none) {slot : Slot} :
    slot ∈ (slotsUntil members).1 ↔ (slot.path, .map slot.pathItem) ∈ members
      ∧ slot.method ∈ methods ∧ Members.get? slot.pathItem slot.method = some slot.operation := by
  fun_induction slotsUntil members with
  | case1 => simp
  | case2 path item rest slots stop heq ih =>
      rw [heq] at ih
      simp only [List.mem_append, mem_slotsOf, ih h, List.mem_cons, Prod.mk.injEq, Value.map.injEq]
      tauto
  | case3 => cases h

theorem pairwise_slotsOf (path : Value) (item : Members) :
    (slotsOf path item).Pairwise Slot.Differs := by
  have hmethods : methods.Pairwise (· ≠ ·) := by decide
  refine hmethods.filterMap _ fun a b hab slot hslot other hother => ?_
  obtain ⟨_, -, rfl⟩ := Option.map_eq_some_iff.mp hslot
  obtain ⟨_, -, rfl⟩ := Option.map_eq_some_iff.mp hother
  exact fun h => hab h.2

/-- Different paths have different slots. -/
theorem pairwise_slotsUntil {members : Members} (h : (members.map Prod.fst).Nodup) :
    (slotsUntil members).1.Pairwise Slot.Differs := by
  fun_induction slotsUntil members with
  | case1 => exact .nil
  | case2 path item rest slots stop heq ih =>
      rw [heq] at ih
      obtain ⟨hnew, hrest⟩ := List.nodup_cons.mp h
      refine List.pairwise_append.mpr ⟨pairwise_slotsOf _ _, ih hrest, ?_⟩
      intro a ha b hb hsame
      have hlater : b.path ∈ rest.map Prod.fst :=
        List.mem_map_of_mem (@mem_of_slotsUntil rest b (by rw [heq]; exact hb)).1
      rw [← hsame.1, (mem_slotsOf.mp ha).1] at hlater
      exact hnew hlater
  | case3 => exact .nil

/-- The slots of a document whose paths are texts are its operations, each once. -/
theorem slots_of_textual {spec : Spec} (hpaths : spec.paths.isTextual = true)
    (hstop : spec.slots.2 = none) :
    spec.slots.1.Pairwise Slot.Differs ∧ ∀ slot, slot ∈ spec.slots.1 ↔ spec.HasSlot slot := by
  unfold Spec.slots at hstop ⊢
  cases hp : spec.paths with
  | map paths =>
      rw [hp] at hpaths
      have hnames := Value.hasNames_of_textual hpaths
      obtain ⟨sorted, hs, hperm, -⟩ := hnames.sorted
      simp only [hp, Value.entries, Bind.bind, Except.bind, hs, require] at hstop ⊢
      have hkeys : (sorted.map Prod.fst).Nodup :=
        List.Nodup.of_map Value.display (by
          rw [List.map_map]
          exact (hnames.perm hperm.symm).distinct)
      refine ⟨pairwise_slotsUntil hkeys, fun slot => ?_⟩
      rw [mem_slotsUntil hstop, hperm.mem_iff, HasSlot, hp]
      simp
  | _ => simp [hp, Value.entries, Bind.bind, Except.bind] at hstop

end Spec

/-! ## Components -/

namespace Component

variable {g : Generator} {spec : Spec}

/-- The name of the schema that a component comes from. -/
def label : Component → String
  | inlined name => name.display
  | model m => m.name
  | failed name _ _ => name.display

/-- A schema without a model, with its fault. -/
def fault? : Component → Option (String × BuildFault)
  | failed name _ fault => some (name.display, fault)
  | _ => none

/-- Models and faults stand for component schemas: each that is not inlined has one of them, and
each of them has one schema. -/
structure Covers (g : Generator) (spec : Spec) (schemas : Members) (models : List Model)
    (faults : List (String × BuildFault)) : Prop where
  models_increasing : (models.map Model.name).Pairwise (· < ·)
  faults_increasing : (faults.map Prod.fst).Pairwise (· < ·)
  exactly_one : ∀ name schema, (.str name, schema) ∈ schemas →
    ExactlyOne (isInlined schema = .ok true) (name ∈ models.map Model.name)
      (name ∈ faults.map Prod.fst)
  model_of : ∀ m ∈ models, ∃ schema, (.str m.name, schema) ∈ schemas
    ∧ Model.ofSchema g spec (.str m.name) schema = .ok m
  fault_of : ∀ f ∈ faults, ∃ schema, (.str f.1, schema) ∈ schemas
    ∧ Model.ofSchema g spec (.str f.1) schema = .error (.build (.str f.1) f.2)

theorem Outcome.label_eq {name : String} {schema : Value} {c : Component}
    (h : Outcome g spec (.str name) schema c) : c.label = name := by
  cases h with
  | inlined _ => rfl
  | model _ hm => exact (Model.ofSchema_className hm).1
  | failed _ _ => rfl

/-- Components that have come from named schemas have the names of these. -/
theorem labels_eq {schemas : Members} {components : List Component}
    (htext : ∀ m ∈ schemas, m.1 = .str m.1.display)
    (h : List.Forall₂ (fun entry c => Outcome g spec entry.1 entry.2 c) schemas components) :
    components.map label = schemas.names := by
  induction h with
  | nil => rfl
  | @cons entry c rest components hout _ ih =>
      rw [List.forall_mem_cons] at htext
      rw [htext.1] at hout
      rw [List.map_cons, ih htext.2, hout.label_eq]
      rfl

theorem models_sublist (components : List Component) :
    ((components.filterMap model?).map Model.name).Sublist (components.map label) := by
  induction components with
  | nil => exact .slnil
  | cons c rest ih =>
      cases c with
      | model m => exact ih.cons_cons m.name
      | _ => exact ih.cons _

theorem faults_sublist (components : List Component) :
    ((components.filterMap fault?).map Prod.fst).Sublist (components.map label) := by
  induction components with
  | nil => exact .slnil
  | cons c rest ih =>
      cases c with
      | failed name subject fault => exact ih.cons_cons name.display
      | _ => exact ih.cons _

theorem mem_models_iff {components : List Component} {name : String} :
    name ∈ (components.filterMap model?).map Model.name ↔
      ∃ c ∈ components, c.label = name ∧ ∃ m, c = .model m := by
  simp only [List.mem_map, List.mem_filterMap, model?_eq_some]
  constructor
  · rintro ⟨m, ⟨c, hc, rfl⟩, rfl⟩
    exact ⟨_, hc, rfl, m, rfl⟩
  · rintro ⟨_, hc, rfl, m, rfl⟩
    exact ⟨m, ⟨_, hc, rfl⟩, rfl⟩

theorem fault?_eq_some {c : Component} {f : String × BuildFault} :
    c.fault? = some f ↔ ∃ name subject, c = .failed name subject f.2 ∧ name.display = f.1 := by
  cases c <;> simp [fault?, Prod.ext_iff, and_comm, eq_comm]

theorem mem_faults_iff {components : List Component} {name : String} :
    name ∈ (components.filterMap fault?).map Prod.fst ↔
      ∃ c ∈ components, c.label = name ∧ ∃ n subject fault, c = .failed n subject fault := by
  simp only [List.mem_map, List.mem_filterMap, fault?_eq_some]
  constructor
  · rintro ⟨f, ⟨c, hc, n, subject, rfl, hn⟩, rfl⟩
    exact ⟨_, hc, hn, n, subject, f.2, rfl⟩
  · rintro ⟨_, hc, rfl, n, subject, fault, rfl⟩
    exact ⟨(n.display, fault), ⟨_, hc, n, subject, rfl, rfl⟩, rfl⟩

/-- Among components with different names, the one with a name is what its schema comes to. -/
theorem exactly_one_of_mem {components : List Component} (hn : (components.map label).Nodup)
    {name : String} {schema : Value} {c : Component} (hc : c ∈ components)
    (hout : Outcome g spec (.str name) schema c) :
    ExactlyOne (isInlined schema = .ok true) (name ∈ (components.filterMap model?).map Model.name)
      (name ∈ (components.filterMap fault?).map Prod.fst) := by
  have hsame : ∀ {other : Component}, other ∈ components → other.label = name → other = c :=
    fun ho hlabel => List.inj_on_of_nodup_map hn ho hc (hlabel.trans hout.label_eq.symm)
  have hmodel : name ∈ (components.filterMap model?).map Model.name ↔ ∃ m, c = .model m := by
    rw [mem_models_iff]
    constructor
    · rintro ⟨other, ho, hlabel, m, rfl⟩
      exact ⟨m, (hsame ho hlabel).symm⟩
    · exact fun h => ⟨c, hc, hout.label_eq, h⟩
  have hfault : name ∈ (components.filterMap fault?).map Prod.fst ↔
      ∃ n subject fault, c = .failed n subject fault := by
    rw [mem_faults_iff]
    constructor
    · rintro ⟨other, ho, hlabel, n, subject, fault, rfl⟩
      exact ⟨n, subject, fault, (hsame ho hlabel).symm⟩
    · exact fun h => ⟨c, hc, hout.label_eq, h⟩
  rw [hmodel, hfault]
  unfold ExactlyOne
  cases hout with
  | inlined ha => simp [ha]
  | model ha _ => simp [ha]
  | failed ha _ => simp [ha]

/-- A component is what the schema of its name comes to. -/
theorem outcome_of_mem {schemas : Members} {components : List Component}
    (htext : ∀ m ∈ schemas, m.1 = .str m.1.display)
    (h : List.Forall₂ (fun entry c => Outcome g spec entry.1 entry.2 c) schemas components)
    {c : Component} (hc : c ∈ components) :
    ∃ schema, (.str c.label, schema) ∈ schemas ∧ Outcome g spec (.str c.label) schema c := by
  obtain ⟨⟨key, schema⟩, hentry, hout⟩ := Attempt.exists_of_forall₂ h hc
  have hkey := htext _ hentry
  dsimp only at hkey hout
  rw [hkey] at hout hentry
  rw [hout.label_eq]
  exact ⟨schema, hentry, hout⟩

/-- Components that have come from schemas whose names increase cover these. -/
theorem covers_of_outcomes {schemas : Members} {components : List Component}
    (hnames : schemas.HasNames) (hincreasing : schemas.names.Pairwise (· < ·))
    (h : List.Forall₂ (fun entry c => Outcome g spec entry.1 entry.2 c) schemas components) :
    Covers g spec schemas (components.filterMap model?) (components.filterMap fault?) := by
  have hlabels := labels_eq hnames.textual h
  have hlt : (components.map label).Pairwise (· < ·) := hlabels ▸ hincreasing
  have hnodup : (components.map label).Nodup := hlabels ▸ hnames.distinct
  refine ⟨hlt.sublist (models_sublist _), hlt.sublist (faults_sublist _), ?_, ?_, ?_⟩
  · intro name schema hm
    obtain ⟨c, hc, hout⟩ := Attempt.exists_of_forall₂
      (R := fun c entry => Outcome g spec entry.1 entry.2 c) h.flip hm
    exact exactly_one_of_mem hnodup hc hout
  · intro m hm
    obtain ⟨c, hc, hmodel⟩ := List.mem_filterMap.mp hm
    rw [model?_eq_some.mp hmodel] at hc
    obtain ⟨schema, hentry, hout⟩ := outcome_of_mem hnames.textual h hc
    cases hout with
    | model _ hok => exact ⟨schema, hentry, hok⟩
  · intro f hf
    obtain ⟨c, hc, hfault⟩ := List.mem_filterMap.mp hf
    obtain ⟨name, subject, rfl, hname⟩ := fault?_eq_some.mp hfault
    obtain ⟨schema, hentry, hout⟩ := outcome_of_mem hnames.textual h hc
    rw [label, hname] at hentry hout
    cases hout with
    | failed _ hfail =>
        have hsubject : subject = .str f.1 := Model.faults_ofSchema f.1 schema _ hfail
        rw [hsubject] at hfail
        exact ⟨schema, hentry, hfail⟩

/-- The recorded faults of components have these as their subjects. -/
theorem failures_of_outcomes {schemas : Members} {components : List Component}
    (htext : ∀ m ∈ schemas, m.1 = .str m.1.display)
    (h : List.Forall₂ (fun entry c => Outcome g spec entry.1 entry.2 c) schemas components) :
    components.filterMap failure?
      = (components.filterMap fault?).map fun f => .build (.str f.1) f.2 := by
  induction h with
  | nil => rfl
  | @cons entry c rest components hout _ ih =>
      rw [List.forall_mem_cons] at htext
      rw [htext.1] at hout
      cases hout with
      | failed _ hfail =>
          have hsubject : _ = Value.str _ := Model.faults_ofSchema _ _ _ hfail
          simp only [List.filterMap_cons, failure?, fault?, List.map_cons, ih htext.2]
          rw [hsubject]
          rfl
      | _ => simpa only [List.filterMap_cons, failure?, fault?] using ih htext.2

/-- Schemas of another order are covered as well. -/
theorem Covers.perm {schemas others : Members} {models : List Model}
    {faults : List (String × BuildFault)} (h : Covers g spec schemas models faults)
    (hp : schemas.Perm others) : Covers g spec others models faults where
  models_increasing := h.models_increasing
  faults_increasing := h.faults_increasing
  exactly_one := fun name schema hm => h.exactly_one name schema (hp.mem_iff.mpr hm)
  model_of := fun m hm =>
    let ⟨schema, hentry, hok⟩ := h.model_of m hm
    ⟨schema, hp.mem_iff.mp hentry, hok⟩
  fault_of := fun f hf =>
    let ⟨schema, hentry, hfail⟩ := h.fault_of f hf
    ⟨schema, hp.mem_iff.mp hentry, hfail⟩

/-- The components of a document with named schemas cover these, and their recorded faults have them
as subjects. -/
theorem checked_covers {schemas : Members} {components : List Component}
    (hs : spec.schemas = .ok (.map schemas)) (hnames : schemas.HasNames)
    (h : (checked g spec).result = .ok components) :
    Covers g spec schemas (components.filterMap model?) (components.filterMap fault?)
      ∧ components.filterMap failure?
        = (components.filterMap fault?).map fun f => .build (.str f.1) f.2 := by
  obtain ⟨sorted, hsorted, hperm, hincreasing⟩ := hnames.sorted
  obtain ⟨found, hfound, hout⟩ := all_ok (checked_ok h).1
  have hall : entries spec = .ok sorted := by
    simp only [entries, hs, Value.entries, Bind.bind, Except.bind, hsorted, require]
  rw [hall] at hfound
  cases hfound
  have hsortednames := hnames.perm hperm.symm
  exact ⟨(covers_of_outcomes hsortednames hincreasing hout).perm hperm,
    failures_of_outcomes hsortednames.textual hout⟩

end Component

/-! ## Endpoints -/

namespace Endpoint

variable {g : Generator} {spec : Spec}

/-- Operations and faults stand for the slots of a document: each that can be built has an
operation, which differs in its method name at most, and each of the others has its fault. -/
structure Covers (g : Generator) (spec : Spec) (operations : List Operation)
    (failures : List Failure) : Prop where
  slots_distinct : spec.slots.1.Pairwise Spec.Slot.Differs
  slots_complete : ∀ slot, slot ∈ spec.slots.1 ↔ spec.HasSlot slot
  built : List.Forall₂ (fun slot op => op.path = slot.path
      ∧ op.httpMethod = Text.upper slot.method
      ∧ ∃ found, builtAt g spec slot = .ok found ∧ Operation.Renamed found op)
    (spec.slots.1.filter fun slot => (builtAt g spec slot).isOk) operations
  failed : List.Forall₂ (fun slot failure => builtAt g spec slot = .error failure
      ∧ ∃ subject fault, failure = .build subject fault)
    (spec.slots.1.filter fun slot => !(builtAt g spec slot).isOk) failures

theorem operations_of_outcomes {slots : List Spec.Slot} {endpoints : List Endpoint}
    (h : List.Forall₂ (Outcome g spec) slots endpoints) :
    List.Forall₂ (fun slot op => builtAt g spec slot = .ok op)
      (slots.filter fun slot => (builtAt g spec slot).isOk) (endpoints.filterMap operation?) := by
  induction h with
  | nil => exact .nil
  | @cons slot e slots endpoints hout _ ih =>
      cases hout with
      | operation hok =>
          rw [List.filter_cons_of_pos (by rw [hok]; rfl)]
          exact .cons hok ih
      | failed hfail =>
          rw [List.filter_cons_of_neg (by rw [hfail]; exact Bool.false_ne_true)]
          exact ih

theorem failures_of_outcomes {slots : List Spec.Slot} {endpoints : List Endpoint}
    (h : List.Forall₂ (Outcome g spec) slots endpoints) :
    List.Forall₂ (fun slot failure => builtAt g spec slot = .error failure
        ∧ ∃ subject fault, failure = .build subject fault)
      (slots.filter fun slot => !(builtAt g spec slot).isOk) (endpoints.filterMap failure?) := by
  induction h with
  | nil => exact .nil
  | @cons slot e slots endpoints hout _ ih =>
      cases hout with
      | operation hok =>
          rw [List.filter_cons_of_neg (by rw [hok]; exact Bool.false_ne_true)]
          exact ih
      | failed hfail =>
          rw [List.filter_cons_of_pos (by rw [hfail]; rfl)]
          exact .cons ⟨hfail, _, _, rfl⟩ ih

theorem builtAt_place {slot : Spec.Slot} {op : Operation} (h : builtAt g spec slot = .ok op) :
    op.path = slot.path ∧ op.httpMethod = Text.upper slot.method := by
  obtain ⟨members, item, id, raws, declared, body, responses, -, -, hparts⟩ :=
    Operation.ofSlot_ok h
  rw [hparts.assembled]
  exact ⟨rfl, rfl⟩

theorem all_covers {endpoints : List Endpoint} {operations : List Operation}
    (ht : spec.paths.isTextual = true) (h : (all g spec).result = .ok endpoints)
    (hd : Operation.distinguishAll (endpoints.filterMap operation?) = .ok operations) :
    Covers g spec operations (endpoints.filterMap failure?) := by
  obtain ⟨hstop, hout⟩ := all_ok h
  obtain ⟨hdistinct, hcomplete⟩ := Spec.slots_of_textual ht hstop
  refine ⟨hdistinct, hcomplete, ?_, failures_of_outcomes hout⟩
  refine Attempt.forall₂_comp (fun slot found op hok hrenamed => ?_) (operations_of_outcomes hout)
    (Operation.distinguishAll_renamed hd)
  obtain ⟨hpath, hmethod⟩ := builtAt_place hok
  refine ⟨?_, ?_, found, hok, hrenamed⟩
  · rw [hrenamed]
    exact hpath
  · rw [hrenamed]
    exact hmethod

end Endpoint

/-- A model of a run is that of a component schema. -/
theorem Draft.exists_ofSchema {g : Generator} {spec : Spec} {material : Material}
    {failures : List Failure} (h : (gather g spec).result = .ok (material, failures)) {m : Model}
    (hm : m ∈ material.models) : ∃ name schema, Model.ofSchema g spec name schema = .ok m := by
  obtain ⟨_, _, hc, -, -, -, -, hmodels, -⟩ := gather_ok h
  rw [hmodels] at hm
  obtain ⟨_, name, schema, -, -, -, hok⟩ := Component.exists_of_mem_models hc hm
  exact ⟨name, schema, hok⟩

/-! ## Reports -/

namespace Generator

variable {g : Generator} {spec : Spec} {overrides : List Template.Override} {sink : Sink}

/-- The faults of the rendering are about files. -/
theorem render_of_mem_products {products : List Task.Product} {failure : Failure}
    (h : failure ∈ products.filterMap Task.Product.failure?) :
    ∃ destination fault, failure = .render destination fault := by
  obtain ⟨product, -, hp⟩ := List.mem_filterMap.mp h
  cases product with
  | text _ _ => cases hp
  | failed destination fault =>
      cases hp
      exact ⟨destination, fault, rfl⟩

/-- The report of a run over a document with textual keys accounts for its component schemas, for
its operations and for their groups; its faults are those of schemas, of operations and of files. -/
theorem generate_covers {report : Report} (ht : spec.IsTextual)
    (h : (g.generate spec overrides sink).result = .ok report) :
    ∃ settings faults failures unrendered,
      Settings.ofOptions g.target g.runOptions = .ok settings
      ∧ report.errors = (faults.map fun f => .build (.str f.1) f.2) ++ failures ++ unrendered
      ∧ (∀ failure ∈ unrendered, ∃ destination fault, failure = .render destination fault)
      ∧ Component.Covers (g.building settings) (normalized g.target spec) spec.componentSchemas
          report.models faults
      ∧ Endpoint.Covers (g.building settings) (normalized g.target spec) report.operations failures
      ∧ OperationGroup.Partition report.operations report.groups := by
  obtain ⟨draft, files, hdraft, rfl⟩ := generate_ok h
  simp only [Generator.draft, Attempt.bind_eq_ok] at hdraft
  obtain ⟨⟨settings, document⟩, hp, hmake⟩ := hdraft
  obtain ⟨hs, rfl, hbuilding⟩ := prepare_ok hp
  rw [hbuilding] at hmake
  obtain ⟨_, material, failures, _, products, -, hgather, -, -, -, hreport⟩ :=
    Draft.make_ok hmake
  obtain ⟨components, endpoints, hc, he, hd, hgroups, -, hmodels, rfl⟩ := Draft.gather_ok hgather
  obtain ⟨hcovers, hfailures⟩ := Component.checked_covers
    (schemas_of_normalized g.target spec) ht.componentSchemas hc
  refine ⟨settings, components.filterMap Component.fault?,
    endpoints.filterMap Endpoint.failure?, products.filterMap Task.Product.failure?, hs, ?_,
    fun failure => render_of_mem_products, ?_, ?_, ?_⟩
  · rw [hreport]
    dsimp only
    rw [hfailures]
  · rw [hreport]
    dsimp only
    rw [hmodels]
    exact hcovers
  · rw [hreport]
    have hpaths : (normalized g.target spec).paths.isTextual = true := by
      rw [paths_normalized]
      exact ht.paths
    exact Endpoint.all_covers hpaths he hd
  · rw [hreport]
    exact OperationGroup.ofOperations_partition hgroups

end Generator

/-! ## A shop -/

/-- The components of a shop: an alias, a schema with a property of an unknown type, and a record.
-/
def Spec.shopSchemas : Members := [
  (.str "Id", .map [(.str "type", .str "string")]),
  (.str "Photo", .map (Schema.single "data" [(.str "type", .str "file")])),
  (.str "Shop", .map [(.str "type", .str "object")])]

/-- An operation for pets with the id that another has too. -/
def Spec.petsOperation : Value :=
  .map [(.str "operationId", .str "read"), (.str "tags", .list [.str "pets"])]

/-- Three operations: two have one name, and the third has a parameter without a schema. -/
def Spec.shopItem : Members := [
  (.str "post", petsOperation), (.str "get", petsOperation),
  (.str "put", .map [(.str "parameters",
    .list [.map [(.str "name", .str "id"), (.str "in", .str "query")]])])]

/-- A document with one path and with component schemas. -/
def Spec.ofItem (path : String) (item schemas : Members) : Spec where
  members := [(.str "openapi", .str "3.0.0"), (.str "info", .map []),
    (.str "paths", .map [(.str path, .map item)]),
    (.str "components", .map [(.str "schemas", .map schemas)])]
  source := "<memory>"

/-- A document with the components and the operations of a shop. -/
def Spec.shop : Spec := ofItem "/pets" shopItem shopSchemas

/-- A report in brief: models, operations, groups and faults. -/
def Report.outline (r : Report) :
    List String × List (String × String) × List (String × Nat) × List String :=
  (r.models.map Model.name, r.operations.map fun op => (op.httpMethod, op.nickname),
    r.groups.map fun group => (group.name, group.operations.length), r.errors.map Failure.message)

namespace Generator

/-- The settings of a run in Python without options. -/
def pythonSettings : Settings :=
  (Settings.ofOptions .python (ofTarget .python []).runOptions).toOption.get (by decide)

theorem ofOptions_python :
    Settings.ofOptions .python (ofTarget .python []).runOptions = .ok pythonSettings :=
  Attempt.eq_ok_get _

theorem entries_shop : Component.entries .shop = .ok Spec.shopSchemas :=
  Component.entries_of_pairwise rfl (by rfl) (by decide)

/-- The report of a run over a shop in brief. -/
def shopOutline : List String × List (String × String) × List (String × Nat) × List String :=
  (["Shop"], [("GET", "read"), ("POST", "readPost")], [("pets", 2)],
    ["Photo: property 'data': unsupported type 'file'", "putPets: parameter 'id' has no schema"])

/-- A run over a shop, all of whose files are ignored. -/
theorem draft_shop : ∃ draft,
    (ofTarget .python []).draft .shop [] (.ok ⟨["*"]⟩) = .ok draft ∧ draft.texts = []
      ∧ draft.report.outline = shopOutline := by
  have hbrief : ((Draft.make ((ofTarget .python []).building pythonSettings) pythonSettings .shop []
      (.ok ⟨["*"]⟩)).result.toOption.map fun d =>
        d.texts.isEmpty && decide (d.report.outline = shopOutline)) = some true := by
    simp only [Draft.make, Draft.makeBy, Draft.gather, Component.checked, Component.all, entries_shop]
    decide +kernel
  obtain ⟨draft, hmake, hb⟩ := Attempt.exists_of_toOption_map hbrief
  obtain ⟨hprepared, hbuilding⟩ := @prepare_of_settings _ .shop _ rfl ofOptions_python
  simp only [Bool.and_eq_true, List.isEmpty_iff, decide_eq_true_eq] at hb
  refine ⟨draft, ?_, hb.1, hb.2⟩
  rw [Generator.draft, hprepared, hbuilding]
  exact hmake

theorem generate_covers_shop : ∃ report settings faults failures unrendered,
    ((ofTarget .python []).generate .shop [] (.memory [] ⟨["*"]⟩)).result = .ok report
      ∧ report.outline = shopOutline
      ∧ Settings.ofOptions .python (ofTarget .python []).runOptions = .ok settings
      ∧ report.errors = (faults.map fun f => .build (.str f.1) f.2) ++ failures ++ unrendered
      ∧ (∀ failure ∈ unrendered, ∃ destination fault, failure = .render destination fault)
      ∧ Component.Covers ((ofTarget .python []).building settings) (normalized .python .shop)
          Spec.shop.componentSchemas report.models faults
      ∧ Endpoint.Covers ((ofTarget .python []).building settings) (normalized .python .shop)
          report.operations failures
      ∧ OperationGroup.Partition report.operations report.groups := by
  obtain ⟨draft, hdraft, htexts, houtline⟩ := draft_shop
  have hr := @generate_ok_of_draft _ _ _ [] _ draft hdraft (by rw [htexts]; rfl)
  have htextual : Spec.shop.IsTextual := by
    show Spec.shop.document.isTextual = true
    decide
  obtain ⟨settings, faults, failures, unrendered, hcovers⟩ := generate_covers htextual hr
  exact ⟨_, settings, faults, failures, unrendered, hr, houtline, hcovers⟩

end Generator

end ApiScaffold
