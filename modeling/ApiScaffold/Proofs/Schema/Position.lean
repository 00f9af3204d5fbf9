import ApiScaffold.Proofs.Document.Pointer
import ApiScaffold.Proofs.Operation.Build

/-!
# The places where schemas stand

The places of a document where schemas stand (`HasSchema`). If all references at such places name
components (`NamesComponents`), then what types and compositions reach by them are components,
however many aliases are on the way (`HasReference.reaches`).

`HasSchema` has a case for each place at which the building of models and operations reads a schema,
so that a part of a schema is one again and what a reference points at is one too.
`HasSchema.usesType` closes the circle: the types that a model uses are those of schemas in such
places.
-/

namespace ApiScaffold

namespace Spec

/-- A value stands where a schema does: it is a component schema, the schema of a parameter, of a
body or of a response, or a part of a schema. -/
inductive HasSchema (spec : Spec) : Value → Prop
  | component {schemas : Members} {name v : Value} (hs : spec.schemas = .ok (.map schemas))
      (hm : (name, v) ∈ schemas) : HasSchema spec v
  | ofOperation {slot : Slot} {operation : Members} {v : Value} (hs : slot ∈ spec.slots.1)
      (ho : slot.operation = .map operation)
      (hu : Operation.UsesType spec operation slot.pathItem v) : HasSchema spec v
  | property {schema own : Members} {name v : Value} (h : HasSchema spec (.map schema))
      (hp : Members.get? schema "properties" = some (.map own)) (hm : (name, v) ∈ own) :
      HasSchema spec v
  | items {schema : Members} {v : Value} (h : HasSchema spec (.map schema))
      (hi : Members.get? schema "items" = some v) : HasSchema spec v
  | values {schema : Members} {v : Value} (h : HasSchema spec (.map schema))
      (ha : Members.get? schema "additionalProperties" = some v) : HasSchema spec v
  | member {schema : Members} {keyword : String} {list v : Value} {vs : List Value}
      (h : HasSchema spec (.map schema)) (hk : keyword ∈ Schema.compositionKeywords)
      (hl : Members.get? schema keyword = some list) (he : list.elements? = some vs)
      (hm : v ∈ vs) : HasSchema spec v

/-- A reference stands in the place of a schema. -/
def HasReference (spec : Spec) (reference : String) : Prop :=
  ∃ schema, spec.HasSchema (.map schema) ∧ Members.get? schema "$ref" = some (.str reference)

/-- Every reference in the place of a schema names a component. -/
def NamesComponents (spec : Spec) : Prop :=
  ∀ reference, spec.HasReference reference → NamesComponent reference

variable {spec : Spec}

/-! ## Parts of schemas -/

theorem HasSchema.refers {v : Value} {reference : String} (h : spec.HasSchema v)
    (hr : Schema.Refers v reference) : spec.HasReference reference := by
  induction hr with
  | direct href => exact ⟨_, h, href⟩
  | member hc hm _ ih =>
      obtain ⟨hk, hget⟩ := Schema.mem_of_composition? hc
      exact ih (.member h hk hget rfl hm)
  | items hi _ ih => exact ih (.items h hi)
  | values ha _ ih => exact ih (.values h ha)

/-- What a reference of a schema points at is a component. -/
theorem HasReference.component (hn : spec.NamesComponents) {reference : String}
    {target : Members} (h : spec.HasReference reference)
    (hr : spec.resolve reference = .ok target) :
    ∃ schemas, spec.schemas = .ok (.map schemas)
      ∧ Members.get? schemas (Pointer.lastKey reference) = some (.map target) :=
  (hn reference h).resolve hr

theorem HasReference.hasSchema (hn : spec.NamesComponents) {reference : String}
    {target : Members} (h : spec.HasReference reference)
    (hr : spec.resolve reference = .ok target) : spec.HasSchema (.map target) := by
  obtain ⟨schemas, hs, hget⟩ := h.component hn hr
  exact .component hs (Members.mem_of_get? hget)

theorem HasSchema.derefs (hn : spec.NamesComponents) {members target : Members}
    (h : spec.HasSchema (.map members)) (hd : spec.Derefs members target) :
    spec.HasSchema (.map target) := by
  induction hd with
  | done _ => exact h
  | step href hr _ ih => exact ih (HasReference.hasSchema hn ⟨_, h, href⟩ hr)

/-- The classes that a type reaches are those of components that are no aliases. -/
theorem HasReference.reaches (hn : spec.NamesComponents) {v : Value} {reference : String}
    (hv : ∀ r, Schema.Refers v r → spec.HasReference r) (h : Schema.Reaches spec v reference) :
    ∃ schemas schema, spec.schemas = .ok (.map schemas)
      ∧ Members.get? schemas (Pointer.lastKey reference) = some (.map schema)
      ∧ Schema.isAlias schema = .ok false := by
  induction h with
  | model hr hs ha =>
      obtain ⟨schemas, hschemas, hget⟩ := (hv _ hr).component hn hs
      exact ⟨schemas, _, hschemas, hget, ha⟩
  | through hr hs _ _ ih => exact ih fun r => ((hv _ hr).hasSchema hn hs).refers

/-! ## Models -/

theorem HasSchema.visits (hn : spec.NamesComponents) {schema s : Members}
    (h : spec.HasSchema (.map schema)) (hv : Model.Visits spec schema s) :
    spec.HasSchema (.map s) := by
  induction hv with
  | refl => exact h
  | tail _ hc ih =>
      obtain ⟨member, ⟨keyword, v, vs, hget, he, hm, hk⟩, hd⟩ := hc
      exact (HasSchema.member ih hk hget he hm).derefs hn hd

theorem HasSchema.declares {schema : Members} {d : Model.Declared}
    (h : spec.HasSchema (.map schema)) (hd : Model.Declares schema d) :
    spec.HasSchema d.schema := by
  obtain ⟨own, hp, hm⟩ := hd
  exact .property h hp hm

/-- The references of the types that a model uses stand in the place of schemas. -/
theorem HasSchema.usesType (hn : spec.NamesComponents) {schema : Members} {v : Value}
    (h : spec.HasSchema (.map schema)) (hu : Model.UsesType spec schema v) :
    ∀ reference, Schema.Refers v reference → spec.HasReference reference := by
  intro reference hr
  cases hu with
  | values => exact h.refers (Schema.refers_of_erase hr)
  | property hv hd => exact ((h.visits hn hv).declares hd).refers hr

end Spec

end ApiScaffold
