import ApiScaffold.Proofs.Document.Proper
import ApiScaffold.Proofs.Schema.Position

/-!
# Which components a text mentions

Which components the texts of components mention, and how that relates to what types and
compositions reach: whatever class a type comes to, a chain of mentions leads there, each in the
text of the component before.

* `Mentions`: the text of one component refers to another. The references of a text are those of all
  mappings that stand in it (`mem_componentReferences`).
* `Within`: a value stands in the place of a schema, and the text of a component has all its
  references. This passes to parts, and where a reference is followed it passes on to a component
  that is mentioned.
* `derefs`, `visits` and `reaches`: following references, compositions and types goes along
  mentions.
-/

namespace ApiScaffold

namespace Schema

theorem referencesOfMembers_of_mem {members : Members} {m : Value × Value} (h : m ∈ members) :
    componentReferences m.2 ⊆ referencesOfMembers members := by
  induction members with
  | nil => cases h
  | cons entry rest ih =>
      obtain ⟨k, v⟩ := entry
      rw [referencesOfMembers]
      rcases List.mem_cons.mp h with rfl | h
      · exact List.subset_append_left _ _
      · exact List.Subset.trans (ih h) (List.subset_append_right _ _)

theorem referencesOfItems_of_mem {items : List Value} {v : Value} (h : v ∈ items) :
    componentReferences v ⊆ referencesOfItems items := by
  induction items with
  | nil => cases h
  | cons x xs ih =>
      rw [referencesOfItems]
      rcases List.mem_cons.mp h with rfl | h
      · exact List.subset_append_left _ _
      · exact List.Subset.trans (ih h) (List.subset_append_right _ _)

/-- The references of a member are references of its mapping. -/
theorem componentReferences_of_mem {members : Members} {m : Value × Value} (h : m ∈ members) :
    componentReferences m.2 ⊆ componentReferences (.map members) := by
  rw [componentReferences]
  exact List.Subset.trans (referencesOfMembers_of_mem h) (List.subset_append_right _ _)

theorem componentReferences_of_get? {members : Members} {key : String} {v : Value}
    (h : Members.get? members key = some v) :
    componentReferences v ⊆ componentReferences (.map members) :=
  @componentReferences_of_mem members (.str key, v) (Members.mem_of_get? h)

theorem componentReferences_of_item {items : List Value} {v : Value} (h : v ∈ items) :
    componentReferences v ⊆ componentReferences (.list items) := by
  rw [componentReferences]
  exact referencesOfItems_of_mem h

/-- A reference to a component is among the references of its mapping. -/
theorem mem_componentReferences {members : Members} {reference : String}
    (h : Members.get? members "$ref" = some (.str reference))
    (hn : Spec.NamesComponent reference) :
    Pointer.lastKey reference ∈ componentReferences (.map members) := by
  rw [componentReferences, h]
  simp only [hn.schemaNameOf?, Option.toList_some]
  exact List.mem_cons_self

end Schema

namespace Spec

/-- A document has a component schema under a name. -/
def HasComponent (spec : Spec) (name : String) (v : Value) : Prop :=
  ∃ schemas, spec.schemas = .ok (.map schemas) ∧ (.str name, v) ∈ schemas

/-- The text of one component refers to another. -/
def Mentions (spec : Spec) (name mentioned : String) : Prop :=
  ∃ v, spec.HasComponent name v ∧ mentioned ∈ Schema.componentReferences v

/-- A document whose mappings and sets are such. -/
def IsProper (spec : Spec) : Prop := spec.document.isProper = true

/-- A value stands in the place of a schema, and the text of a component has all its references. -/
structure Within (spec : Spec) (name : String) (v : Value) : Prop where
  schema : spec.HasSchema v
  proper : v.isProper = true
  text : ∃ whole, spec.HasComponent name whole
    ∧ Schema.componentReferences v ⊆ Schema.componentReferences whole

variable {spec : Spec} {name : String}

theorem IsProper.schemas (h : spec.IsProper) {schemas : Members}
    (hs : spec.schemas = .ok (.map schemas)) : (Value.map schemas).isProper = true :=
  @schemas_closed spec (fun v => v.isProper = true) rfl rfl Value.isProper_of_get? h _ hs

/-- A proper document has one component under a name. -/
theorem HasComponent.unique (h : spec.IsProper) {v w : Value} (hv : spec.HasComponent name v)
    (hw : spec.HasComponent name w) : v = w := by
  obtain ⟨schemas, hs, hv⟩ := hv
  obtain ⟨others, ho, hw⟩ := hw
  rw [hs] at ho
  cases ho
  exact Value.eq_of_mem_proper (h.schemas hs) hv hw

theorem HasComponent.within (h : spec.IsProper) {v : Value} (hv : spec.HasComponent name v) :
    spec.Within name v := by
  obtain ⟨schemas, hs, hm⟩ := hv
  have hproper := h.schemas hs
  rw [Value.isProper] at hproper
  exact ⟨.component hs hm, (Value.membersProper_of_mem hproper hm).2, v, ⟨schemas, hs, hm⟩,
    List.Subset.refl _⟩

namespace Within

/-- A part of a schema stands within the same component. -/
theorem part {schema : Members} {v : Value} (h : spec.Within name (.map schema))
    (hs : spec.HasSchema v) (hp : v.isProper = true)
    (ht : Schema.componentReferences v ⊆ Schema.componentReferences (.map schema)) :
    spec.Within name v := by
  obtain ⟨whole, hwhole, htext⟩ := h.text
  exact ⟨hs, hp, whole, hwhole, List.Subset.trans ht htext⟩

theorem property {schema : Members} {d : Model.Declared} (h : spec.Within name (.map schema))
    (hd : Model.Declares schema d) : spec.Within name d.schema := by
  obtain ⟨own, hp, hm⟩ := hd
  have hproper := Value.isProper_of_get? h.proper hp
  rw [Value.isProper] at hproper
  refine h.part (.property h.schema hp hm) (Value.membersProper_of_mem hproper hm).2 ?_
  exact List.Subset.trans (Schema.componentReferences_of_mem hm)
    (Schema.componentReferences_of_get? hp)

theorem member {schema member : Members} (h : spec.Within name (.map schema))
    (hm : Model.HasMember schema member) : spec.Within name (.map member) := by
  obtain ⟨keyword, v, vs, hget, he, hin, hk⟩ := hm
  obtain ⟨rfl, hp⟩ := Value.isProper_of_elements (Value.isProper_of_get? h.proper hget) he hin
  refine h.part (.member h.schema hk hget he hin) hp ?_
  exact List.Subset.trans (Schema.componentReferences_of_item hin)
    (Schema.componentReferences_of_get? hget)

/-- A component mentions what a type in it refers to. -/
theorem mentions (hn : spec.NamesComponents) {v : Value} {reference : String}
    (h : spec.Within name v) (hr : Schema.Refers v reference) :
    spec.Mentions name (Pointer.lastKey reference) := by
  induction hr with
  | direct href =>
      obtain ⟨whole, hwhole, htext⟩ := h.text
      have hnames := hn _ ⟨_, h.schema, href⟩
      exact ⟨whole, hwhole, htext (Schema.mem_componentReferences href hnames)⟩
  | member hc hm _ ih =>
      obtain ⟨hk, hget⟩ := Schema.mem_of_composition? hc
      have hproper := Value.isProper_of_get? h.proper hget
      rw [Value.isProper, Value.itemsProper_iff] at hproper
      refine ih (h.part (.member h.schema hk hget rfl hm) (hproper _ hm) ?_)
      exact List.Subset.trans (Schema.componentReferences_of_item hm)
        (Schema.componentReferences_of_get? hget)
  | items hi _ ih =>
      exact ih (h.part (.items h.schema hi) (Value.isProper_of_get? h.proper hi)
        (Schema.componentReferences_of_get? hi))
  | values ha _ ih =>
      exact ih (h.part (.values h.schema ha) (Value.isProper_of_get? h.proper ha)
        (Schema.componentReferences_of_get? ha))

end Within

/-- What a reference in the place of a schema points at stands within the component that it names.
-/
theorem HasReference.within (hn : spec.NamesComponents) (hp : spec.IsProper) {reference : String}
    {target : Members} (h : spec.HasReference reference)
    (hr : spec.resolve reference = .ok target) :
    spec.Within (Pointer.lastKey reference) (.map target) := by
  obtain ⟨schemas, hs, hget⟩ := h.component hn hr
  exact HasComponent.within hp ⟨schemas, hs, Members.mem_of_get? hget⟩

namespace Within

/-- Following references goes along mentions. -/
theorem derefs (hn : spec.NamesComponents) (hp : spec.IsProper) {members target : Members}
    (h : spec.Within name (.map members)) (hd : spec.Derefs members target) :
    ∃ last, Relation.ReflTransGen spec.Mentions name last ∧ spec.Within last (.map target) := by
  induction hd generalizing name with
  | done _ => exact ⟨name, .refl, h⟩
  | step href hr _ ih =>
      obtain ⟨last, hpath, hlast⟩ := ih (HasReference.within hn hp ⟨_, h.schema, href⟩ hr)
      exact ⟨last, .head (h.mentions hn (.direct href)) hpath, hlast⟩

/-- So does following compositions. -/
theorem visits (hn : spec.NamesComponents) (hp : spec.IsProper) {schema s : Members}
    (h : spec.Within name (.map schema)) (hv : Model.Visits spec schema s) :
    ∃ last, Relation.ReflTransGen spec.Mentions name last ∧ spec.Within last (.map s) := by
  induction hv with
  | refl => exact ⟨name, .refl, h⟩
  | tail _ hc ih =>
      obtain ⟨between, hpath, hbetween⟩ := ih
      obtain ⟨member, hm, hd⟩ := hc
      obtain ⟨last, hrest, hlast⟩ := (hbetween.member hm).derefs hn hp hd
      exact ⟨last, hpath.trans hrest, hlast⟩

/-- And so does the way of a type through aliases to a class. -/
theorem reaches (hn : spec.NamesComponents) (hp : spec.IsProper) {v : Value} {reference : String}
    (h : spec.Within name v) (hr : Schema.Reaches spec v reference) :
    Relation.TransGen spec.Mentions name (Pointer.lastKey reference) := by
  induction hr generalizing name with
  | model hr _ _ => exact .single (h.mentions hn hr)
  | through hr hs _ _ ih =>
      have htarget := HasReference.within hn hp (h.schema.refers hr) hs
      exact .head (h.mentions hn hr) (ih htarget)

end Within

/-! ## Models -/

theorem reaches_of_erase {schema : Members} {reference : String}
    (h : Schema.Reaches spec (.map (Members.erase schema "enum")) reference) :
    Schema.Reaches spec (.map schema) reference := by
  cases h with
  | model hr hs ha => exact .model (Schema.refers_of_erase hr) hs ha
  | through hr hs ha hl => exact .through (Schema.refers_of_erase hr) hs ha hl

/-- Mentions lead from a component to the classes of the types that its model uses. -/
theorem Within.usesType (hn : spec.NamesComponents) (hp : spec.IsProper) {schema : Members}
    {v : Value} {reference : String} (h : spec.Within name (.map schema))
    (hu : Model.UsesType spec schema v) (hr : Schema.Reaches spec v reference) :
    Relation.TransGen spec.Mentions name (Pointer.lastKey reference) := by
  cases hu with
  | values => exact h.reaches hn hp (reaches_of_erase hr)
  | property hv hd =>
      obtain ⟨last, hpath, hlast⟩ := h.visits hn hp hv
      exact Relation.TransGen.trans_right hpath ((hlast.property hd).reaches hn hp hr)

end Spec

end ApiScaffold
