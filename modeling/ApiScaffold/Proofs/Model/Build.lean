import ApiScaffold.Proofs.Model.Flatten
import ApiScaffold.Proofs.Spec
import ApiScaffold.Proofs.Target.Names
import ApiScaffold.Proofs.Run.Context

/-!
# The models of schemas

What a model that has been built is built from, and what it keeps of the document.

* `PropertyFrom`, `EnumFrom` and `RecordFrom` say for each part of a model what it is made of, and
  `ofSchema_ok` that each model is one of the two. Later modules open the building of a model by
  these and do not look into its steps.
* `ofSchema_imports`: what a model imports, it imports as every model does or for a type that it
  uses.
* `mem_references`: the model of a record refers to every component that the text of its schema
  refers to.
* `isWhole_ofSchema`: the model of a schema without lone halves has none, neither in its names and
  types nor in what it keeps of the document.

The last section has the schemas of one property that examples elsewhere are made of.
-/

namespace ApiScaffold

open Text

theorem Schema.reframe_ok {α : Type} {subject : Value} {wrap : SchemaFault → BuildFault}
    {attempt : Attempt α} {a : α} (h : reframe subject wrap attempt = .ok a) : attempt = .ok a := by
  unfold reframe at h
  split at h
  · cases h
  · exact h

namespace Model

variable {g : Generator} {spec : Spec}

/-! ## What a model is built from -/

/-- A property with what it is built from: the type of its schema and the mapping that the schema
leads to. -/
structure PropertyFrom (g : Generator) (spec : Spec) (required : List Value) (d : Declared)
    (built : Property × List String) (type : TargetType) (schema target : Members) : Prop where
  resolved : Schema.resolve g (some spec) d.schema = .ok type
  entries : d.schema = .map schema
  leads : spec.deref schema = .ok target
  named : d.name = .str built.1.wireName
  defaulted : g.target.defaultLiteral? schema type = some built.1.default
  listed : elementsUnder target "enum" = .ok built.1.allowedValues
  assembled : built = ({
    wireName := built.1.wireName
    name := g.target.fieldName built.1.wireName
    getter := g.target.getter (g.target.fieldName built.1.wireName) type
    setter := g.target.setter (g.target.fieldName built.1.wireName)
    type := type.name
    baseType := type.base
    default := built.1.default
    required := required.any (·.keyEq d.name)
    description := (Members.getD schema "description" (.str "")).orElse
      ((Members.getD target "description" (.str "")).orElse (.str ""))
    nullable := (Members.getD schema "nullable" (.bool false)).isTruthy
    readOnly := (Members.getD schema "readOnly" (.bool false)).isTruthy
    isEnum := (nonEmpty? target "enum").isSome && !Members.has schema "$ref"
    allowedValues := built.1.allowedValues
    isContainer := type.isContainer
    isPrimitive := type.isPrimitive
    isWideInteger := type.isWideInteger }, type.imports)

theorem buildProperty_ok {model : String} {required : List Value} {d : Declared}
    {built : Property × List String} (h : buildProperty g spec model required d = .ok built) :
    ∃ type schema target, PropertyFrom g spec required d built type schema target := by
  obtain ⟨type, htype, h⟩ := Attempt.bind_eq_ok.mp h
  obtain ⟨schema, hschema, h⟩ := Attempt.bind_eq_ok.mp h
  obtain ⟨target, htarget, h⟩ := Attempt.bind_eq_ok.mp h
  obtain ⟨wireName, hname, h⟩ := Attempt.bind_eq_ok.mp h
  obtain ⟨default, hdefault, h⟩ := Attempt.bind_eq_ok.mp h
  obtain ⟨values, hvalues, h⟩ := Attempt.bind_eq_ok.mp h
  cases h
  exact ⟨type, schema, target, Schema.reframe_ok htype, Value.entries_ok hschema, htarget,
    Value.eq_str_of_asStr? (Attempt.require_eq_ok.mp hname), Attempt.require_eq_ok.mp hdefault,
    hvalues, rfl⟩

/-- The properties that are built are those that are declared, each built once. -/
theorem buildProperties_ok {model : String} {required : List Value} {declared : List Declared}
    {before built : List (Property × List String)}
    (h : buildProperties g spec model required declared before = .ok built) :
    ∃ added, built = before ++ added
      ∧ List.Forall₂ (fun d b => buildProperty g spec model required d = .ok b)
          declared added := by
  induction declared generalizing before with
  | nil =>
      cases h
      exact ⟨[], (List.append_nil _).symm, .nil⟩
  | cons d rest ih =>
      obtain ⟨⟨property, imports⟩, hb, h⟩ := Attempt.bind_eq_ok.mp h
      dsimp only at h
      split at h
      next => cases h
      next =>
        obtain ⟨added, rfl, hadded⟩ := ih h
        exact ⟨(property, imports) :: added, by simp, .cons hb hadded⟩

/-- Properties are added while their fields are new. -/
theorem nodup_of_buildProperties {model : String} {required : List Value} {declared : List Declared}
    {before built : List (Property × List String)}
    (hbefore : (before.map fun b => b.1.name).Nodup)
    (h : buildProperties g spec model required declared before = .ok built) :
    (built.map fun b => b.1.name).Nodup := by
  induction declared generalizing before with
  | nil =>
      cases h
      exact hbefore
  | cons d rest ih =>
      obtain ⟨⟨property, imports⟩, -, h⟩ := Attempt.bind_eq_ok.mp h
      dsimp only at h
      split at h
      next => cases h
      next hnone =>
        refine ih ?_ h
        rw [List.map_append, List.nodup_append]
        refine ⟨hbefore, List.nodup_singleton _, fun x hx y hy heq => ?_⟩
        obtain ⟨b, hb, rfl⟩ := List.mem_map.mp hx
        have hnew := List.find?_eq_none.mp hnone b hb
        rw [List.mem_singleton.mp hy] at heq
        exact hnew (decide_eq_true heq)

/-- An enumeration with what it is built from: the type of its schema without the allowed values. -/
structure EnumFrom (g : Generator) (spec : Spec) (name : String) (schema : Members)
    (type : TargetType) (m : Model) : Prop where
  resolved : Schema.resolve g (some spec) (.map (Members.erase schema "enum")) = .ok type
  listed : (Members.getD schema "enum" .null).elements = .ok m.allowedValues
  written : m.allowedValues.mapM (fun value => g.target.literal? value type) = some m.enumLiterals
  assembled : m = {
    name
    className := g.target.modelName name
    description := Members.getD schema "description" (.str "")
    imports := Target.sortedSet (type.imports ++ g.target.markerImports)
    isEnum := true
    allowedValues := m.allowedValues
    enumType := type.name
    enumLiterals := m.enumLiterals }

theorem buildEnum_ok {name : String} {schema : Members} {m : Model}
    (h : buildEnum g spec name schema = .ok m) : ∃ type, EnumFrom g spec name schema type m := by
  obtain ⟨type, htype, h⟩ := Attempt.bind_eq_ok.mp h
  obtain ⟨values, hvalues, h⟩ := Attempt.bind_eq_ok.mp h
  obtain ⟨literals, hliterals, h⟩ := Attempt.bind_eq_ok.mp h
  cases h
  exact ⟨type, Schema.reframe_ok htype, hvalues, Attempt.require_eq_ok.mp hliterals, rfl⟩

/-- A record with what it is built from: what is gathered from its schema, and the properties, no
two of which share a field. -/
structure RecordFrom (g : Generator) (spec : Spec) (name : String) (schema : Members)
    (gathered : Gathered) (built : List (Property × List String)) (m : Model) : Prop where
  flattened : flatten spec name (depthBound spec schema) name [name] schema {} = .ok gathered
  propertiesBuilt : List.Forall₂ (fun d b => buildProperty g spec name gathered.required d = .ok b)
    gathered.properties built
  distinct : (built.map fun b => b.1.name).Nodup
  assembled : m = {
    name
    className := g.target.modelName name
    description := Members.getD schema "description" (.str "")
    properties := built.map Prod.fst
    imports := Target.sortedSet ((built.flatMap Prod.snd ++ g.target.markerImports).filter
      (· ≠ g.target.modelName name))
    composedOf := gathered.composedOf
    parent := parentOf schema
    references := Target.sortedSet
      ((Schema.componentReferences (.map schema)).filter (· ≠ name)) }

theorem buildRecord_ok {name : String} {schema : Members} {m : Model}
    (h : buildRecord g spec name schema = .ok m) :
    ∃ gathered built, RecordFrom g spec name schema gathered built m := by
  obtain ⟨gathered, hg, h⟩ := Attempt.bind_eq_ok.mp h
  obtain ⟨built, hb, h⟩ := Attempt.bind_eq_ok.mp h
  cases h
  have hnone : (([] : List (Property × List String)).map fun b => b.1.name).Nodup := List.nodup_nil
  have hdistinct := nodup_of_buildProperties hnone hb
  obtain ⟨added, rfl, hadded⟩ := buildProperties_ok hb
  exact ⟨gathered, _, hg, hadded, hdistinct, rfl⟩

/-- The values whose types a model of a schema may import: the schema without its allowed values, or
the properties that its compositions lead to. -/
inductive UsesType (spec : Spec) (schema : Members) : Value → Prop
  | values : UsesType spec schema (.map (Members.erase schema "enum"))
  | property {s : Members} {d : Declared} (hv : Visits spec schema s) (hd : Declares s d) :
      UsesType spec schema d.schema

/-- A name is imported by a type that a model of a schema uses. -/
def ImportedBy (g : Generator) (spec : Spec) (schema : Members) (name : String) : Prop :=
  ∃ v type, UsesType spec schema v ∧ Schema.resolve g (some spec) v = .ok type
    ∧ name ∈ type.imports

theorem buildEnum_imports {name : String} {schema : Members} {m : Model}
    (h : buildEnum g spec name schema = .ok m) :
    ∀ s ∈ m.imports, s ∈ g.target.markerImports ∨ ImportedBy g spec schema s := by
  obtain ⟨type, hm⟩ := buildEnum_ok h
  intro s hs
  rw [hm.assembled] at hs
  rcases List.mem_append.mp (Target.mem_sortedSet.mp hs) with hs | hs
  · exact .inr ⟨_, type, .values, hm.resolved, hs⟩
  · exact .inl hs

theorem buildRecord_imports {name : String} {schema : Members} {m : Model}
    (h : buildRecord g spec name schema = .ok m) :
    ∀ s ∈ m.imports, s ∈ g.target.markerImports ∨ ImportedBy g spec schema s := by
  obtain ⟨gathered, built, hm⟩ := buildRecord_ok h
  intro s hs
  rw [hm.assembled] at hs
  rcases List.mem_append.mp (List.mem_filter.mp (Target.mem_sortedSet.mp hs)).1 with hs | hs
  · obtain ⟨b, hbin, hs⟩ := List.mem_flatMap.mp hs
    obtain ⟨d, hd, hbuilt⟩ := Attempt.exists_of_forall₂ hm.propertiesBuilt hbin
    obtain ⟨type, _, _, hp⟩ := buildProperty_ok hbuilt
    rw [hp.assembled] at hs
    obtain hd | ⟨visited, hv, hdecl⟩ := (flatten_ok hm.flattened).properties d hd
    · cases hd
    · exact .inr ⟨_, type, .property hv hdecl, hp.resolved, hs⟩
  · exact .inl hs

/-- A model comes from a mapping under a text, as an enumeration or as a record. -/
theorem ofSchema_ok {name schema : Value} {m : Model} (h : ofSchema g spec name schema = .ok m) :
    ∃ text members, name = .str text ∧ schema = .map members
      ∧ (buildEnum g spec text members = .ok m ∨ buildRecord g spec text members = .ok m) := by
  unfold ofSchema at h
  split at h
  next members =>
    split at h
    next text =>
      refine ⟨text, members, rfl, rfl, ?_⟩
      split at h
      · exact .inl h
      · exact .inr h
    next => cases h
  next => cases h

/-- A property of a model is built from a schema with a type. -/
theorem exists_propertyFrom {name schema : Value} {m : Model}
    (h : ofSchema g spec name schema = .ok m) {p : Property} (hp : p ∈ m.properties) :
    ∃ required d imports type s target, PropertyFrom g spec required d (p, imports) type s target := by
  obtain ⟨text, members, -, -, hm | hm⟩ := ofSchema_ok h
  · -- an enumeration has no properties
    obtain ⟨type, hm⟩ := buildEnum_ok hm
    rw [hm.assembled] at hp
    cases hp
  · obtain ⟨gathered, built, hm⟩ := buildRecord_ok hm
    rw [hm.assembled] at hp
    obtain ⟨⟨_, imports⟩, hb, rfl⟩ := List.mem_map.mp hp
    obtain ⟨d, -, hd⟩ := Attempt.exists_of_forall₂ hm.propertiesBuilt hb
    obtain ⟨type, s, target, hfrom⟩ := buildProperty_ok hd
    exact ⟨gathered.required, d, imports, type, s, target, hfrom⟩

/-- A model is named for the component that it is built from. -/
theorem ofSchema_className {name : String} {schema : Value} {m : Model}
    (h : ofSchema g spec (.str name) schema = .ok m) :
    m.name = name ∧ m.className = g.target.modelName name := by
  obtain ⟨text, members, htext, -, hm | hm⟩ := ofSchema_ok h
  · cases htext
    obtain ⟨type, hm⟩ := buildEnum_ok hm
    rw [hm.assembled]
    exact ⟨rfl, rfl⟩
  · cases htext
    obtain ⟨gathered, built, hm⟩ := buildRecord_ok hm
    rw [hm.assembled]
    exact ⟨rfl, rfl⟩

/-- The model of a record refers to every component that the text of its schema refers to, but for
itself. -/
theorem mem_references {name : String} {schema : Members} {m : Model}
    (he : (Members.has schema "enum" && !Members.has schema "properties") = false)
    (h : ofSchema g spec (.str name) (.map schema) = .ok m) {r : String}
    (hr : r ∈ Schema.componentReferences (.map schema)) (hne : r ≠ name) : r ∈ m.references := by
  simp only [ofSchema, he, Bool.false_eq_true, if_false] at h
  obtain ⟨gathered, built, hm⟩ := buildRecord_ok h
  rw [hm.assembled]
  exact Target.mem_sortedSet.mpr (List.mem_filter.mpr ⟨hr, by simpa using hne⟩)

/-- What a model imports, it imports as every model does or for a type that it uses. -/
theorem ofSchema_imports {name : Value} {schema : Members} {m : Model}
    (h : ofSchema g spec name (.map schema) = .ok m) :
    ∀ s ∈ m.imports, s ∈ g.target.markerImports ∨ ImportedBy g spec schema s := by
  obtain ⟨text, members, rfl, hs, hm | hm⟩ := ofSchema_ok h
  · cases hs
    exact buildEnum_imports hm
  · cases hs
    exact buildRecord_imports hm

end Model

namespace Schema

mutual

/-- The components that a value refers to have names without lone halves, if the value has none. -/
theorem isWhole_componentReferences :
    ∀ v : Value, v.isWhole = true → ∀ s ∈ componentReferences v, Text.isWhole s = true
  | .map members, h => by
      intro s hs
      rw [componentReferences] at hs
      rcases List.mem_append.mp hs with hs | hs
      · split at hs
        next reference href =>
          exact Spec.isWhole_of_schemaNameOf? (by simpa using Members.AreWhole.get? h href)
            (Option.mem_toList.mp hs)
        next => cases hs
      · exact isWhole_referencesOfMembers members (by rwa [Value.isWhole] at h) s hs
  | .list items, h => by
      intro s hs
      rw [componentReferences] at hs
      exact isWhole_referencesOfItems items (by rwa [Value.isWhole] at h) s hs
  | .null, _ | .bool _, _ | .int _, _ | .float _, _ | .str _, _ | .bytes _, _ | .date _, _
  | .moment _, _ | .pair _ _, _ | .set _, _ | .again _, _ => by
      intro s hs
      simp [componentReferences] at hs

theorem isWhole_referencesOfMembers : ∀ members : List (Value × Value),
    Value.membersWhole members = true → ∀ s ∈ referencesOfMembers members, Text.isWhole s = true
  | [], _ => by
      intro s hs
      cases hs
  | (k, v) :: rest, h => by
      rw [Value.membersWhole, Bool.and_eq_true, Bool.and_eq_true] at h
      intro s hs
      rw [referencesOfMembers] at hs
      rcases List.mem_append.mp hs with hs | hs
      · exact isWhole_componentReferences v h.1.2 s hs
      · exact isWhole_referencesOfMembers rest h.2 s hs

theorem isWhole_referencesOfItems : ∀ items : List Value,
    Value.itemsWhole items = true → ∀ s ∈ referencesOfItems items, Text.isWhole s = true
  | [], _ => by
      intro s hs
      cases hs
  | v :: rest, h => by
      rw [Value.itemsWhole, Bool.and_eq_true] at h
      intro s hs
      rw [referencesOfItems] at hs
      rcases List.mem_append.mp hs with hs | hs
      · exact isWhole_componentReferences v h.1 s hs
      · exact isWhole_referencesOfItems rest h.2 s hs

end

end Schema

namespace Model

variable {g : Generator} {spec : Spec}

theorem HasMember.areWhole {schema member : Members} (h : HasMember schema member)
    (hs : Members.AreWhole schema) : Members.AreWhole member := by
  obtain ⟨keyword, v, vs, hget, he, hm, -⟩ := h
  exact Value.isWhole_elements (hs.get? hget) he _ hm

theorem Visits.areWhole {schema s : Members} (h : Visits spec schema s) (hspec : spec.IsWhole)
    (hs : Members.AreWhole schema) : Members.AreWhole s := by
  induction h with
  | refl => exact hs
  | tail _ hc ih =>
      obtain ⟨member, hm, hd⟩ := hc
      exact hspec.derefs (hm.areWhole ih) hd

theorem isWhole_elementsUnder {members : Members} {key : String} {vs : List Value}
    (hm : Members.AreWhole members) (h : elementsUnder members key = .ok vs) :
    ∀ v ∈ vs, v.isWhole = true := by
  intro v hv
  obtain ⟨w, hget, he⟩ := elementsUnder_ok h (List.ne_nil_of_mem hv)
  exact Value.isWhole_elements (hm.get? hget) he v hv

/-- What is gathered from a schema without lone halves has none. -/
theorem GatheredFrom.areWhole {schema : Members} {gathered : Gathered}
    (h : GatheredFrom spec schema {} gathered) (hspec : spec.IsWhole)
    (hs : Members.AreWhole schema) :
    (∀ d ∈ gathered.properties, d.name.isWhole = true ∧ d.schema.isWhole = true)
      ∧ ∀ c ∈ gathered.composedOf, Text.isWhole c = true := by
  constructor
  · intro d hd
    obtain hd | ⟨s, hv, own, hget, hin⟩ := h.properties d hd
    · cases hd
    · exact Value.isWhole_map.mp ((hv.areWhole hspec hs).get? hget) _ hin
  · intro c hc
    obtain hc | ⟨s, member, hv, hm, ht⟩ := h.composedOf c hc
    · cases hc
    · exact Spec.isWhole_of_schemaTarget? (hm.areWhole (hv.areWhole hspec hs)) ht

/-- A property without lone halves, and its imports. -/
theorem isWhole_buildProperty {model : String} {required : List Value} {d : Declared}
    {built : Property × List String} (ht : g.target.IsWhole) (hspec : spec.IsWhole)
    (hd : d.name.isWhole = true ∧ d.schema.isWhole = true)
    (h : buildProperty g spec model required d = .ok built) :
    built.1.datum.isWhole = true ∧ ∀ s ∈ built.2, Text.isWhole s = true := by
  obtain ⟨type, schema, target, hfrom⟩ := buildProperty_ok h
  rw [hfrom.named, hfrom.entries] at hd
  have htw := ht.resolve hfrom.resolved
  have hsw : Members.AreWhole schema := hd.2
  have htgt := hspec.derefs hsw (Spec.derefs_of_deref hfrom.leads)
  have hfield := ht.fieldName built.1.wireName
  have hvw := isWhole_elementsUnder htgt hfrom.listed
  have hdw := ht.defaultLiteral? htw.default hfrom.defaulted
  have hempty : (Value.str "").isWhole = true := by decide
  have hdescription : ∀ {m : Members}, Members.AreWhole m →
      (Members.getD m "description" (.str "")).isWhole = true := fun hm => hm.getD hempty
  rw [hfrom.assembled]
  refine ⟨Datum.isWhole_recordOf (by decide) (by simp only [List.map]; decide) ?_ ?_,
    htw.imports⟩
  · simp only [List.map, List.forall_mem_cons, List.not_mem_nil, false_implies, implies_true,
      Datum.isWhole_str, Datum.isWhole_bool, Datum.isWhole_value, and_true, true_and]
    exact ⟨by simpa using hd.1, hfield, Target.isWhole_getter type hfield,
      Target.isWhole_setter hfield, htw.name, htw.base, hdw,
      Value.isWhole_orElse (hdescription hsw) (Value.isWhole_orElse (hdescription htgt) hempty),
      Datum.isWhole_ofValues hvw⟩
  · simp

/-- What templates see of a model has no lone halves, nor have its imports. -/
structure IsWhole (m : Model) : Prop where
  datum : m.datum.isWhole = true
  imports : ∀ s ∈ m.imports, Text.isWhole s = true

theorem isWhole_datum {m : Model} (hname : Text.isWhole m.name = true)
    (hclass : Text.isWhole m.className = true) (hdescription : m.description.isWhole = true)
    (hproperties : ∀ p ∈ m.properties, p.datum.isWhole = true)
    (himports : ∀ s ∈ m.imports, Text.isWhole s = true)
    (hcomposed : ∀ s ∈ m.composedOf, Text.isWhole s = true)
    (hparent : ∀ s, m.parent = some s → Text.isWhole s = true)
    (hreferences : ∀ s ∈ m.references, Text.isWhole s = true)
    (hvalues : ∀ v ∈ m.allowedValues, v.isWhole = true)
    (htype : Text.isWhole m.enumType = true)
    (hliterals : ∀ s ∈ m.enumLiterals, Text.isWhole s = true) : m.datum.isWhole = true := by
  have hrow : ∀ ps : List Property, ps ⊆ m.properties →
      (Datum.tuple (ps.map Property.datum)).isWhole = true := by
    intro ps hps
    rw [Datum.isWhole_tuple]
    intro d hd
    obtain ⟨p, hp, rfl⟩ := List.mem_map.mp hd
    exact hproperties p (hps hp)
  refine Datum.isWhole_recordOf (by decide) (by simp only [List.map]; decide) ?_ ?_
  · simp only [List.map, List.forall_mem_cons, List.not_mem_nil, false_implies, implies_true,
      Datum.isWhole_str, Datum.isWhole_bool, Datum.isWhole_value, Datum.isWhole_names, and_true,
      true_and]
    exact ⟨hname, hclass, hdescription, hrow _ (List.Subset.refl _), Datum.isWhole_strs himports,
      Datum.isWhole_strs hcomposed, Datum.isWhole_ofText? hparent, hreferences,
      Datum.isWhole_ofValues hvalues, htype, Datum.isWhole_strs hliterals⟩
  · simp only [List.map, List.forall_mem_cons, List.not_mem_nil, false_implies, implies_true,
      and_true]
    exact ⟨hrow _ List.filter_sublist.subset, hrow _ List.filter_sublist.subset⟩

theorem isWhole_parentOf {schema : Members} {parent : String} (hs : Members.AreWhole schema)
    (h : parentOf schema = some parent) : Text.isWhole parent = true := by
  unfold parentOf at h
  split at h
  next first rest hget =>
    have hitems := Value.isWhole_list.mp (hs.get? hget)
    exact Spec.isWhole_of_schemaTarget? (hitems _ List.mem_cons_self) h
  next => cases h

theorem isWhole_buildEnum {name : String} {schema : Members} {m : Model}
    (ht : g.target.IsWhole) (hname : Text.isWhole name = true) (hs : Members.AreWhole schema)
    (h : buildEnum g spec name schema = .ok m) : m.IsWhole := by
  obtain ⟨type, hm⟩ := buildEnum_ok h
  have htw := ht.resolve hm.resolved
  have himports : ∀ s ∈ Target.sortedSet (type.imports ++ g.target.markerImports),
      Text.isWhole s = true := by
    intro s hs
    rcases List.mem_append.mp (Target.mem_sortedSet.mp hs) with hs | hs
    · exact htw.imports s hs
    · exact ht.text s (by simp [Target.texts, hs])
  have hallowed : ∀ v ∈ m.allowedValues, v.isWhole = true :=
    Value.isWhole_of_elements (hs.getD (by decide)) hm.listed
  have htexts : ∀ s ∈ m.enumLiterals, Text.isWhole s = true := by
    intro s hs
    obtain ⟨v, -, hv⟩ := Attempt.exists_of_mem_mapM? hm.written hs
    exact ht.literal? hv
  have hdescription : (Members.getD schema "description" (.str "")).isWhole = true :=
    hs.getD (by decide)
  rw [hm.assembled]
  exact ⟨isWhole_datum hname (Target.isWhole_modelName _ _) hdescription (by simp) himports
    (by simp) (by simp) (by simp) hallowed htw.name htexts, himports⟩

theorem isWhole_buildRecord {name : String} {schema : Members} {m : Model}
    (ht : g.target.IsWhole) (hspec : spec.IsWhole) (hname : Text.isWhole name = true)
    (hs : Members.AreWhole schema) (h : buildRecord g spec name schema = .ok m) : m.IsWhole := by
  obtain ⟨gathered, built, hm⟩ := buildRecord_ok h
  obtain ⟨hdeclared, hcomposed⟩ := (flatten_ok hm.flattened).areWhole hspec hs
  have hbuilt : ∀ b ∈ built, b.1.datum.isWhole = true ∧ ∀ s ∈ b.2, Text.isWhole s = true := by
    intro b hbin
    obtain ⟨d, hd, hok⟩ := Attempt.exists_of_forall₂ hm.propertiesBuilt hbin
    exact isWhole_buildProperty ht hspec (hdeclared d hd) hok
  have himports : ∀ s ∈ Target.sortedSet
      ((built.flatMap Prod.snd ++ g.target.markerImports).filter (· ≠ g.target.modelName name)),
      Text.isWhole s = true := by
    intro s hs
    rcases List.mem_append.mp (List.mem_filter.mp (Target.mem_sortedSet.mp hs)).1 with hs | hs
    · obtain ⟨b, hbin, hs⟩ := List.mem_flatMap.mp hs
      exact (hbuilt b hbin).2 s hs
    · exact ht.text s (by simp [Target.texts, hs])
  have hproperties : ∀ p ∈ built.map Prod.fst, p.datum.isWhole = true := by
    intro p hp
    obtain ⟨b, hbin, rfl⟩ := List.mem_map.mp hp
    exact (hbuilt b hbin).1
  have hreferences : ∀ s ∈ Target.sortedSet
      ((Schema.componentReferences (.map schema)).filter (· ≠ name)), Text.isWhole s = true := by
    intro s hr
    exact Schema.isWhole_componentReferences (.map schema) hs s
      (List.mem_filter.mp (Target.mem_sortedSet.mp hr)).1
  have hdescription : (Members.getD schema "description" (.str "")).isWhole = true :=
    hs.getD (by decide)
  rw [hm.assembled]
  exact ⟨isWhole_datum hname (Target.isWhole_modelName _ _) hdescription hproperties himports
    hcomposed (fun _ hp => isWhole_parentOf hs hp) hreferences (by simp)
    (show Text.isWhole "" = true by decide) (by simp), himports⟩

/-- The model of a component schema without lone halves has none. -/
theorem isWhole_ofSchema {name schema : Value} {m : Model} (ht : g.target.IsWhole)
    (hspec : spec.IsWhole) (hname : name.isWhole = true) (hs : schema.isWhole = true)
    (h : ofSchema g spec name schema = .ok m) : m.IsWhole := by
  obtain ⟨text, members, rfl, rfl, hm | hm⟩ := ofSchema_ok h
  · exact isWhole_buildEnum ht (by simpa using hname) hs hm
  · exact isWhole_buildRecord ht hspec (by simpa using hname) hs hm

/-! ## Models with one property -/

/-- A property without a default and without allowed values has the imports of its type. -/
theorem buildProperty_plain {model origin wireName : String} {required : List Value}
    {schema target : Members} {type : TargetType}
    (ht : Schema.resolve g (some spec) (.map schema) = .ok type)
    (hd : spec.deref schema = .ok target) (hn : Members.get? schema "default" = none)
    (he : Members.get? target "enum" = none) :
    ∃ p, buildProperty g spec model required
      { origin, name := .str wireName, schema := .map schema } = .ok (p, type.imports) := by
  have hdefault : g.target.defaultLiteral? schema type = some type.default := by
    rw [Target.defaultLiteral?, hn]
  have hvalues : elementsUnder target "enum" = .ok [] := by
    rw [elementsUnder, nonEmpty?, he]
    rfl
  apply Exists.intro
  simp only [buildProperty, ht, Schema.reframe, Value.entries, hd, Value.asStr?, require, hdefault,
    hvalues, Bind.bind, Except.bind, Pure.pure, Except.pure]
  rfl

/-- A property whose schema has no type makes its model fail. -/
theorem buildProperty_untyped {model origin : String} {name subject schema : Value}
    {required : List Value} {fault : SchemaFault}
    (ht : Schema.resolve g (some spec) schema = .error (.build subject (.schema fault))) :
    buildProperty g spec model required { origin, name, schema }
      = .error (.build (.str model) (.propertyType name fault)) := by
  simp only [buildProperty, ht, Schema.reframe, Bind.bind, Except.bind]

end Model

/-- A schema of objects with one property. -/
def Schema.single (property : String) (schema : Members) : Members :=
  [(.str "type", .str "object"), (.str "properties", .map [(.str property, .map schema)])]

/-- A reference to a component. -/
def Schema.link (name : String) : Members :=
  [(.str "$ref", .str ("#/components/schemas/" ++ name))]

/-- A schema of lists of a component. -/
def Schema.listOf (name : String) : Members :=
  [(.str "type", .str "array"), (.str "items", .map (Schema.link name))]

/-- A document without paths, with component schemas. -/
def Spec.ofSchemas (schemas : Members) : Spec where
  members := Spec.bare.members ++ [(.str "components", .map [(.str "schemas", .map schemas)])]
  source := Spec.bare.source

namespace Model

variable {g : Generator} {spec : Spec} {name property : String} {schema target : Members}

theorem flatten_single : flatten spec name (depthBound spec (Schema.single property schema)) name
    [name] (Schema.single property schema) {}
      = .ok { properties := [{ origin := name, name := .str property, schema := .map schema }] } :=
  rfl

/-- The model of a schema with one property. -/
theorem ofSchema_single {type : TargetType}
    (ht : Schema.resolve g (some spec) (.map schema) = .ok type)
    (hd : spec.deref schema = .ok target) (hn : Members.get? schema "default" = none)
    (he : Members.get? target "enum" = none) :
    ∃ m, ofSchema g spec (.str name) (.map (Schema.single property schema)) = .ok m
      ∧ m.imports = Target.sortedSet
        ((type.imports ++ g.target.markerImports).filter (· ≠ g.target.modelName name))
      ∧ m.references = Target.sortedSet
        ((Schema.componentReferences (.map schema)).filter (· ≠ name)) := by
  obtain ⟨p, hp⟩ := @buildProperty_plain g spec name name property [] schema target type ht hd hn he
  apply Exists.intro
  refine ⟨?_, ?_, ?_⟩
  · show buildRecord g spec name (Schema.single property schema) = _
    simp only [buildRecord, flatten_single, buildProperties, hp, List.find?, Bind.bind, Except.bind,
      Pure.pure, Except.pure, List.nil_append]
    rfl
  · simp
  · simp [Schema.single, Schema.componentReferences, Schema.referencesOfMembers, Members.get?]

/-- A schema with one property, which has no type, has no model. -/
theorem ofSchema_single_untyped {subject : Value} {fault : SchemaFault}
    (ht : Schema.resolve g (some spec) (.map schema) = .error (.build subject (.schema fault))) :
    ofSchema g spec (.str name) (.map (Schema.single property schema))
      = .error (.build (.str name) (.propertyType (.str property) fault)) := by
  show buildRecord g spec name (Schema.single property schema) = _
  simp only [buildRecord, flatten_single, buildProperties, buildProperty_untyped ht, Bind.bind,
    Except.bind]

end Model

end ApiScaffold
