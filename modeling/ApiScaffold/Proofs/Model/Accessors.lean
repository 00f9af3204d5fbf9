import ApiScaffold.Proofs.Model.Build
import ApiScaffold.Proofs.Target.Spelling

/-!
# The names of properties

The names that a model gives to a property: its name in the document, its field, its getter and its
setter. Properties that share a field are rejected, and names in the document and accessors are told
apart by the field. So no two properties of a model share any of them, and no getter is the setter
of another property.

* The field can be read back from an accessor (`fieldName_of_getter`, `fieldName_of_setter`),
  because the verbs in front are different letters; without verbs a field is its own accessor.
* `Property.IsNamed`: a property has the field and the accessors of its name in the document, as
  `isNamed_of_buildProperty` shows of those that are built.
* `ofSchema_tellsApart`: the properties of the model of any schema are told apart, for all targets
  (`TellsApart`).
-/

namespace ApiScaffold

namespace Target

variable {t : Target} {a b : String} {type other : TargetType}

/-! ## Accessors with a verb -/

/-- A getter asks a question or gets, by the type at the bottom of what it reads. -/
theorem getter_eq_of_bean (hb : t.accessors = .bean) (field : String) (type : TargetType) :
    t.getter field type
      = (if type.base ∈ t.booleanTypes then "is" else "get") ++ accessorStem field := by
  rw [getter, hb]
  simp only [List.contains_iff_mem]

theorem getter_of_bean (hb : t.accessors = .bean) (field : String) (type : TargetType) :
    ∃ verb ∈ ["is", "get"], t.getter field type = verb ++ accessorStem field := by
  rw [getter_eq_of_bean hb]
  split
  · exact ⟨"is", by simp, rfl⟩
  · exact ⟨"get", by simp, rfl⟩

theorem setter_of_bean (hb : t.accessors = .bean) (field : String) :
    t.setter field = "set" ++ accessorStem field := by
  unfold setter
  rw [hb]

/-! Without verbs a field is its own accessor. -/

theorem getter_of_not_bean (hb : t.accessors ≠ .bean) (field : String) (type : TargetType) :
    t.getter field type = field := by
  unfold getter
  split
  next => rfl
  next hs => exact absurd hs hb

theorem setter_of_not_bean (hb : t.accessors ≠ .bean) (field : String) :
    t.setter field = field := by
  unfold setter
  split
  next => rfl
  next hs => exact absurd hs hb

/-- The verbs of accessors start differently, so that the verb and the stem can be read back. -/
theorem accessor_injective {verb verb' stem stem' : String} (hv : verb ∈ ["is", "get", "set"])
    (hv' : verb' ∈ ["is", "get", "set"]) (h : verb ++ stem = verb' ++ stem') :
    verb = verb' ∧ stem = stem' := by
  have hchars := congrArg String.toList h
  rw [String.toList_append, String.toList_append] at hchars
  have hverb : verb = verb' := by
    have hstart : ∀ x ∈ ["is", "get", "set"], ∀ y ∈ ["is", "get", "set"],
        x.toList.head? = y.toList.head? → x = y := by decide
    have hsome : ∀ x ∈ ["is", "get", "set"], x.toList.head?.isSome = true := by decide
    obtain ⟨c, hc⟩ := Option.isSome_iff_exists.mp (hsome verb hv)
    obtain ⟨d, hd⟩ := Option.isSome_iff_exists.mp (hsome verb' hv')
    have hhead := congrArg List.head? hchars
    rw [List.head?_append, List.head?_append, hc, hd] at hhead
    exact hstart verb hv verb' hv' (by rw [hc, hd]; exact hhead)
  subst hverb
  exact ⟨rfl, String.toList_inj.mp (List.append_cancel_left hchars)⟩

section

variable (ht : t ∈ [jaxrsSpec, spring, python])
include ht

theorem fieldName_of_getter
    (h : t.getter (t.fieldName a) type = t.getter (t.fieldName b) other) :
    t.fieldName a = t.fieldName b := by
  by_cases hb : t.accessors = .bean
  · obtain ⟨verb, hv, hget⟩ := getter_of_bean hb (t.fieldName a) type
    obtain ⟨verb', hv', hget'⟩ := getter_of_bean hb (t.fieldName b) other
    have hsub : ["is", "get"] ⊆ ["is", "get", "set"] := List.subset_append_left _ ["set"]
    rw [hget, hget'] at h
    exact (putsInFront_of_bean ht hb).fieldName_of_accessorStem
      (accessor_injective (hsub hv) (hsub hv') h).2
  · rwa [getter_of_not_bean hb, getter_of_not_bean hb] at h

theorem fieldName_of_setter (h : t.setter (t.fieldName a) = t.setter (t.fieldName b)) :
    t.fieldName a = t.fieldName b := by
  by_cases hb : t.accessors = .bean
  · rw [setter_of_bean hb, setter_of_bean hb] at h
    exact (putsInFront_of_bean ht hb).fieldName_of_accessorStem
      (accessor_injective (by simp) (by simp) h).2
  · rwa [setter_of_not_bean hb, setter_of_not_bean hb] at h

end

theorem getter_ne_setter (hb : t.accessors = .bean) : t.getter a type ≠ t.setter b := by
  obtain ⟨verb, hv, hget⟩ := getter_of_bean hb a type
  rw [hget, setter_of_bean hb]
  intro h
  have hsub : ["is", "get"] ⊆ ["is", "get", "set"] := List.subset_append_left _ ["set"]
  obtain ⟨rfl, -⟩ := accessor_injective (hsub hv) (by simp) h
  exact absurd hv (by decide)

end Target

/-! ## Properties -/

/-- A property has the field and the accessors of its wire name. -/
structure Property.IsNamed (t : Target) (p : Property) : Prop where
  field : p.name = t.fieldName p.wireName
  getter : ∃ type, p.getter = t.getter p.name type
  setter : p.setter = t.setter p.name

namespace Model

/-- No two properties share a name in the document, a field or an accessor; and where accessors have
verbs, no getter is a setter. -/
structure TellsApart (t : Target) (properties : List Property) : Prop where
  wireNames : (properties.map Property.wireName).Nodup
  fields : (properties.map Property.name).Nodup
  getters : (properties.map Property.getter).Nodup
  setters : (properties.map Property.setter).Nodup
  accessors : t.accessors = .bean →
    (properties.map Property.getter ++ properties.map Property.setter).Nodup

variable {g : Generator} {spec : Spec} {t : Target} {properties : List Property}

/-- What tells fields apart is told apart as they are. -/
theorem nodup_map_of_fields {f : Property → String} (hfields : (properties.map Property.name).Nodup)
    (hf : ∀ p ∈ properties, ∀ q ∈ properties, f p = f q → p.name = q.name) :
    (properties.map f).Nodup := by
  unfold List.Nodup at hfields ⊢
  rw [List.pairwise_map] at hfields ⊢
  exact hfields.imp_of_mem fun hp hq hne heq => hne (hf _ hp _ hq heq)

theorem tellsApart_of_fields (ht : t ∈ [Target.jaxrsSpec, .spring, .python])
    (hnamed : ∀ p ∈ properties, p.IsNamed t) (hfields : (properties.map Property.name).Nodup) :
    TellsApart t properties := by
  have hgetters : (properties.map Property.getter).Nodup := by
    refine nodup_map_of_fields hfields fun p hp q hq heq => ?_
    obtain ⟨type, hget⟩ := (hnamed p hp).getter
    obtain ⟨other, hget'⟩ := (hnamed q hq).getter
    rw [hget, hget', (hnamed p hp).field, (hnamed q hq).field] at heq
    rw [(hnamed p hp).field, (hnamed q hq).field]
    exact Target.fieldName_of_getter ht heq
  have hsetters : (properties.map Property.setter).Nodup := by
    refine nodup_map_of_fields hfields fun p hp q hq heq => ?_
    rw [(hnamed p hp).setter, (hnamed q hq).setter, (hnamed p hp).field, (hnamed q hq).field] at heq
    rw [(hnamed p hp).field, (hnamed q hq).field]
    exact Target.fieldName_of_setter ht heq
  refine ⟨?_, hfields, hgetters, hsetters, fun hbean => ?_⟩
  · refine nodup_map_of_fields hfields fun p hp q hq heq => ?_
    rw [(hnamed p hp).field, (hnamed q hq).field, heq]
  · rw [List.nodup_append]
    refine ⟨hgetters, hsetters, fun x hx y hy heq => ?_⟩
    obtain ⟨p, hp, rfl⟩ := List.mem_map.mp hx
    obtain ⟨q, hq, rfl⟩ := List.mem_map.mp hy
    obtain ⟨type, hget⟩ := (hnamed p hp).getter
    rw [hget, (hnamed q hq).setter] at heq
    exact Target.getter_ne_setter hbean heq

/-! ## The building of a model -/

theorem isNamed_of_buildProperty {model : String} {required : List Value} {d : Declared}
    {built : Property × List String} (h : buildProperty g spec model required d = .ok built) :
    built.1.IsNamed g.target := by
  obtain ⟨type, schema, target, hfrom⟩ := buildProperty_ok h
  rw [hfrom.assembled]
  exact ⟨rfl, ⟨type, rfl⟩, rfl⟩

/-- No model of a schema has two properties of one wire name, field, getter or setter. -/
theorem ofSchema_tellsApart (ht : g.target ∈ [Target.jaxrsSpec, .spring, .python])
    {name schema : Value} {m : Model} (h : ofSchema g spec name schema = .ok m) :
    TellsApart g.target m.properties := by
  obtain ⟨text, members, -, -, hm | hm⟩ := ofSchema_ok h
  · -- an enumeration has no properties
    obtain ⟨type, hm⟩ := buildEnum_ok hm
    rw [hm.assembled]
    exact tellsApart_of_fields ht (fun p hp => by cases hp) List.nodup_nil
  · obtain ⟨gathered, built, hm⟩ := buildRecord_ok hm
    have hfields : ((built.map Prod.fst).map Property.name).Nodup := by
      rw [List.map_map]
      exact hm.distinct
    rw [hm.assembled]
    refine tellsApart_of_fields ht (fun p hp => ?_) hfields
    obtain ⟨b, hb, rfl⟩ := List.mem_map.mp hp
    obtain ⟨d, -, hd⟩ := Attempt.exists_of_forall₂ hm.propertiesBuilt hb
    exact isNamed_of_buildProperty hd

/-- A property that is a reserved word, one with a digit in front, one of two words and one that
asks a question. -/
def petProperties : Members := ["class", "1st", "foo_bar", "isActive"].map fun name =>
  (.str name, .map [(.str "type", .str (if name = "isActive" then "boolean" else "string"))])

theorem ofSchema_tellsApart_pet :
    (Generator.ofTarget .jaxrsSpec []).target ∈ [Target.jaxrsSpec, .spring, .python]
    ∧ ∃ m, ofSchema (.ofTarget .jaxrsSpec []) .bare (.str "Pet")
        (.map [(.str "properties", .map petProperties)]) = .ok m
      ∧ m.properties.map (fun p => [p.name, p.getter, p.setter])
        = [["_class", "getClass", "setClass"], ["_1st", "get1st", "set1st"],
          ["fooBar", "getFooBar", "setFooBar"], ["isActive", "isIsActive", "setIsActive"]]
      ∧ TellsApart .jaxrsSpec m.properties := by
  have hbuilt : (ofSchema (.ofTarget .jaxrsSpec []) .bare (.str "Pet")
      (.map [(.str "properties", .map petProperties)])).toOption.map
        (fun m => m.properties.map fun p => [p.name, p.getter, p.setter])
      = some [["_class", "getClass", "setClass"], ["_1st", "get1st", "set1st"],
          ["fooBar", "getFooBar", "setFooBar"], ["isActive", "isIsActive", "setIsActive"]] := by
    decide +kernel
  obtain ⟨m, hm, hnames⟩ := Attempt.exists_of_toOption_map hbuilt
  exact ⟨by simp [Generator.ofTarget], m, hm, hnames,
    @ofSchema_tellsApart (.ofTarget .jaxrsSpec []) .bare (by simp [Generator.ofTarget]) _ _ _ hm⟩

end Model

end ApiScaffold
