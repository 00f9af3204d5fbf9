import ApiScaffold.Proofs.Run.Stages
import ApiScaffold.Proofs.Schema.Reading
import ApiScaffold.Target.Java
import ApiScaffold.Target.Python

/-!
# Aliases and types

A schema without properties, allowed values and compositions is put in place of its references if it
is an alias, and has the type that it is read to have. The two judge it by the same keywords, but
not in all of their forms: a list of types is none that an alias is told by, and what is said of the
values of other properties counts for an alias if it is not empty, and for the type if it is a
schema or allows all.

* `IsPlain.isAlias`: a plain schema is told to be an alias by its type alone.
* `Denotes`: what a plain schema with a type is, where types have to be known: a list, a map, an
  object or a scalar.
* `isAlias_agrees_iff`: a plain schema with a type is told to be an alias exactly if its type is not
  that of objects, but where it has a list of types, or is an object whose word on other values
  counts for one of the two only.
-/

namespace ApiScaffold

/-- In a target that can be asked for by name, no entry of the type map is that of objects. -/
theorem Target.name_ne_genericObject {t : Target} (h : t ∈ [jaxrsSpec, spring, python]) :
    ∀ entry ∈ t.typeMap, entry.2.name ≠ t.genericObject.name := by
  simp only [List.mem_cons, List.not_mem_nil, or_false] at h
  rcases h with rfl | rfl | rfl <;> decide

/-- All types that have an entry there are those of aliases. -/
theorem Target.inlineTypes_of_typeMap {t : Target} (h : t ∈ [jaxrsSpec, spring, python]) :
    ∀ entry ∈ t.typeMap, entry.1.1 ∈ Schema.inlineTypes := by
  simp only [List.mem_cons, List.not_mem_nil, or_false] at h
  rcases h with rfl | rfl | rfl <;> decide

namespace Schema

variable {g : Generator} {follow : String → Attempt TargetType} {schema : Members}
  {type format : Value} {t : TargetType}

/-- A schema without a reference, properties, allowed values and compositions. -/
def IsPlain (schema : Members) : Prop :=
  ∀ key ∈ "$ref" :: "properties" :: "enum" :: compositionKeywords, Members.has schema key = false

/-- Further properties are allowed, and their values have a type. -/
def TypesValues (schema : Members) : Prop :=
  (∃ members, Members.get? schema "additionalProperties" = some (.map members))
    ∨ Members.get? schema "additionalProperties" = some (.bool true)

/-- A plain schema is told to be an alias by its type alone. -/
theorem IsPlain.isAlias (h : IsPlain schema) :
    isAlias schema = match Members.getD schema "type" .null with
      | .list _ | .map _ => .error .unsuitable
      | .str type =>
        if inlineTypes.contains type then .ok true
        else .ok (type = "object" && (Members.getD schema "additionalProperties" .null).isTruthy)
      | _ => .ok false := by
  have hproperties := h "properties" (by decide)
  have henum := h "enum" (by decide)
  have hcompositions : compositionKeywords.any (Members.has schema) = false := by
    rw [List.any_eq_false]
    intro keyword hk
    have hnone := h keyword (by simp [hk])
    simp [hnone]
  rw [Schema.isAlias, hproperties, henum, hcompositions]
  rfl

/-- An entry of the type map stands under a type of texts. -/
theorem exists_of_mapping? {m : TypeMapping} (h : mapping? g.target type format = some m) :
    ∃ name f, type = .str name ∧ ((name, f), m) ∈ g.target.typeMap := by
  unfold mapping? at h
  split at h
  next name =>
    rw [Option.orElse_eq_orElse, Option.orElse_eq_or] at h
    rcases Option.or_eq_some_iff.mp h with he | ⟨-, hl⟩
    · split at he
      · exact ⟨name, _, rfl, mem_of_lookup he⟩
      · exact ⟨name, _, rfl, mem_of_lookup he⟩
      · cases he
    · exact ⟨name, _, rfl, mem_of_lookup hl⟩
  next => cases h

/-- What a plain schema with a type is, where types have to be known: a list, a map, an object or a
scalar. -/
inductive Denotes (g : Generator) (schema : Members) : Value → TargetType → Prop
  | list (item : TargetType) : Denotes g schema (.str "array") (g.target.listType item)
  | map (value : TargetType) (h : TypesValues schema) :
      Denotes g schema (.str "object") (g.target.mapType value)
  | object (h : ¬TypesValues schema) :
      Denotes g schema (.str "object") g.target.genericObject.toType
  | scalar {name : String} {f : Option String} {m : TypeMapping}
      (h : ((name, f), m) ∈ g.target.typeMap) : Denotes g schema (.str name) m.toType

theorem denotes_of_typeWith {settings : Settings} (hs : g.settings? = some settings)
    (hstrict : settings.permissiveTypes = false) (hp : IsPlain schema)
    (h : typeWith g follow (.map schema) = .ok t) :
    ∃ type, concreteType (Members.getD schema "type" .null) = .ok type
      ∧ Denotes g schema type t := by
  have hnone : ∀ {key : String}, key ∈ "$ref" :: "properties" :: "enum" :: compositionKeywords →
      Members.get? schema key = none := fun hk => by simpa [Members.has] using hp _ hk
  have hobject : ∀ {type : Value}, isObjectType schema type = true → type = .str "object" := by
    intro type ho
    rw [isObjectType, hp "properties" (by decide), Bool.and_false, Bool.or_false] at ho
    exact Value.keyEq_str.mp ho
  obtain ⟨_, heq, hreads⟩ := typeWith_eq_ok.mp h
  cases heq
  cases hreads with
  | reference hr _ =>
      rw [hnone (by decide)] at hr
      cases hr
  | member _ hc _ _ =>
      obtain ⟨hk, hget⟩ := mem_of_composition? hc
      rw [hnone (by simp [hk])] at hget
      cases hget
  | list hread _ _ => exact ⟨_, hread.concrete, .list _⟩
  | values hread ho ha _ =>
      obtain rfl := hobject ho
      exact ⟨_, hread.concrete, .map _ (.inl ⟨_, ha⟩)⟩
  | anyValues hread ho ha =>
      obtain rfl := hobject ho
      exact ⟨_, hread.concrete, .map _ (ha.imp_left fun he => ⟨_, he⟩)⟩
  | object hread ho ha =>
      obtain rfl := hobject ho
      exact ⟨_, hread.concrete, .object (not_or.mpr ⟨not_exists.mpr ha.1, ha.2⟩)⟩
  | scalar hread _ _ hm =>
      obtain ⟨-, -, hm | ⟨-, -, other, ho, hpermissive⟩⟩ := hm
      · obtain ⟨name, f, rfl, hmem⟩ := exists_of_mapping? hm
        exact ⟨_, hread.concrete, .scalar hmem⟩
      · -- types have to be known
        rw [hs] at ho
        cases ho
        rw [hstrict] at hpermissive
        cases hpermissive

theorem name_ne_object {name : String} {f : Option String} {m : TypeMapping}
    (ht : g.target ∈ [Target.jaxrsSpec, .spring, .python])
    (h : ((name, f), m) ∈ g.target.typeMap) :
    inlineTypes.contains name = true ∧ Value.str name ≠ .str "object" := by
  have hinline := Target.inlineTypes_of_typeMap ht _ h
  refine ⟨List.contains_iff_mem.mpr hinline, ?_⟩
  intro heq
  obtain rfl : name = "object" := by simpa using heq
  exact absurd (show "object" ∈ inlineTypes from hinline) (by decide)

namespace Denotes

variable (ht : g.target ∈ [Target.jaxrsSpec, .spring, .python])
include ht

/-- A list, a map or a scalar has another type than objects. -/
theorem ne_genericObject (h : Denotes g schema type t) :
    t ≠ g.target.genericObject.toType ↔ (type = .str "object" → TypesValues schema) := by
  have hcontainer : g.target.genericObject.toType.isContainer = false := rfl
  cases h with
  | list item =>
      refine iff_of_true (fun he => ?_) (fun he => by simp at he)
      rw [← he] at hcontainer
      cases hcontainer
  | map value hv =>
      refine iff_of_true (fun he => ?_) fun _ => hv
      rw [← he] at hcontainer
      cases hcontainer
  | object hv => exact iff_of_false (fun hne => hne rfl) fun himp => hv (himp rfl)
  | scalar hm =>
      refine iff_of_true (fun he => ?_) fun he => absurd he (name_ne_object ht hm).2
      exact Target.name_ne_genericObject ht _ hm (congrArg TargetType.name he)

/-- The types other than that of objects are the scalars, the lists and the maps. -/
theorem ne_genericObject_iff (h : Denotes g schema type t) :
    t ≠ g.target.genericObject.toType ↔
      (∃ m ∈ g.target.typeMap.map Prod.snd, t = m.toType)
        ∨ (∃ item, t = g.target.listType item) ∨ ∃ value, t = g.target.mapType value := by
  constructor
  · intro hne
    cases h with
    | list item => exact .inr (.inl ⟨item, rfl⟩)
    | map value _ => exact .inr (.inr ⟨value, rfl⟩)
    | object _ => exact absurd rfl hne
    | scalar hm => exact .inl ⟨_, List.mem_map.mpr ⟨_, hm, rfl⟩, rfl⟩
  · rintro (⟨m, hm, rfl⟩ | ⟨item, rfl⟩ | ⟨value, rfl⟩) he
    · obtain ⟨entry, hentry, rfl⟩ := List.mem_map.mp hm
      exact Target.name_ne_genericObject ht entry hentry (congrArg TargetType.name he)
    · cases congrArg TargetType.isContainer he
    · cases congrArg TargetType.isContainer he

/-- A plain schema with one type is told to be an alias, unless it is an object that says nothing of
the values of other properties. -/
theorem isAlias (hp : IsPlain schema) (h : Denotes g schema type t)
    (hv : Members.getD schema "type" .null = type) :
    ∃ inlined, isAlias schema = .ok inlined
      ∧ (inlined = true ↔ (type = .str "object" →
        (Members.getD schema "additionalProperties" .null).isTruthy = true)) := by
  rw [hp.isAlias, hv]
  cases h with
  | list item => exact ⟨true, rfl, iff_of_true rfl fun he => by simp at he⟩
  | map value _ => exact ⟨_, rfl, by simp⟩
  | object _ => exact ⟨_, rfl, by simp⟩
  | scalar hm =>
      obtain ⟨hinline, hne⟩ := name_ne_object ht hm
      exact ⟨true, by simp only [hinline, if_true], iff_of_true rfl fun he => absurd he hne⟩

end Denotes

/-- A plain schema that has a type is told to be an alias exactly if its type is not that of
objects, but where it has a list of types, and where it is an object and says of the values of other
properties what counts without giving them a type, or what gives them one without counting. The
types that are not that of objects are the scalars, the lists and the maps. -/
theorem isAlias_agrees_iff {spec? : Option Spec} {settings : Settings}
    (ht : g.target ∈ [Target.jaxrsSpec, .spring, .python])
    (hs : g.settings? = some settings) (hstrict : settings.permissiveTypes = false)
    (hp : IsPlain schema) (h : resolve g spec? (.map schema) = .ok t) :
    (t ≠ g.target.genericObject.toType ↔
        (∃ m ∈ g.target.typeMap.map Prod.snd, t = m.toType)
          ∨ (∃ item, t = g.target.listType item) ∨ ∃ value, t = g.target.mapType value)
      ∧ ((∃ inlined, isAlias schema = .ok inlined
            ∧ (inlined = true ↔ t ≠ g.target.genericObject.toType))
          ↔ (∀ types, Members.getD schema "type" .null ≠ .list types)
            ∧ (Members.getD schema "type" .null = .str "object" →
              (TypesValues schema
                ↔ (Members.getD schema "additionalProperties" .null).isTruthy = true))) := by
  obtain ⟨type, hc, hd⟩ : ∃ type, concreteType (Members.getD schema "type" .null) = .ok type
      ∧ Denotes g schema type t := by
    cases spec? with
    | none => exact denotes_of_typeWith hs hstrict hp h
    | some spec => exact denotes_of_typeWith hs hstrict hp h
  refine ⟨hd.ne_genericObject_iff ht, ?_⟩
  rw [hd.ne_genericObject ht]
  by_cases hlist : ∃ types, Members.getD schema "type" .null = .list types
  · -- a list of types is none of the keys that types are compared with
    obtain ⟨types, hlist⟩ := hlist
    refine iff_of_false ?_ fun hall => hall.1 types hlist
    rintro ⟨inlined, halias, -⟩
    rw [hp.isAlias, hlist] at halias
    cases halias
  · have hone : Members.getD schema "type" .null = type := by
      unfold concreteType at hc
      split at hc
      next types hv => exact absurd ⟨types, hv⟩ hlist
      next => exact Except.ok.inj hc
    obtain ⟨inlined, halias, htruthy⟩ := hd.isAlias ht hp hone
    have hagree : (∃ found, isAlias schema = .ok found
        ∧ (found = true ↔ (type = .str "object" → TypesValues schema)))
        ↔ (inlined = true ↔ (type = .str "object" → TypesValues schema)) := by
      simp [halias]
    rw [hagree, htruthy, hone]
    have hnone : ∀ types, type ≠ .list types := fun types he => hlist ⟨types, hone.trans he⟩
    constructor
    · exact fun hiff => ⟨hnone, fun ho => ⟨fun hv => hiff.mpr (fun _ => hv) ho,
        fun hv => hiff.mp (fun _ => hv) ho⟩⟩
    · rintro ⟨-, hiff⟩
      exact ⟨fun himp ho => (hiff ho).mpr (himp ho), fun himp ho => (hiff ho).mp (himp ho)⟩

/-- A map whose values may be anything is a map, but it is not told to be an alias. -/
theorem isAlias_agrees_iff_anyValues : ∃ settings,
    Settings.ofOptions .jaxrsSpec (Generator.ofTarget .jaxrsSpec []).runOptions = .ok settings
      ∧ ¬∃ inlined, isAlias [(.str "type", .str "object"),
            (.str "additionalProperties", .emptyMap)] = .ok inlined
          ∧ (inlined = true ↔ Target.jaxrsSpec.mapType Target.jaxrsSpec.genericObject.toType
            ≠ Target.jaxrsSpec.genericObject.toType) := by
  obtain ⟨settings, hs, hstrict⟩ := Generator.exists_settings (t := .jaxrsSpec) (by simp)
  have hread : ReadBy [(.str "type", .str "object"), (.str "additionalProperties", .emptyMap)]
      (.str "object") := ⟨rfl, rfl, rfl⟩
  have htype : resolve ((Generator.ofTarget .jaxrsSpec []).building settings) (some .bare)
      (.map [(.str "type", .str "object"), (.str "additionalProperties", .emptyMap)])
        = .ok (Target.jaxrsSpec.mapType Target.jaxrsSpec.genericObject.toType) :=
    typeWith_eq_ok.mpr ⟨_, rfl, .anyValues hread rfl (.inl rfl)⟩
  have hagree := isAlias_agrees_iff (by simp [Generator.building, Generator.ofTarget]) rfl hstrict
    (by unfold IsPlain; decide) htype
  refine ⟨settings, hs, fun hex => ?_⟩
  have hcounts := ((hagree.2.mp hex).2 rfl).mp (.inl ⟨_, rfl⟩)
  cases hcounts

/-- A text that may be null has the type of texts, and cannot be told to be an alias or none. -/
theorem isAlias_fails_nullable : ∃ settings,
    Settings.ofOptions .jaxrsSpec (Generator.ofTarget .jaxrsSpec []).runOptions = .ok settings
      ∧ settings.permissiveTypes = false
      ∧ IsPlain [(.str "type", .list [.str "string", .str "null"])]
      ∧ (∃ m, ((("string", none), m) ∈ Target.jaxrsSpec.typeMap)
        ∧ resolve ((Generator.ofTarget .jaxrsSpec []).building settings) (some .bare)
          (.map [(.str "type", .list [.str "string", .str "null"])]) = .ok m.toType)
      ∧ ∀ inlined, isAlias [(.str "type", .list [.str "string", .str "null"])]
        ≠ .ok inlined := by
  obtain ⟨settings, hs, hstrict⟩ := Generator.exists_settings (t := .jaxrsSpec) (by simp)
  refine ⟨settings, hs, hstrict, by unfold IsPlain; decide,
    ⟨{ name := "String", default := "null" }, mem_of_lookup rfl, ?_⟩, fun inlined h => by cases h⟩
  have hread : ReadBy [(.str "type", .list [.str "string", .str "null"])] (.str "string") :=
    ⟨rfl, rfl, rfl⟩
  exact typeWith_eq_ok.mpr ⟨_, rfl, .scalar hread (by simp) rfl ⟨rfl, rfl, .inl rfl⟩⟩

end Schema

end ApiScaffold
