import ApiScaffold.Proofs.Run.Components
import ApiScaffold.Proofs.Run.Stages
import ApiScaffold.Proofs.Schema.Mention
import ApiScaffold.Proofs.Schema.Shape
import Mathlib.Data.List.Sort

/-!
# What a model imports, apart by kind

The names that the types of a model import are put into one set, without the class of the model
itself, and are told apart by the names of the library types alone. So they are told apart as they
were meant exactly if no class that the model refers to has the name of a library type, and its own
class has not that of one that it uses.

* `libraryNames` and `classNames`: what is meant, read off the shapes of the properties, which know
  whether a type is one of the library or the class of a component.
* `SplitsAsMeant` compares what is imported with that, and `KeepsApart` speaks of names only.
* `splitsAsMeant_iff` is about any types with shapes, `splitImports_asMeant_iff` about the models of
  schemas.
* `Model.splitImports_loses_marker`: a model that is called like what every model imports loses
  it.
-/

namespace ApiScaffold

namespace Target

/-- Two lists have one sorted set exactly if they hold the same. -/
theorem sortedSet_eq_iff {a b : List String} :
    sortedSet a = sortedSet b ↔ ∀ name, name ∈ a ↔ name ∈ b := by
  constructor
  · intro h name
    rw [← mem_sortedSet, h, mem_sortedSet]
  · intro h
    refine List.Pairwise.eq_of_mem_iff (r := (· < ·)) (pairwise_lt_sortedSet a)
      (pairwise_lt_sortedSet b) fun name => ?_
    rw [mem_sortedSet, mem_sortedSet, h]

/-- The import target of a library type, if it has one. -/
def importTarget? (t : Target) (name : String) : Option String :=
  match t.importTargets.lookup name with
  | some (some importTarget) => if importTarget = "" then none else some importTarget
  | _ => none

theorem splitImports_library (t : Target) (names : List String) :
    (t.splitImports names).library = sortedSet (names.filterMap t.importTarget?) := rfl

theorem importTarget?_of_lookup_none {t : Target} {name : String}
    (h : t.importTargets.lookup name = none) : t.importTarget? name = none := by
  rw [importTarget?, h]

theorem lookup_of_importTarget? {t : Target} {name importTarget : String}
    (h : t.importTarget? name = some importTarget) :
    t.importTargets.lookup name = some (some importTarget) := by
  unfold importTarget? at h
  split at h
  next found hl =>
    split at h
    · cases h
    · cases h
      exact hl
  next => cases h

/-- In a target that can be asked for by name, no two library types have one import target. -/
theorem importTarget?_injective {t : Target} (h : t ∈ [jaxrsSpec, spring, python])
    {a b importTarget : String} (ha : t.importTarget? a = some importTarget)
    (hb : t.importTarget? b = some importTarget) : a = b := by
  have hone : ∀ p ∈ t.importTargets, ∀ q ∈ t.importTargets, p.2 ≠ none → p.2 = q.2 → p.1 = q.1 := by
    simp only [List.mem_cons, List.not_mem_nil, or_false] at h
    rcases h with rfl | rfl | rfl <;> decide
  exact hone _ (mem_of_lookup (lookup_of_importTarget? ha)) _
    (mem_of_lookup (lookup_of_importTarget? hb)) (by simp) rfl

/-- What every model imports there needs an import. -/
theorem isSome_importTarget?_of_marker {t : Target} (h : t ∈ [jaxrsSpec, spring, python]) :
    ∀ marker ∈ t.markerImports, (t.importTarget? marker).isSome = true := by
  simp only [List.mem_cons, List.not_mem_nil, or_false] at h
  rcases h with rfl | rfl | rfl <;> decide

end Target

/-- The library types of a shape that a schema has are those of the target. -/
theorem Schema.Shaped.library {g : Generator} {spec : Spec} {hops : Nat} {seen : List String}
    {v : Value} {shape : Shape} (h : Shaped g spec hops seen v shape) :
    shape.library g.target ⊆ g.target.libraryImports := by
  have hmapped : ∀ m ∈ g.target.mappings, m.imports ⊆ g.target.libraryImports := by
    intro m hm name hname
    have hin : name ∈ g.target.mappings.flatMap TypeMapping.imports :=
      List.mem_flatMap.mpr ⟨m, hm, hname⟩
    simp [Target.libraryImports, hin]
  induction h with
  | component => exact List.nil_subset _
  | through _ _ _ _ _ ih => exact ih
  | member _ _ _ _ ih => exact ih
  | list _ _ _ ih =>
      exact List.append_subset.mpr ⟨fun _ h => by simp [Target.libraryImports, h], ih⟩
  | values _ _ _ _ ih =>
      exact List.append_subset.mpr ⟨fun _ h => by simp [Target.libraryImports, h], ih⟩
  | anyValues =>
      exact List.append_subset.mpr
        ⟨fun _ h => by simp [Target.libraryImports, h], hmapped _ List.mem_cons_self⟩
  | object => exact hmapped _ List.mem_cons_self
  | scalar _ _ _ hm =>
      obtain ⟨-, -, hm | ⟨-, rfl, -⟩⟩ := hm
      · exact hmapped _ (mapping?_mem hm)
      · exact hmapped _ List.mem_cons_self

namespace Model

variable {t : Target} {own : String} {shapes : List Schema.Shape} {names : List String}

/-- The library types that a model with properties of certain shapes uses, with those that every
model uses. -/
def libraryNames (t : Target) (shapes : List Schema.Shape) : List String :=
  shapes.flatMap (Schema.Shape.library t) ++ t.markerImports

/-- The classes of the components that the shapes of properties refer to. -/
def classNames (t : Target) (shapes : List Schema.Shape) : List String :=
  (shapes.flatMap Schema.Shape.components).map t.modelName

/-- Imports are told apart as they are meant: the import targets are those of the library types that
are used, the models are the classes that are referred to, without that of the model itself, and
what every model imports is imported. -/
structure SplitsAsMeant (t : Target) (own : String) (shapes : List Schema.Shape)
    (imports : List String) : Prop where
  library : (t.splitImports imports).library
    = Target.sortedSet ((libraryNames t shapes).filterMap t.importTarget?)
  models : (t.splitImports imports).models
    = Target.sortedSet ((classNames t shapes).filter (· ≠ own))
  markers : ∀ marker ∈ t.markerImports, marker ∈ imports

/-- No class but a model's own that it refers to has the name of a library type, and its own class
has not that of one that it uses and that needs an import. -/
structure KeepsApart (t : Target) (own : String) (shapes : List Schema.Shape) : Prop where
  classes : ∀ cls ∈ classNames t shapes, cls ≠ own → t.importTargets.lookup cls = none
  own : own ∈ libraryNames t shapes → t.importTarget? own = none

section

variable (hn : ∀ name, name ∈ names ↔
  (name ∈ libraryNames t shapes ∨ name ∈ classNames t shapes) ∧ name ≠ own)
include hn

/-- What is told apart as it is meant is kept apart by names: a class that is referred to is among
the models, where nothing from the library is, and the import target of a library type is that of no
other name. -/
theorem SplitsAsMeant.keepsApart (ht : t ∈ [Target.jaxrsSpec, .spring, .python])
    (h : SplitsAsMeant t own shapes names) : KeepsApart t own shapes := by
  have hlibrary := h.library
  rw [Target.splitImports_library, Target.sortedSet_eq_iff] at hlibrary
  refine ⟨fun cls hcls hne => ?_, fun hown => ?_⟩
  · have hin : cls ∈ (t.splitImports names).models := by
      rw [h.models, Target.mem_sortedSet, List.mem_filter]
      exact ⟨hcls, by simpa using hne⟩
    exact (Target.mem_splitImports_models.mp hin).2
  · cases htarget : t.importTarget? own with
    | none => rfl
    | some importTarget =>
        -- another name would have to bring in the import target of the own class
        have hin : importTarget ∈ names.filterMap t.importTarget? :=
          (hlibrary importTarget).mpr (List.mem_filterMap.mpr ⟨own, hown, htarget⟩)
        obtain ⟨name, hname, hfound⟩ := List.mem_filterMap.mp hin
        exact absurd (Target.importTarget?_injective ht hfound htarget) ((hn name).mp hname).2

theorem KeepsApart.library (h : KeepsApart t own shapes) :
    (t.splitImports names).library
      = Target.sortedSet ((libraryNames t shapes).filterMap t.importTarget?) := by
  rw [Target.splitImports_library, Target.sortedSet_eq_iff]
  intro importTarget
  simp only [List.mem_filterMap]
  constructor
  · rintro ⟨name, hname, hfound⟩
    obtain ⟨hlibrary | hclass, hne⟩ := (hn name).mp hname
    · exact ⟨name, hlibrary, hfound⟩
    · -- a class that is no name of a library type has no import target
      rw [Target.importTarget?_of_lookup_none (h.classes name hclass hne)] at hfound
      cases hfound
  · rintro ⟨name, hname, hfound⟩
    refine ⟨name, (hn name).mpr ⟨.inl hname, ?_⟩, hfound⟩
    rintro rfl
    rw [h.own hname] at hfound
    cases hfound

theorem KeepsApart.models
    (hl : ∀ name ∈ libraryNames t shapes, (t.importTargets.lookup name).isSome = true)
    (h : KeepsApart t own shapes) :
    (t.splitImports names).models = Target.sortedSet ((classNames t shapes).filter (· ≠ own)) := by
  have hmodels : (t.splitImports names).models = Target.sortedSet
      (names.filter fun name => (t.importTargets.lookup name).isNone) := rfl
  rw [hmodels, Target.sortedSet_eq_iff]
  intro name
  simp only [List.mem_filter, Option.isNone_iff_eq_none, decide_eq_true_eq]
  constructor
  · rintro ⟨hname, hnone⟩
    obtain ⟨hlibrary | hclass, hne⟩ := (hn name).mp hname
    · have hsome := hl name hlibrary
      rw [hnone] at hsome
      cases hsome
    · exact ⟨hclass, hne⟩
  · rintro ⟨hclass, hne⟩
    exact ⟨(hn name).mpr ⟨.inr hclass, hne⟩, h.classes name hclass hne⟩

theorem KeepsApart.markers (ht : t ∈ [Target.jaxrsSpec, .spring, .python])
    (h : KeepsApart t own shapes) : ∀ marker ∈ t.markerImports, marker ∈ names := by
  intro marker hmarker
  have hused : marker ∈ libraryNames t shapes := List.mem_append_right _ hmarker
  refine (hn marker).mpr ⟨.inl hused, ?_⟩
  rintro rfl
  have hsome := Target.isSome_importTarget?_of_marker ht marker hmarker
  rw [h.own hused] at hsome
  cases hsome

/-- What types with certain shapes import is told apart as it is meant exactly if names keep it
apart. -/
theorem splitsAsMeant_iff (ht : t ∈ [Target.jaxrsSpec, .spring, .python])
    (hl : ∀ name ∈ libraryNames t shapes, (t.importTargets.lookup name).isSome = true) :
    SplitsAsMeant t own shapes names ↔ KeepsApart t own shapes :=
  ⟨fun h => h.keepsApart hn ht, fun h => ⟨h.library hn, h.models hn hl, h.markers hn ht⟩⟩

end

/-! ## The shapes of a model -/

variable {g : Generator} {spec : Spec}

/-- The shapes of the properties of a record, in the order in which they are gathered. -/
def HasShapes (g : Generator) (spec : Spec) (name : String) (schema : Members)
    (shapes : List Schema.Shape) : Prop :=
  ∃ gathered, flatten spec name (depthBound spec schema) name [name] schema {} = .ok gathered
    ∧ List.Forall₂ (fun d shape => Schema.HasShape g spec d.schema shape)
      gathered.properties shapes

theorem buildProperty_type {model : String} {required : List Value} {d : Declared}
    {built : Property × List String} (h : buildProperty g spec model required d = .ok built) :
    ∃ type, Schema.resolve g (some spec) d.schema = .ok type ∧ built.1.type = type.name
      ∧ built.2 = type.imports := by
  obtain ⟨type, schema, target, hfrom⟩ := buildProperty_ok h
  rw [hfrom.assembled]
  exact ⟨type, hfrom.resolved, rfl, rfl⟩

/-- A model that is no enumeration is the record of what is gathered from its schema. -/
theorem ofSchema_record {name : String} {schema : Members} {m : Model}
    (h : ofSchema g spec (.str name) (.map schema) = .ok m) (he : m.isEnum = false) :
    ∃ gathered built,
      flatten spec name (depthBound spec schema) name [name] schema {} = .ok gathered
        ∧ List.Forall₂ (fun d b => buildProperty g spec name gathered.required d = .ok b)
          gathered.properties built
        ∧ m.properties = built.map Prod.fst ∧ m.className = g.target.modelName name
        ∧ m.imports = Target.sortedSet ((built.flatMap Prod.snd ++ g.target.markerImports).filter
          (· ≠ g.target.modelName name)) := by
  obtain ⟨text, members, htext, hmembers, hm | hm⟩ := ofSchema_ok h
  · obtain ⟨type, hm⟩ := buildEnum_ok hm
    rw [hm.assembled] at he
    cases he
  · cases htext
    cases hmembers
    obtain ⟨gathered, built, hm⟩ := buildRecord_ok hm
    rw [hm.assembled]
    exact ⟨gathered, built, hm.flattened, hm.propertiesBuilt, rfl, rfl, rfl⟩

/-- The properties of a record have shapes, and each has the type of its shape and imports what that
imports. -/
theorem exists_shapes {name : String} {required : List Value} {declared : List Declared}
    {built : List (Property × List String)}
    (h : List.Forall₂ (fun d b => buildProperty g spec name required d = .ok b) declared built) :
    ∃ shapes, List.Forall₂ (fun d shape => Schema.HasShape g spec d.schema shape)
      declared shapes := by
  induction h with
  | nil => exact ⟨[], .nil⟩
  | cons hb _ ih =>
      obtain ⟨shapes, hshapes⟩ := ih
      obtain ⟨type, htype, -⟩ := buildProperty_type hb
      obtain ⟨shape, hshape, -⟩ := Schema.resolve_eq_ok.mp htype
      exact ⟨shape :: shapes, .cons hshape hshapes⟩

theorem built_of_shapes {name : String} {required : List Value} {declared : List Declared}
    {built : List (Property × List String)}
    (h : List.Forall₂ (fun d b => buildProperty g spec name required d = .ok b) declared built)
    (hs : List.Forall₂ (fun d shape => Schema.HasShape g spec d.schema shape) declared shapes) :
    built.map (fun b => (b.1.type, b.2))
      = shapes.map fun shape => ((shape.type g.target).name, (shape.type g.target).imports) := by
  induction h generalizing shapes with
  | nil =>
      cases hs
      rfl
  | cons hb _ ih =>
      cases hs with
      | cons hshape hrest =>
          obtain ⟨type, htype, hname, himports⟩ := buildProperty_type hb
          have heq := Except.ok.inj (htype.symm.trans
            (Schema.resolve_eq_ok.mpr ⟨_, hshape, rfl⟩))
          rw [List.map_cons, List.map_cons, ih hrest, hname, himports, heq]

theorem mem_flatMap_imports {t : Target} {shapes : List Schema.Shape} {name : String} :
    name ∈ shapes.flatMap (fun shape => (shape.type t).imports) ++ t.markerImports ↔
      name ∈ libraryNames t shapes ∨ name ∈ classNames t shapes := by
  simp only [libraryNames, classNames, List.mem_append, List.mem_flatMap, List.mem_map,
    Schema.Shape.mem_imports_type]
  constructor
  · rintro (⟨shape, hshape, hlibrary | ⟨c, hc, hname⟩⟩ | hmarker)
    · exact .inl (.inl ⟨shape, hshape, hlibrary⟩)
    · exact .inr ⟨c, ⟨shape, hshape, hc⟩, hname⟩
    · exact .inl (.inr hmarker)
  · rintro ((⟨shape, hshape, hlibrary⟩ | hmarker) | ⟨c, ⟨shape, hshape, hc⟩, hname⟩)
    · exact .inl ⟨shape, hshape, .inl hlibrary⟩
    · exact .inr hmarker
    · exact .inl ⟨shape, hshape, .inr ⟨c, hc, hname⟩⟩

/-- The properties of a record have shapes. Their types are those of the shapes, and the components
in them are components of the document that are no aliases. The imports of the record are told apart
as they are meant exactly if no class that it refers to has the name of a library type, and its own
class has not that of a library type that it uses. -/
theorem splitImports_asMeant_iff {name : String} {schema : Members} {m : Model}
    (ht : g.target ∈ [Target.jaxrsSpec, .spring, .python]) (hn : spec.NamesComponents)
    (hs : spec.HasSchema (.map schema)) (h : ofSchema g spec (.str name) (.map schema) = .ok m)
    (he : m.isEnum = false) :
    (∃ shapes, HasShapes g spec name schema shapes)
      ∧ ∀ shapes, HasShapes g spec name schema shapes →
        m.properties.map Property.type = shapes.map (fun shape => (shape.type g.target).name)
        ∧ (∀ shape ∈ shapes, ∀ c ∈ shape.components,
            ∃ target, spec.HasComponent c (.map target) ∧ Schema.isAlias target = .ok false)
        ∧ (SplitsAsMeant g.target m.className shapes m.imports
          ↔ KeepsApart g.target m.className shapes) := by
  obtain ⟨gathered, built, hg, hb, hproperties, hclass, himports⟩ := ofSchema_record h he
  refine ⟨?_, ?_⟩
  · obtain ⟨shapes, hshapes⟩ := exists_shapes hb
    exact ⟨shapes, gathered, hg, hshapes⟩
  · rintro shapes ⟨gathered', hg', hshapes⟩
    obtain rfl := Except.ok.inj (hg'.symm.trans hg)
    have hbuilt := built_of_shapes hb hshapes
    refine ⟨?_, fun shape hshape c hc => ?_, splitsAsMeant_iff (fun cls => ?_) ht fun cls hcls => ?_⟩
    · have hnames := congrArg (List.map Prod.fst) hbuilt
      rw [List.map_map, List.map_map] at hnames
      rw [hproperties, List.map_map]
      exact hnames
    · obtain ⟨d, hd, hhas⟩ := Attempt.exists_of_forall₂ hshapes hshape
      obtain hd | ⟨s, hv, hdecl⟩ := (flatten_ok hg).properties d hd
      · cases hd
      · obtain ⟨r, hr, rfl⟩ := hhas.reaches c hc
        obtain ⟨schemas, target, hschemas, hget, halias⟩ :=
          Spec.HasReference.reaches hn (hs.usesType hn (.property hv hdecl)) hr
        exact ⟨target, ⟨schemas, hschemas, Members.mem_of_get? hget⟩, halias⟩
    · have hflat : built.flatMap Prod.snd
          = shapes.flatMap fun shape => (shape.type g.target).imports := by
        have hlists := congrArg (List.flatMap Prod.snd) hbuilt
        simpa [List.flatMap_map] using hlists
      rw [himports, hflat, hclass, Target.mem_sortedSet, List.mem_filter, mem_flatMap_imports,
        decide_eq_true_eq]
    · refine Target.lookup_of_builtin ht cls ?_
      rcases List.mem_append.mp hcls with hcls | hcls
      · obtain ⟨shape, hshape, hcls⟩ := List.mem_flatMap.mp hcls
        obtain ⟨d, -, hhas⟩ := Attempt.exists_of_forall₂ hshapes hshape
        exact List.mem_append_left _ (hhas.library hcls)
      · exact List.mem_append_right _ hcls

/-! ## A home, and a model that is called like a marker -/

/-- A schema without allowed values has no enumeration. -/
theorem isEnum_of_ofSchema {name : String} {schema : Members} {m : Model}
    (h : ofSchema g spec (.str name) (.map schema) = .ok m)
    (he : Members.has schema "enum" = false) : m.isEnum = false := by
  simp only [ofSchema, he, Bool.false_and, Bool.false_eq_true, if_false] at h
  obtain ⟨gathered, built, hm⟩ := buildRecord_ok h
  rw [hm.assembled]

/-- The pets of a home are a list of the component that the alias for them names. -/
theorem hasShape_pets {type : String} :
    Schema.HasShape g (.household type) (.map (Schema.link "Pets")) (.list (.component "Pet")) := by
  have hkey : Pointer.lastKey "#/components/schemas/Pet" = "Pet" := by decide
  have hpet : ∀ hops seen, Schema.Shaped g (.household type) hops seen (.map (Schema.link "Pet"))
      (.component "Pet") := by
    intro hops seen
    rw [← hkey]
    have hr : (Spec.household type).resolve "#/components/schemas/Pet"
        = .ok (Schema.single "photo" [(.str "type", .str type)]) := rfl
    exact .component rfl hr rfl
  unfold Schema.HasShape Spec.chainBound
  have hr : (Spec.household type).resolve "#/components/schemas/Pets"
      = .ok (Schema.listOf "Pet") := rfl
  exact .through rfl hr rfl List.not_mem_nil (.list ⟨rfl, rfl, rfl⟩ rfl (hpet _ _))

/-- What a home imports for its pets, whose class has not the name of a library type, is told apart
as it is meant. -/
theorem splitImports_asMeant_iff_home : ∃ settings m,
    Settings.ofOptions .jaxrsSpec (Generator.ofTarget .jaxrsSpec []).runOptions = .ok settings
      ∧ ofSchema ((Generator.ofTarget .jaxrsSpec []).building settings) (.household "string")
          (.str "Home") (.map (Schema.single "pets" (Schema.link "Pets"))) = .ok m
      ∧ HasShapes ((Generator.ofTarget .jaxrsSpec []).building settings) (.household "string")
          "Home" (Schema.single "pets" (Schema.link "Pets")) [.list (.component "Pet")]
      ∧ SplitsAsMeant .jaxrsSpec m.className [.list (.component "Pet")] m.imports := by
  obtain ⟨settings, hs, -⟩ := Generator.exists_settings (t := .jaxrsSpec) (by simp)
  obtain ⟨m, hm, -⟩ := @ofSchema_single
    ((Generator.ofTarget .jaxrsSpec []).building settings) (.household "string") "Home" "pets"
    (Schema.link "Pets") (Schema.listOf "Pet") _ Component.resolve_pets rfl rfl rfl
  have hshapes : HasShapes ((Generator.ofTarget .jaxrsSpec []).building settings)
      (.household "string") "Home" (Schema.single "pets" (Schema.link "Pets"))
      [.list (.component "Pet")] :=
    ⟨_, flatten_single, .cons hasShape_pets .nil⟩
  have hiff := splitImports_asMeant_iff (by simp [Generator.building, Generator.ofTarget])
    (Spec.namesComponents_household "string")
    (.component Spec.schemas_household List.mem_cons_self) hm (isEnum_of_ofSchema hm rfl)
  have happart : KeepsApart .jaxrsSpec (Target.jaxrsSpec.modelName "Home")
      [.list (.component "Pet")] := ⟨by decide, by decide⟩
  refine ⟨settings, m, hs, hm, hshapes, (hiff.2 _ hshapes).2.2.mpr ?_⟩
  rw [(ofSchema_className hm).2]
  exact happart

end Model

/-- The components of a document that describes schemas: a schema has a text for its name. -/
def Spec.metaSchemas : Members :=
  [(.str "Schema", .map (Schema.single "id" [(.str "type", .str "string")]))]

/-- No schema of a document that describes schemas is a reference. -/
theorem Spec.namesComponents_meta : (Spec.ofSchemas metaSchemas).NamesComponents := by
  have hschemas : (Spec.ofSchemas metaSchemas).schemas = .ok (.map metaSchemas) := rfl
  have hall : ∀ v, (Spec.ofSchemas metaSchemas).HasSchema v →
      v = .map (Schema.single "id" [(.str "type", .str "string")])
        ∨ v = .map [(.str "type", .str "string")] := by
    intro v h
    induction h with
    | component hs hm =>
        rw [hschemas] at hs
        cases hs
        exact .inl (Prod.mk.inj (List.mem_singleton.mp hm)).2
    | ofOperation hs _ _ =>
        rw [slots_ofSchemas] at hs
        cases hs
    | property _ hp hm ih =>
        simp only [Value.map.injEq] at ih
        rcases ih with rfl | rfl <;> simp [Schema.single, Members.get?] at hp
        subst hp
        simp only [List.mem_singleton, Prod.mk.injEq] at hm
        exact .inr hm.2
    | items _ hi ih =>
        simp only [Value.map.injEq] at ih
        rcases ih with rfl | rfl <;> simp [Schema.single, Members.get?] at hi
    | values _ ha ih =>
        simp only [Value.map.injEq] at ih
        rcases ih with rfl | rfl <;> simp [Schema.single, Members.get?] at ha
    | member _ hk hl _ _ ih =>
        simp only [Value.map.injEq] at ih
        simp only [Schema.compositionKeywords, List.mem_cons, List.not_mem_nil, or_false] at hk
        rcases ih with rfl | rfl <;> rcases hk with rfl | rfl | rfl <;>
          simp [Schema.single, Members.get?] at hl
  rintro reference ⟨schema, hs, href⟩
  have h := hall _ hs
  simp only [Value.map.injEq] at h
  rcases h with rfl | rfl <;> simp [Schema.single, Members.get?] at href

/-- A model that is called like what every model imports does not import it. -/
theorem Model.splitImports_loses_marker : ∃ settings m shapes,
    Settings.ofOptions .jaxrsSpec (Generator.ofTarget .jaxrsSpec []).runOptions = .ok settings
      ∧ Spec.ofValue (Spec.ofSchemas Spec.metaSchemas).document "<memory>"
        = .ok (.ofSchemas Spec.metaSchemas)
      ∧ (Spec.ofSchemas Spec.metaSchemas).NamesComponents
      ∧ ofSchema ((Generator.ofTarget .jaxrsSpec []).building settings)
          (.ofSchemas Spec.metaSchemas) (.str "Schema")
          (.map (Schema.single "id" [(.str "type", .str "string")])) = .ok m
      ∧ m.isEnum = false
      ∧ HasShapes ((Generator.ofTarget .jaxrsSpec []).building settings)
          (.ofSchemas Spec.metaSchemas) "Schema"
          (Schema.single "id" [(.str "type", .str "string")]) shapes
      ∧ "Schema" ∈ Target.jaxrsSpec.markerImports ∧ "Schema" ∉ m.imports
      ∧ ¬SplitsAsMeant .jaxrsSpec m.className shapes m.imports := by
  obtain ⟨settings, hs, -⟩ := Generator.exists_settings (t := .jaxrsSpec) (by simp)
  have htext : Schema.ReadBy [(.str "type", .str "string")] (.str "string") := ⟨rfl, rfl, rfl⟩
  have hshape : Schema.HasShape ((Generator.ofTarget .jaxrsSpec []).building settings)
      (.ofSchemas Spec.metaSchemas) (.map [(.str "type", .str "string")])
      (.mapped ⟨"String", "null", [], true, false⟩) :=
    .scalar htext (by simp) rfl ⟨rfl, rfl, .inl rfl⟩
  obtain ⟨m, hm, himports, -⟩ := @ofSchema_single
    ((Generator.ofTarget .jaxrsSpec []).building settings) (.ofSchemas Spec.metaSchemas) "Schema"
    "id" [(.str "type", .str "string")] [(.str "type", .str "string")] _ hshape.typeWith
    rfl rfl rfl
  have hclass : Target.jaxrsSpec.modelName "Schema" = "Schema" := by decide
  have hmarker : "Schema" ∈ Target.jaxrsSpec.markerImports := by decide
  have hlost : "Schema" ∉ m.imports := by
    rw [himports, Target.mem_sortedSet, List.mem_filter]
    rintro ⟨-, hne⟩
    simp [Generator.building, Generator.ofTarget, hclass] at hne
  exact ⟨settings, m, _, hs, Spec.ofValue_document (by decide +kernel), Spec.namesComponents_meta,
    hm, isEnum_of_ofSchema hm rfl, ⟨_, flatten_single, .cons hshape .nil⟩, hmarker, hlost,
    fun h => hlost (h.markers _ hmarker)⟩

end ApiScaffold
