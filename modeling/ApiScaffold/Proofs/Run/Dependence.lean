import ApiScaffold.Proofs.Run.Stages
import ApiScaffold.Proofs.Run.Components
import ApiScaffold.Proofs.Schema.Mention

/-!
# Models that depend on a failed one

Models that import the class of a schema that has failed. The check before a run goes on compares
the texts of records with the names that have failed, so it stops whenever such an import comes
along records alone. What escapes it goes through a component whose text it does not compare, or is
the class of something else as well.

* `Depends` is what is meant, an import; `Refers` is what is checked, a reference in the text of a
  schema.
* `failed_or_unchecked`: where mentions lead to a failed schema and no model refers to one, they
  start at a failed schema or pass a component that is not compared. The induction is on the
  mentions, from their end.
* `stops_iff`: the check stops on every model that depends on a failed schema exactly if some model
  refers to one in its own text, or no import of the class of one escapes.
* `checked_misses_household`: the home of a household imports the class of a pet by way of an alias,
  and the check does not stop there.
-/

namespace ApiScaffold

namespace Component

variable {g : Generator} {spec : Spec} {components : List Component}

/-- A model imports the class of a schema that has failed. -/
def Depends (g : Generator) (components : List Component) : Prop :=
  ∃ m ∈ components.filterMap model?, ∃ f ∈ components.filterMap failedName?,
    g.target.modelName f ∈ m.imports

/-- The check stops with a fault about a model and a schema that has failed. -/
def Stops (g : Generator) (spec : Spec) (components : List Component) : Prop :=
  ∃ m ∈ components.filterMap model?, ∃ f ∈ components.filterMap failedName?,
    (checked g spec).result = .error (.build (.str m.name) (.dependsOnFailed f))

/-- A model refers to a schema that has failed, in the text of its own schema. -/
def Refers (components : List Component) : Prop :=
  ∃ m ∈ components.filterMap model?, ∃ f ∈ components.filterMap failedName?, f ∈ m.references

/-- A component whose text is not compared with the names that have failed: an alias, or an
enumeration. -/
def Unchecked (spec : Spec) (name : String) : Prop :=
  ∃ schema, spec.HasComponent name (.map schema)
    ∧ (Schema.isAlias schema = .ok true
      ∨ (Members.has schema "enum" && !Members.has schema "properties") = true)

/-- How a model may import the class of a failed schema without a record on the way that refers to a
failed one. -/
inductive Escapes (g : Generator) (spec : Spec) (components : List Component) (m : Model)
    (f : String) : Prop
  /-- The class is imported without a model too. -/
  | library (h : g.target.modelName f ∈ g.target.libraryImports ++ g.target.markerImports)
  /-- The class is that of a model too. -/
  | shared {other : Model} (ho : other ∈ components.filterMap model?)
      (hc : other.className = g.target.modelName f)
  /-- An unchecked component mentions a failed schema of the class, directly or not. -/
  | unchecked {name last : String} (hu : Unchecked spec name)
      (hm : Relation.ReflTransGen spec.Mentions m.name name)
      (hl : Relation.TransGen spec.Mentions name last)
      (hf : last ∈ components.filterMap failedName?)
      (hc : g.target.modelName last = g.target.modelName f)

/-! ## The check -/

theorem checkReferences_eq_error {failed : List String} {models : List Model} {failure : Failure}
    (h : checkReferences failed models = .error failure) :
    ∃ m ∈ models, ∃ f ∈ failed, failure = .build (.str m.name) (.dependsOnFailed f) := by
  induction models with
  | nil => cases h
  | cons m rest ih =>
      rw [checkReferences] at h
      split at h
      next name hfound =>
        cases h
        have hname : name ∈ failed := by simpa using List.find?_some hfound
        exact ⟨m, List.mem_cons_self, name, hname, rfl⟩
      next =>
        obtain ⟨other, hm, hrest⟩ := ih h
        exact ⟨other, List.mem_cons_of_mem _ hm, hrest⟩

/-- Either no model refers to a failed schema and the components are accepted, or the check stops.
-/
theorem checked_of_all (hall : (all g spec).result = .ok components) :
    (¬Refers components ∧ (checked g spec).result = .ok components)
      ∨ (Refers components ∧ Stops g spec components) := by
  have hresult : (checked g spec).result = (do
      checkReferences (components.filterMap failedName?) (components.filterMap model?)
      return components) := by
    simp only [checked, Logged.result_bind, Logged.result_lift, Logged.result_pure, hall]
    rfl
  cases hc : checkReferences (components.filterMap failedName?) (components.filterMap model?) with
  | ok _ =>
      refine .inl ⟨?_, by rw [hresult, hc]; rfl⟩
      rintro ⟨m, hm, f, hf, hr⟩
      exact checkReferences_eq_ok.mp hc m hm f hr hf
  | error failure =>
      obtain ⟨m, hm, f, hf, hfailure⟩ := checkReferences_eq_error hc
      refine .inr ⟨?_, m, hm, f, hf, by rw [hresult, hc, hfailure]; rfl⟩
      by_contra hnone
      have hok : checkReferences (components.filterMap failedName?)
          (components.filterMap model?) = .ok () :=
        checkReferences_eq_ok.mpr fun m hm f hr hf => hnone ⟨m, hm, f, hf, hr⟩
      rw [hok] at hc
      cases hc

/-! ## What a component comes to -/

/-- What a component of a document comes to is among the components of the run. -/
theorem exists_of_hasComponent (hall : (all g spec).result = .ok components) {name : String}
    {v : Value} (h : spec.HasComponent name v) :
    ∃ c ∈ components, Outcome g spec (.str name) v c := by
  obtain ⟨sorted, hsorted, houtcomes⟩ := all_ok hall
  obtain ⟨schemas, hs, hmem⟩ := entries_ok hsorted
  obtain ⟨found, hfound, hin⟩ := h
  rw [hs] at hfound
  cases hfound
  exact Attempt.exists_of_forall₂ houtcomes.flip ((hmem _).mpr hin)

/-- A failed name is that of a component that has failed. -/
theorem exists_of_mem_failed (hall : (all g spec).result = .ok components) {f : String}
    (hf : f ∈ components.filterMap failedName?) :
    ∃ v subject fault, spec.HasComponent f v
      ∧ Model.ofSchema g spec (.str f) v = .error (.build subject fault) := by
  obtain ⟨sorted, hsorted, houtcomes⟩ := all_ok hall
  obtain ⟨schemas, hs, hmem⟩ := entries_ok hsorted
  obtain ⟨c, hc, hname⟩ := List.mem_filterMap.mp hf
  obtain ⟨⟨name, v⟩, hentry, hout⟩ := Attempt.exists_of_forall₂ houtcomes hc
  cases hout with
  | inlined _ => cases hname
  | model _ _ => cases hname
  | failed _ herror =>
      cases name with
      | str name =>
          cases hname
          exact ⟨v, _, _, ⟨schemas, hs, (hmem _).mp hentry⟩, herror⟩
      | _ => cases hname

/-- A component has failed, or is unchecked, or has a model with all its references. -/
theorem cases_of_hasComponent (hall : (all g spec).result = .ok components) {name : String}
    {v : Value} (h : spec.HasComponent name v) :
    name ∈ components.filterMap failedName? ∨ Unchecked spec name
      ∨ ∃ m ∈ components.filterMap model?, ∀ r ∈ Schema.componentReferences v, r ≠ name →
          r ∈ m.references := by
  obtain ⟨c, hc, hout⟩ := exists_of_hasComponent hall h
  cases hout with
  | inlined ha =>
      cases v with
      | map schema => exact .inr (.inl ⟨schema, h, .inl ha⟩)
      | _ => cases ha
  | failed _ _ => exact .inl (List.mem_filterMap.mpr ⟨_, hc, rfl⟩)
  | @model m _ hok =>
      obtain ⟨text, schema, htext, rfl, -⟩ := Model.ofSchema_ok hok
      cases htext
      cases he : (Members.has schema "enum" && !Members.has schema "properties") with
      | true => exact .inr (.inl ⟨schema, h, .inr he⟩)
      | false =>
          refine .inr (.inr ⟨m, List.mem_filterMap.mpr ⟨_, hc, rfl⟩, fun r hr hne => ?_⟩)
          exact Model.mem_references he hok hr hne

/-! ## Along mentions -/

/-- Where mentions lead to a failed schema and no model refers to one, they start at a failed one or
pass an unchecked component. -/
theorem failed_or_unchecked (hall : (all g spec).result = .ok components)
    (hr : ¬Refers components) {name last : String}
    (h : Relation.ReflTransGen spec.Mentions name last)
    (hl : last ∈ components.filterMap failedName?) :
    name ∈ components.filterMap failedName?
      ∨ ∃ between, Unchecked spec between ∧ Relation.ReflTransGen spec.Mentions name between
        ∧ Relation.TransGen spec.Mentions between last := by
  induction h using Relation.ReflTransGen.head_induction_on with
  | refl => exact .inl hl
  | @head name next hstep hrest ih =>
      rcases ih with hnext | ⟨between, hu, hpath, hlast⟩
      · -- the next one has failed: a record would refer to it, and stop the check
        obtain ⟨v, hv, hmentioned⟩ := hstep
        rcases cases_of_hasComponent hall hv with hfailed | hu | ⟨m, hm, hreferences⟩
        · exact .inl hfailed
        · exact .inr ⟨name, hu, .refl, .head' ⟨v, hv, hmentioned⟩ hrest⟩
        · by_cases hsame : next = name
          · exact .inl (hsame ▸ hnext)
          · exact absurd ⟨m, hm, next, hnext, hreferences next hmentioned hsame⟩ hr
      · exact .inr ⟨between, hu, .head hstep hpath, hlast⟩

/-- A model is that of a component under its name. -/
theorem component_of_mem_models (hall : (all g spec).result = .ok components) {m : Model}
    (hm : m ∈ components.filterMap model?) :
    ∃ schema, spec.HasComponent m.name (.map schema)
      ∧ Model.ofSchema g spec (.str m.name) (.map schema) = .ok m := by
  obtain ⟨sorted, hsorted, houtcomes⟩ := all_ok hall
  obtain ⟨schemas, hs, hmem⟩ := entries_ok hsorted
  obtain ⟨c, hc, hmodel⟩ := List.mem_filterMap.mp hm
  rw [model?_eq_some.mp hmodel] at hc
  obtain ⟨⟨key, v⟩, hentry, hout⟩ := Attempt.exists_of_forall₂ houtcomes hc
  cases hout with
  | model _ hok =>
      obtain ⟨text, schema, rfl, rfl, -⟩ := Model.ofSchema_ok hok
      obtain ⟨rfl, -⟩ := Model.ofSchema_className hok
      exact ⟨schema, ⟨schemas, hs, (hmem _).mp hentry⟩, hok⟩

/-- A schema that has a model has not failed. -/
theorem name_not_mem_failed (hp : spec.IsProper) (hall : (all g spec).result = .ok components)
    {m : Model} (hm : m ∈ components.filterMap model?) :
    m.name ∉ components.filterMap failedName? := by
  intro hf
  obtain ⟨schema, hc, hok⟩ := component_of_mem_models hall hm
  obtain ⟨v, subject, fault, hv, herror⟩ := exists_of_mem_failed hall hf
  rw [hv.unique hp hc, hok] at herror
  cases herror

/-- Where no model refers to a failed schema, an import of the class of one escapes the check. -/
theorem escapes_of_import (hn : spec.NamesComponents) (hp : spec.IsProper)
    (hall : (all g spec).result = .ok components) (hr : ¬Refers components) {m : Model}
    {f : String} (hm : m ∈ components.filterMap model?) (hi : g.target.modelName f ∈ m.imports) :
    Escapes g spec components m f := by
  obtain ⟨schema, hc, hok⟩ := component_of_mem_models hall hm
  have hwithin : spec.Within m.name (.map schema) := hc.within hp
  rcases Model.ofSchema_imports hok _ hi with hmarker | ⟨v, type, hu, htype, hin⟩
  · exact .library (List.mem_append_right _ hmarker)
  rcases Schema.resolve_imports htype _ hin with hlib | ⟨reference, hreach, hclass⟩
  · exact .library (List.mem_append_left _ hlib)
  obtain ⟨schemas, target, hs, hget, ha⟩ :=
    Spec.HasReference.reaches hn (hwithin.schema.usesType hn hu) hreach
  have htarget : spec.HasComponent (Pointer.lastKey reference) (.map target) :=
    ⟨schemas, hs, Members.mem_of_get? hget⟩
  obtain ⟨c, hin, hout⟩ := exists_of_hasComponent hall htarget
  cases hout with
  | inlined hinlined =>
      have halias : Schema.isAlias target = .ok true := hinlined
      rw [ha] at halias
      cases halias
  | @model other _ hother =>
      refine .shared (List.mem_filterMap.mpr ⟨_, hin, rfl⟩) ?_
      rw [(Model.ofSchema_className hother).2, hclass]
  | failed _ _ =>
      have hl : Pointer.lastKey reference ∈ components.filterMap failedName? :=
        List.mem_filterMap.mpr ⟨_, hin, rfl⟩
      have hpath := hwithin.usesType hn hp hu hreach
      rcases failed_or_unchecked hall hr hpath.to_reflTransGen hl with hown | ⟨between, hu, hb, hrest⟩
      · exact absurd hown (name_not_mem_failed hp hall hm)
      · exact .unchecked hu hb hrest hl hclass.symm

/-- When the check does what it is for. It stops on every model that imports the class of a failed
schema exactly if some model refers to a failed schema in its own text, or no model imports the
class of one by an escape. -/
theorem stops_iff (hn : spec.NamesComponents) (hp : spec.IsProper)
    (hall : (all g spec).result = .ok components) :
    (Depends g components → Stops g spec components) ↔
      Refers components ∨ ∀ m ∈ components.filterMap model?,
        ∀ f ∈ components.filterMap failedName?, Escapes g spec components m f →
          g.target.modelName f ∉ m.imports := by
  rcases checked_of_all hall with ⟨hr, hok⟩ | ⟨hr, hstops⟩
  · constructor
    · intro hmeets
      refine .inr fun m hm f hf _ hi => ?_
      obtain ⟨_, _, _, _, herror⟩ := hmeets ⟨m, hm, f, hf, hi⟩
      rw [hok] at herror
      cases herror
    · rintro (hrefers | hnone)
      · exact absurd hrefers hr
      · rintro ⟨m, hm, f, hf, hi⟩
        exact absurd hi (hnone m hm f hf (escapes_of_import hn hp hall hr hm hi))
  · exact iff_of_true (fun _ => hstops) (.inl hr)

/-! ## A household without pets -/

theorem ofSchema_pet_file {settings : Settings} (ht : g.target = .jaxrsSpec)
    (hs : g.settings? = some settings) (hp : settings.permissiveTypes = false) :
    ∃ fault, (ofSchema g (.household "file") (.str "Pet")
      (.map (Schema.single "photo" [(.str "type", .str "file")]))).result
        = .ok (.failed (.str "Pet") (.str "Pet") fault) := by
  have htype : Schema.resolve g (some (.household "file")) (.map [(.str "type", .str "file")])
      = .error (.build (.str "schema") (.schema (.unsupported (.str "file") .null))) := by
    rw [Schema.resolve, Schema.typeWith_scalar rfl rfl rfl (by decide) (by decide)]
    have hnone : Schema.mapping? g.target (.str "file") .null = none := by
      rw [ht]
      rfl
    have hsettings : g.settings = .ok settings := by rw [Generator.settings, hs]
    show Schema.scalarType g (.str "file") .null = _
    simp [Schema.scalarType, Value.isKey, hnone, hsettings, hp, Schema.refuse, Bind.bind,
      Except.bind]
  exact ⟨_, ofSchema_failed rfl (Model.ofSchema_single_untyped htype)⟩

/-- The home of a household imports the class of a pet by way of an alias, and its text does not
refer to the schema of a pet, which has failed. -/
theorem household_without_pets : ∃ settings components home,
    Settings.ofOptions .jaxrsSpec (Generator.ofTarget .jaxrsSpec []).runOptions = .ok settings
      ∧ (all ((Generator.ofTarget .jaxrsSpec []).building settings) (.household "file")).result
          = .ok components
      ∧ ¬Refers components ∧ home ∈ components.filterMap model?
      ∧ "Pet" ∈ components.filterMap failedName?
      ∧ Target.jaxrsSpec.modelName "Pet" ∈ home.imports := by
  obtain ⟨settings, hs, hp⟩ := Generator.exists_settings (t := .jaxrsSpec) (by simp)
  obtain ⟨fault, hpet⟩ :=
    @ofSchema_pet_file ((Generator.ofTarget .jaxrsSpec []).building settings) settings rfl rfl hp
  obtain ⟨home, hall, -, -, himports, hreferences⟩ := all_household hpet
  refine ⟨settings, _, home, hs, hall, ?_, by simp [model?], by simp [failedName?, Value.asStr?], ?_⟩
  · rintro ⟨m, hm, f, hf, hr⟩
    simp [model?, failedName?, Value.asStr?] at hm hf
    rw [hm, hreferences, ← hf] at hr
    simp at hr
  · have hlisted : Target.jaxrsSpec.modelName "Pet"
        ∈ ((Target.jaxrsSpec.listType (Target.jaxrsSpec.modelType "Pet")).imports
          ++ Target.jaxrsSpec.markerImports).filter (· ≠ Target.jaxrsSpec.modelName "Home") := by
      decide
    rw [himports, Target.mem_sortedSet]
    exact hlisted

/-- The check does not stop there. -/
theorem checked_misses_household : ∃ settings components,
    Settings.ofOptions .jaxrsSpec (Generator.ofTarget .jaxrsSpec []).runOptions = .ok settings
      ∧ (checked ((Generator.ofTarget .jaxrsSpec []).building settings) (.household "file")).result
          = .ok components
      ∧ Depends ((Generator.ofTarget .jaxrsSpec []).building settings) components
      ∧ ¬Stops ((Generator.ofTarget .jaxrsSpec []).building settings) (.household "file")
          components := by
  obtain ⟨settings, components, home, hs, hall, hr, hhome, hpet, hi⟩ := household_without_pets
  rcases checked_of_all hall with ⟨-, hok⟩ | ⟨hrefers, -⟩
  · refine ⟨settings, components, hs, hok, ⟨home, hhome, "Pet", hpet, hi⟩, ?_⟩
    rintro ⟨_, _, _, _, herror⟩
    rw [hok] at herror
    cases herror
  · exact absurd hrefers hr

/-- So it has an escape. -/
theorem stops_iff_household : ∃ settings components,
    (all ((Generator.ofTarget .jaxrsSpec []).building settings) (.household "file")).result
        = .ok components
      ∧ ¬Refers components
      ∧ ¬∀ m ∈ components.filterMap model?, ∀ f ∈ components.filterMap failedName?,
          Escapes ((Generator.ofTarget .jaxrsSpec []).building settings) (.household "file")
            components m f → Target.jaxrsSpec.modelName f ∉ m.imports := by
  obtain ⟨settings, components, home, -, hall, hr, hhome, hpet, hi⟩ := household_without_pets
  have hproper : (Spec.household "file").IsProper := by
    unfold Spec.IsProper
    decide
  have hiff := stops_iff (Spec.namesComponents_household "file") hproper hall
  refine ⟨settings, components, hall, hr, fun hnone => ?_⟩
  obtain ⟨_, _, _, _, herror⟩ := hiff.mpr (.inr hnone) ⟨home, hhome, "Pet", hpet, hi⟩
  rcases checked_of_all hall with ⟨-, hok⟩ | ⟨hrefers, -⟩
  · rw [hok] at herror
    cases herror
  · exact hr hrefers

end Component

end ApiScaffold
