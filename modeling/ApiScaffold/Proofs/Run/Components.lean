import ApiScaffold.Proofs.Attempt
import ApiScaffold.Proofs.Model.Build
import ApiScaffold.Proofs.Schema.Position
import ApiScaffold.Run.Components

/-!
# What becomes of the component schemas

Each component schema of a document comes to an alias, a model or a recorded fault (`Outcome`), and
a list of them is accepted exactly if no model refers to a name that has failed
(`checkReferences_eq_ok`).

The entries of a run are the component schemas in the order of their names, and `all_ok` shows that
each of them comes to one component. What a model of a run is, is then a matter of its schema alone
(`exists_of_mem_models`).

The last section has the components of a household, which are the case of several results: a home
has pets by way of an alias.
-/

namespace ApiScaffold

namespace Component

variable {g : Generator} {spec : Spec}

/-- What a schema under a name comes to. -/
inductive Outcome (g : Generator) (spec : Spec) (name schema : Value) : Component → Prop
  | inlined (ha : isInlined schema = .ok true) : Outcome g spec name schema (.inlined name)
  | model {m : Model} (ha : isInlined schema = .ok false)
      (hm : Model.ofSchema g spec name schema = .ok m) : Outcome g spec name schema (.model m)
  | failed {subject : Value} {fault : BuildFault} (ha : isInlined schema = .ok false)
      (hf : Model.ofSchema g spec name schema = .error (.build subject fault)) :
      Outcome g spec name schema (.failed name subject fault)

/-- The entries are the component schemas of the document. -/
theorem entries_ok {sorted : Members} (h : entries spec = .ok sorted) :
    ∃ schemas, spec.schemas = .ok (.map schemas) ∧ ∀ entry, entry ∈ sorted ↔ entry ∈ schemas := by
  obtain ⟨v, hv, h⟩ := Attempt.bind_eq_ok.mp h
  obtain ⟨members, hm, h⟩ := Attempt.bind_eq_ok.mp h
  rw [Value.entries_ok hm] at hv
  exact ⟨members, hv, fun entry => Members.mem_sorted? (Attempt.require_eq_ok.mp h)⟩

/-- Component schemas that stand in the order of their names stay in it. -/
theorem entries_of_pairwise {schemas : Members} (hs : spec.schemas = .ok (.map schemas))
    (hk : Members.sortable schemas = true)
    (ho : schemas.Pairwise fun a b => !b.1.keyLess a.1) : entries spec = .ok schemas := by
  simp only [entries, hs, Members.sorted?, Value.entries, Bind.bind, Except.bind]
  rw [if_pos hk, List.mergeSort_of_pairwise ho]
  rfl

theorem ofSchema_ok {name schema : Value} {c : Component}
    (h : (ofSchema g spec name schema).result = .ok c) : Outcome g spec name schema c := by
  simp only [ofSchema, Logged.result_bind, Logged.result_lift, Attempt.bind_eq_ok] at h
  obtain ⟨inlined, ha, h⟩ := h
  cases inlined with
  | true =>
      simp only [if_true, Logged.result_bind, Logged.result_report, Attempt.bind_eq_ok,
        Logged.result_pure, Except.ok.injEq] at h
      obtain ⟨-, -, rfl⟩ := h
      exact .inlined ha
  | false =>
      simp only [Bool.false_eq_true, if_false] at h
      split at h
      next m hm =>
        simp only [Logged.result_bind, Logged.result_report, Attempt.bind_eq_ok,
          Logged.result_pure, Except.ok.injEq] at h
        obtain ⟨-, -, rfl⟩ := h
        exact .model ha hm
      next subject fault hf =>
        simp only [Logged.result_bind, Logged.result_report, Attempt.bind_eq_ok,
          Logged.result_pure, Except.ok.injEq] at h
        obtain ⟨-, -, rfl⟩ := h
        exact .failed ha hf
      next => cases h

theorem ofSchema_model {name schema : Value} {m : Model}
    (ha : isInlined schema = .ok false) (hm : Model.ofSchema g spec name schema = .ok m) :
    (ofSchema g spec name schema).result = .ok (.model m) := by
  simp only [ofSchema, Logged.result_bind, Logged.result_lift, ha, hm]
  rfl

theorem ofSchema_failed {name schema subject : Value} {fault : BuildFault}
    (ha : isInlined schema = .ok false)
    (hm : Model.ofSchema g spec name schema = .error (.build subject fault)) :
    (ofSchema g spec name schema).result = .ok (.failed name subject fault) := by
  simp only [ofSchema, Logged.result_bind, Logged.result_lift, ha, hm]
  rfl

/-- Every entry comes to one component, and a component comes from one entry. -/
theorem all_ok {components : List Component} (h : (all g spec).result = .ok components) :
    ∃ schemas, entries spec = .ok schemas
      ∧ List.Forall₂ (fun entry c => Outcome g spec entry.1 entry.2 c) schemas components := by
  simp only [all, Logged.result_bind, Logged.result_lift, Logged.result_mapM,
    Attempt.bind_eq_ok] at h
  obtain ⟨schemas, hs, h⟩ := h
  exact ⟨schemas, hs, (Attempt.mapM_eq_ok.mp h).imp fun entry c hc => ofSchema_ok hc⟩

/-- Models are accepted exactly if none of them refers to a failed name. -/
theorem checkReferences_eq_ok {failed : List String} {models : List Model} :
    checkReferences failed models = .ok () ↔ ∀ m ∈ models, ∀ r ∈ m.references, r ∉ failed := by
  induction models with
  | nil => simp [checkReferences]
  | cons m rest ih =>
      rw [checkReferences, List.forall_mem_cons]
      split
      next name hfound =>
        have hname : name ∈ failed := by simpa using List.find?_some hfound
        constructor
        · intro h
          cases h
        · intro h
          exact absurd hname (h.1 name (List.mem_of_find?_eq_some hfound))
      next hnone =>
        rw [ih]
        have hfree : ∀ r ∈ m.references, r ∉ failed := by simpa using hnone
        exact (and_iff_right hfree).symm

theorem checked_ok {components : List Component} (h : (checked g spec).result = .ok components) :
    (all g spec).result = .ok components
      ∧ ∀ m ∈ components.filterMap model?, ∀ r ∈ m.references,
          r ∉ components.filterMap failedName? := by
  simp only [checked, Logged.result_bind, Logged.result_lift, Attempt.bind_eq_ok,
    Logged.result_pure, Except.ok.injEq] at h
  obtain ⟨found, hall, _, hcheck, rfl⟩ := h
  exact ⟨hall, checkReferences_eq_ok.mp hcheck⟩

theorem model?_eq_some {c : Component} {m : Model} : c.model? = some m ↔ c = .model m := by
  cases c <;> simp [model?]

/-- A model of a run is the model of a schema that is no alias. -/
theorem exists_of_mem_models {components : List Component}
    (h : (checked g spec).result = .ok components) {m : Model}
    (hm : m ∈ components.filterMap model?) :
    ∃ schemas name schema, entries spec = .ok schemas ∧ (name, schema) ∈ schemas
      ∧ isInlined schema = .ok false ∧ Model.ofSchema g spec name schema = .ok m := by
  obtain ⟨hall, -⟩ := checked_ok h
  obtain ⟨schemas, hs, hentries⟩ := all_ok hall
  obtain ⟨c, hc, hmodel⟩ := List.mem_filterMap.mp hm
  rw [model?_eq_some.mp hmodel] at hc
  obtain ⟨⟨name, schema⟩, hentry, hout⟩ := Attempt.exists_of_forall₂ hentries hc
  cases hout with
  | model ha hok => exact ⟨schemas, name, schema, hs, hentry, ha, hok⟩

/-- The component schemas of a document without lone halves have none. -/
theorem areWhole_entries {schemas : Members} (hspec : spec.IsWhole)
    (h : entries spec = .ok schemas) : Members.AreWhole schemas := by
  obtain ⟨v, hv, h⟩ := Attempt.bind_eq_ok.mp h
  obtain ⟨members, hm, h⟩ := Attempt.bind_eq_ok.mp h
  exact (Value.areWhole_of_entries (hspec.schemas hv) hm).sorted? (Attempt.require_eq_ok.mp h)

theorem isWhole_of_mem_models {components : List Component} (ht : g.target.IsWhole)
    (hspec : spec.IsWhole) (h : (checked g spec).result = .ok components) {m : Model}
    (hm : m ∈ components.filterMap model?) : m.IsWhole := by
  obtain ⟨schemas, name, schema, hs, hentry, -, hok⟩ := exists_of_mem_models h hm
  have hwhole := Value.isWhole_map.mp (areWhole_entries hspec hs) _ hentry
  exact Model.isWhole_ofSchema ht hspec hwhole.1 hwhole.2 hok

end Component

/-! ## A household -/

/-- The components of a household: a home has pets, by way of an alias, and a pet has a photo of a
certain type. -/
def Spec.householdSchemas (type : String) : Members := [
  (.str "Home", .map (Schema.single "pets" (Schema.link "Pets"))),
  (.str "Pet", .map (Schema.single "photo" [(.str "type", .str type)])),
  (.str "Pets", .map (Schema.listOf "Pet"))]

/-- A document without paths whose components are those of a household. -/
def Spec.household (type : String) : Spec where
  members := Spec.bare.members
    ++ [(.str "components", .map [(.str "schemas", .map (householdSchemas type))])]
  source := Spec.bare.source

namespace Spec

variable {type : String}

/-- A document without paths has no operations. -/
theorem slots_ofSchemas (schemas : Members) : (ofSchemas schemas).slots = ([], none) := by
  have hp : (ofSchemas schemas).paths = .map [] := rfl
  have hs : Members.sorted? [] = some [] := by simp [Members.sorted?, Members.sortable]
  simp only [slots, hp, Value.entries, hs, Bind.bind, Except.bind]
  rfl

theorem schemas_household : (household type).schemas = .ok (.map (householdSchemas type)) := rfl

theorem slots_household : (household type).slots = ([], none) :=
  slots_ofSchemas (householdSchemas type)

/-- The schemas of a household: its components and their parts. -/
theorem hasSchema_household {v : Value} (h : (household type).HasSchema v) :
    v = .map (Schema.single "pets" (Schema.link "Pets"))
      ∨ v = .map (Schema.single "photo" [(.str "type", .str type)])
      ∨ v = .map (Schema.listOf "Pet") ∨ v = .map (Schema.link "Pets")
      ∨ v = .map (Schema.link "Pet") ∨ v = .map [(.str "type", .str type)] := by
  induction h with
  | component hs hm =>
      rw [schemas_household] at hs
      cases hs
      simp only [householdSchemas, List.mem_cons, Prod.mk.injEq, List.not_mem_nil, or_false] at hm
      tauto
  | ofOperation hs _ _ =>
      rw [slots_household] at hs
      cases hs
  | property _ hp hm ih =>
      simp only [Value.map.injEq] at ih
      rcases ih with rfl | rfl | rfl | rfl | rfl | rfl <;>
        simp [Schema.single, Schema.listOf, Schema.link, Members.get?] at hp
      all_goals
        subst hp
        simp only [List.mem_singleton, Prod.mk.injEq] at hm
        simp [hm, Schema.link]
  | items _ hi ih =>
      simp only [Value.map.injEq] at ih
      rcases ih with rfl | rfl | rfl | rfl | rfl | rfl <;>
        simp [Schema.single, Schema.listOf, Schema.link, Members.get?] at hi
      subst hi
      simp [Schema.link]
  | values _ ha ih =>
      simp only [Value.map.injEq] at ih
      rcases ih with rfl | rfl | rfl | rfl | rfl | rfl <;>
        simp [Schema.single, Schema.listOf, Schema.link, Members.get?] at ha
  | member _ hk hl _ _ ih =>
      simp only [Value.map.injEq] at ih
      simp only [Schema.compositionKeywords, List.mem_cons, List.not_mem_nil, or_false] at hk
      rcases ih with rfl | rfl | rfl | rfl | rfl | rfl <;> rcases hk with rfl | rfl | rfl <;>
        simp [Schema.single, Schema.listOf, Schema.link, Members.get?] at hl

theorem namesComponents_household (type : String) : (household type).NamesComponents := by
  rintro reference ⟨schema, hs, href⟩
  have h := hasSchema_household hs
  simp only [Value.map.injEq] at h
  rcases h with rfl | rfl | rfl | rfl | rfl | rfl <;>
    simp [Schema.single, Schema.listOf, Schema.link, Members.get?] at href
  · subst href
    exact ⟨"Pets".toList, by decide, by decide⟩
  · subst href
    exact ⟨"Pet".toList, by decide, by decide⟩

end Spec

namespace Component

variable {g : Generator} {type : String}

/-- The way from a home to the class of a pet leads through the alias for its pets. -/
theorem resolve_pets : Schema.resolve g (some (.household type)) (.map (Schema.link "Pets"))
    = .ok (g.target.listType (g.target.modelType "Pet")) := by
  have hfollow : Schema.typeOfReference g (.household type)
      (Spec.chainBound (Spec.household type).document) [] "#/components/schemas/Pets"
        = Schema.typeWith g (Schema.typeOfReference g (.household type)
            (Spec.household type).document.nodeCount ["#/components/schemas/Pets"])
          (.map (Schema.listOf "Pet")) := rfl
  rw [Schema.resolve, Schema.typeWith_reference rfl]
  show Schema.typeOfReference g (.household type)
      (Spec.chainBound (Spec.household type).document) [] "#/components/schemas/Pets" = _
  rw [hfollow, Schema.typeWith_list rfl rfl rfl rfl, Schema.typeWith_reference rfl]
  rfl

theorem entries_household : entries (.household type) = .ok (Spec.householdSchemas type) := by
  have horder : (Spec.householdSchemas type).Pairwise fun a b => !b.1.keyLess a.1 := by
    have hless : (Value.str "Pet").keyLess (.str "Home") = false
        ∧ (Value.str "Pets").keyLess (.str "Home") = false
        ∧ (Value.str "Pets").keyLess (.str "Pet") = false := by
      decide
    simp [Spec.householdSchemas, hless]
  exact entries_of_pairwise Spec.schemas_household (by rfl) horder

/-- What the components of a household come to, where the schema of a pet comes to something. -/
theorem all_household {pet : Component}
    (hp : (ofSchema g (.household type) (.str "Pet")
      (.map (Schema.single "photo" [(.str "type", .str type)]))).result = .ok pet) :
    ∃ home, (all g (.household type)).result = .ok [.model home, pet, .inlined (.str "Pets")]
      ∧ home.name = "Home" ∧ home.className = g.target.modelName "Home"
      ∧ home.imports = Target.sortedSet
        (((g.target.listType (g.target.modelType "Pet")).imports ++ g.target.markerImports).filter
          (· ≠ g.target.modelName "Home"))
      ∧ home.references = ["Pets"] := by
  obtain ⟨home, hhome, himports, hreferences⟩ :=
    @Model.ofSchema_single g (.household type) "Home" "pets" (Schema.link "Pets")
      (Schema.listOf "Pet") _ resolve_pets rfl rfl rfl
  obtain ⟨hname, hclass⟩ := Model.ofSchema_className hhome
  have hfirst := @ofSchema_model g (.household type) (.str "Home") _ _ rfl hhome
  have hlast : (ofSchema g (.household type) (.str "Pets") (.map (Schema.listOf "Pet"))).result
      = .ok (.inlined (.str "Pets")) := rfl
  refine ⟨home, ?_, hname, hclass, himports, ?_⟩
  · simp only [all, Logged.result_bind, Logged.result_lift, Logged.result_mapM, entries_household,
      Attempt.bind_eq_ok]
    refine ⟨_, rfl, ?_⟩
    rw [Attempt.mapM_eq_ok]
    exact .cons hfirst (.cons hp (.cons hlast .nil))
  · have hown : (Schema.componentReferences (.map (Schema.link "Pets"))).filter (· ≠ "Home")
        = ["Pets"] := by
      decide +kernel
    rw [hreferences, hown]
    exact Target.sortedSet_eq_self rfl (by decide)

end Component

end ApiScaffold
