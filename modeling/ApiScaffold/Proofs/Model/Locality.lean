import ApiScaffold.Proofs.Model.Alike

/-!
# What the model of a component depends on

A model is built from the schema of the component and from the schemas of the components to which
mentions lead from there (`Closure`). Whatever else documents hold, if they have the same schemas
for these (`SharesComponent`), they come to one model, or to one failure.

`HasComponent.citesOnly` shows that a schema to which mentions lead has references into the closure
only, and a reference to a component points at the same in both documents. With that
`ofSchema_local` follows from what is known of documents that read alike. The case at the end is a
home, whose model is the same with a stray around that it does not mention.
-/

namespace ApiScaffold

theorem Schema.componentReferences_of_nests {v w : Value} (h : v.Nests w) :
    componentReferences w ⊆ componentReferences v := by
  induction h with
  | refl => exact List.Subset.refl _
  | value hm _ ih => exact List.Subset.trans ih (componentReferences_of_mem hm)
  | item hm _ ih => exact List.Subset.trans ih (componentReferences_of_item hm)

namespace Spec

variable {a b spec : Spec} {name : String} {v : Value}

/-- What a proper document has at the place of a component is the schema of the component. -/
theorem follow_component_iff (h : spec.IsProper) :
    Pointer.follow spec.document ["components", "schemas", name] = some v
      ↔ spec.HasComponent name v := by
  constructor
  · intro hf
    obtain ⟨schemas, hs, hget⟩ := schemas_of_follow hf
    exact ⟨schemas, hs, Members.mem_of_get? hget⟩
  · rintro ⟨schemas, hs, hm⟩
    obtain ⟨parts, hp, hget⟩ := get?_of_schemas hs (List.ne_nil_of_mem hm)
    simp only [Pointer.follow, document, Value.get?, hp, hget,
      (Value.get?_eq_some_iff (h.schemas hs)).mpr hm]

/-- Two documents have the same schema for a component, or both have none. -/
def SharesComponent (a b : Spec) (name : String) : Prop :=
  ∀ v, a.HasComponent name v ↔ b.HasComponent name v

/-- A reference to a component points at the same in documents that have the same schema for it. -/
theorem SharesComponent.resolve {reference : String}
    (h : a.SharesComponent b (Pointer.lastKey reference)) (ha : a.IsProper) (hb : b.IsProper)
    (hn : NamesComponent reference) :
    a.resolve reference = b.resolve reference := by
  obtain ⟨body, hbody, hkeys⟩ := hn.keys
  refine resolve_congr hbody ?_
  rw [hkeys]
  exact Option.ext fun v => by
    rw [follow_component_iff ha, follow_component_iff hb, h v]

/-- A reference to a component to which mentions lead from another. -/
def Closure (spec : Spec) (name reference : String) : Prop :=
  NamesComponent reference ∧ Relation.ReflTransGen spec.Mentions name (Pointer.lastKey reference)

/-- The schema of a component to which mentions lead has only references to such, if all its
references are to components. -/
theorem HasComponent.citesOnly {other : String} (h : spec.HasComponent other v)
    (hp : spec.IsProper) (hr : Relation.ReflTransGen spec.Mentions name other)
    (hc : v.CitesOnly NamesComponent) : v.CitesOnly (spec.Closure name) := by
  intro reference hcites
  have hn := hc reference hcites
  obtain ⟨members, hm, href⟩ := hcites.nests (h.within hp).proper
  exact ⟨hn, hr.tail ⟨v, h, Schema.componentReferences_of_nests hm
    (Schema.mem_componentReferences href hn)⟩⟩

end Spec

namespace Model

variable {a b : Spec} {name : String} {schema other : Value}

/-- Two documents that have the same schemas for a component and for all components to which
mentions lead from it, all by references to components, come to one model for it, or to one failure.
-/
theorem ofSchema_local (g : Generator) (ha : a.IsProper) (hb : b.IsProper)
    (hs : a.HasComponent name schema) (ho : b.HasComponent name other)
    (hrefs : ∀ reached v, Relation.ReflTransGen a.Mentions name reached →
      a.HasComponent reached v → v.CitesOnly Spec.NamesComponent)
    (hsame : ∀ reached, Relation.ReflTransGen a.Mentions name reached →
      a.SharesComponent b reached) :
    ofSchema g a (.str name) schema = ofSchema g b (.str name) other := by
  have hshared : b.HasComponent name schema := (hsame name .refl schema).mp hs
  rw [ho.unique hb hshared]
  -- a reference of the closure has one target in both, all of whose references are of the closure
  have hmirrors : a.Mirrors (a.Closure name) b := by
    refine ⟨fun reference hr => ?_⟩
    rw [← (hsame _ hr.2).resolve ha hb hr.1]
    cases htarget : a.resolve reference with
    | error failure => exact .error failure
    | ok target =>
        obtain ⟨schemas, hschemas, hget⟩ := hr.1.resolve htarget
        have hcomponent : a.HasComponent (Pointer.lastKey reference) (.map target) :=
          ⟨schemas, hschemas, Members.mem_of_get? hget⟩
        exact .ok (.refl (hcomponent.citesOnly ha hr.2 (hrefs _ _ hr.2 hcomponent)))
  have hcites := hs.citesOnly ha .refl (hrefs name schema .refl hs)
  -- the documents may allow different depths, but each allows enough
  exact ofSchema_same hmirrors (.str name) hcites
    (gathersSame_of_proper hmirrors ha hb hcites (hs.within ha).proper)

end Model

/-! ## A home and a stray -/

/-- The components of a home with a pet. -/
def Spec.homeSchemas : Members := [
  (.str "Home", .map (Schema.single "pet" (Schema.link "Pet"))),
  (.str "Pet", .map (Schema.single "photo" [(.str "type", .str "string")]))]

/-- A component that the home does not mention, and that mentions the home. -/
def Spec.straySchemas : Members :=
  (.str "Stray", .map (Schema.single "first" (Schema.link "Home"))) :: homeSchemas

namespace Spec

theorem isProper_homeSchemas : (ofSchemas homeSchemas).IsProper := by
  show Value.isProper _ = true
  decide

theorem isProper_straySchemas : (ofSchemas straySchemas).IsProper := by
  show Value.isProper _ = true
  decide

/-- Mentions lead from a home to itself and to the pet. -/
theorem reached_homeSchemas {reached : String}
    (h : Relation.ReflTransGen (ofSchemas homeSchemas).Mentions "Home" reached) :
    reached = "Home" ∨ reached = "Pet" := by
  rcases h.cases_tail with rfl | ⟨between, -, v, ⟨schemas, hs, hm⟩, hreferences⟩
  · exact .inl rfl
  · cases hs
    simp only [homeSchemas, List.mem_cons, Prod.mk.injEq, List.not_mem_nil, or_false] at hm
    rcases hm with ⟨-, rfl⟩ | ⟨-, rfl⟩
    · have hpet : Schema.componentReferences (.map (Schema.single "pet" (Schema.link "Pet")))
          = ["Pet"] := by decide +kernel
      rw [hpet] at hreferences
      exact .inr (List.mem_singleton.mp hreferences)
    · have hnone : Schema.componentReferences
          (.map (Schema.single "photo" [(.str "type", .str "string")])) = [] := by decide +kernel
      rw [hnone] at hreferences
      cases hreferences

end Spec

namespace Model

/-- The model of a home is the same with a stray around. -/
theorem ofSchema_local_home :
    ¬(Spec.ofSchemas Spec.homeSchemas).SharesComponent (.ofSchemas Spec.straySchemas) "Stray"
    ∧ ofSchema (.ofTarget .python []) (.ofSchemas Spec.homeSchemas) (.str "Home")
        (.map (Schema.single "pet" (Schema.link "Pet")))
      = ofSchema (.ofTarget .python []) (.ofSchemas Spec.straySchemas) (.str "Home")
        (.map (Schema.single "pet" (Schema.link "Pet"))) := by
  have hshares : ∀ name, Pointer.follow (Spec.ofSchemas Spec.homeSchemas).document
        ["components", "schemas", name]
      = Pointer.follow (Spec.ofSchemas Spec.straySchemas).document ["components", "schemas", name] →
      (Spec.ofSchemas Spec.homeSchemas).SharesComponent (.ofSchemas Spec.straySchemas) name := by
    intro name h v
    rw [← Spec.follow_component_iff Spec.isProper_homeSchemas,
      ← Spec.follow_component_iff Spec.isProper_straySchemas, h]
  refine ⟨fun h => ?_, ofSchema_local _ Spec.isProper_homeSchemas Spec.isProper_straySchemas
    ⟨Spec.homeSchemas, rfl, by simp [Spec.homeSchemas]⟩
    ⟨Spec.straySchemas, rfl, by simp [Spec.straySchemas, Spec.homeSchemas]⟩ ?_ ?_⟩
  · have hstray := (h _).mpr ⟨Spec.straySchemas, rfl, List.mem_cons_self⟩
    rw [← Spec.follow_component_iff Spec.isProper_homeSchemas] at hstray
    cases hstray
  · rintro reached v - hv
    have hproper := (hv.within Spec.isProper_homeSchemas).proper
    obtain ⟨schemas, hs, hm⟩ := hv
    cases hs
    refine Value.citesOnly_of_eachRef (Q := fun v => v.asStr? = some "#/components/schemas/Pet") ?_
      hproper ?_
    · have hall : (Value.map Spec.homeSchemas).EachRef
          fun v => v.asStr? = some "#/components/schemas/Pet" := by decide
      exact (Value.eachRef_map.mp hall).2 _ hm
    · rintro reference hr
      cases Option.some.inj hr
      exact ⟨"Pet".toList, by decide, by decide⟩
  · intro reached hreached
    rcases Spec.reached_homeSchemas hreached with rfl | rfl
    · exact hshares _ rfl
    · exact hshares _ rfl

end Model

end ApiScaffold
