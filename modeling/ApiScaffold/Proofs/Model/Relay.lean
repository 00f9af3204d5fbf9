import ApiScaffold.Proofs.Model.Composition
import ApiScaffold.Proofs.Schema.Inline
import ApiScaffold.Proofs.Schema.Shape

/-!
# Components that are only references

Where references are followed they are followed to the end of a chain of such components. But the
type of a reference is decided at its first target, and a model is built of the schema as it stands,
so that a component that is only a reference comes to a class of its own without properties.

* `Relays`: components that are only references lead in a number of steps to another component.
* `derefs` and `deref`: references are followed through a relay to its end.
* `ofSchema_referTo`: a schema that is only a reference makes a class without properties.
* `relay_agrees_iff`: when a reference to the first component of a relay has the type and the model
  of the last. Nicknames, which are names for names of texts, are the case where it has not.
-/

namespace ApiScaffold

variable {g : Generator} {spec : Spec} {first last name reference : String} {steps : Nat}
  {schema members target : Members}

/-- A model has these properties: names in the document, types and whether they are required, in
their order. -/
def Model.signature (m : Model) : List (String × String × Bool) :=
  m.properties.map fun p => (p.wireName, p.type, p.required)

namespace Spec

/-- Components that are only references lead in a number of steps, each to the component that the
next one names, to a component that is no reference. -/
inductive Relays (spec : Spec) : String → Nat → String → Members → Prop
  | last {name : String} {schema : Members} (h : spec.HasComponent name (.map schema))
      (hr : Members.get? schema "$ref" = none) : Relays spec name 0 name schema
  | step {name last reference : String} {steps : Nat} {schema : Members}
      (h : spec.HasComponent name (.map (Schema.referTo reference)))
      (hn : NamesComponent reference)
      (ht : Relays spec (Pointer.lastKey reference) steps last schema) :
      Relays spec name (steps + 1) last schema

/-- A reference that names a component points at its schema. -/
theorem HasComponent.resolve (h : spec.HasComponent (Pointer.lastKey reference) (.map schema))
    (hp : spec.IsProper) (hn : NamesComponent reference) : spec.resolve reference = .ok schema := by
  obtain ⟨body, hbody, hkeys⟩ := hn.keys
  rw [Spec.resolve, resolveIn, hbody]
  dsimp only
  rw [hkeys, (follow_component_iff hp).mpr h]

theorem HasComponent.resolve_pointerTo (h : spec.HasComponent name (.map schema))
    (hp : spec.IsProper) : spec.resolve (pointerTo name) = .ok schema :=
  HasComponent.resolve (by rwa [lastKey_pointerTo]) hp (namesComponent_pointerTo name)

namespace Relays

/-- A reference to the first component of a relay leads to the schema of the last. -/
theorem derefs (h : spec.Relays first steps last schema) (hp : spec.IsProper)
    (hn : NamesComponent reference) (hfirst : Pointer.lastKey reference = first) :
    spec.Derefs (Schema.referTo reference) schema := by
  induction h generalizing reference with
  | last h hr =>
      subst hfirst
      exact .step rfl (h.resolve hp hn) (.done hr)
  | step h hnext _ ih =>
      subst hfirst
      exact .step rfl (h.resolve hp hn) (ih hnext rfl)

theorem no_reference (h : spec.Relays first steps last schema) :
    Members.get? schema "$ref" = none := by
  induction h with
  | last _ hr => exact hr
  | step _ _ _ ih => exact ih

theorem hasComponent (h : spec.Relays first steps last schema) :
    spec.HasComponent last (.map schema) := by
  induction h with
  | last h _ => exact h
  | step _ _ _ ih => exact ih

/-- References are followed through a relay to its end. -/
theorem deref (h : spec.Relays first steps last schema) (hp : spec.IsProper) :
    spec.deref (Schema.referTo (pointerTo first)) = .ok schema :=
  deref_eq_ok.mpr (h.derefs hp (namesComponent_pointerTo first) (lastKey_pointerTo first))

end Relays

end Spec

/-! ## Types -/

namespace Schema

/-- The type of a reference is the class of its component, unless that is an alias. -/
theorem resolve_of_model (hr : spec.resolve reference = .ok schema)
    (ha : isAlias schema = .ok false) :
    resolve g (some spec) (.map (referTo reference))
      = .ok (g.target.modelType (Pointer.lastKey reference)) := by
  rw [resolve, typeWith_reference (show Members.get? (referTo reference) "$ref"
    = some (.str reference) from rfl)]
  exact typeOfReference_eq_ok.mpr ⟨schema, hr, .inl ⟨ha, rfl⟩⟩

theorem composition?_of_isAlias (ha : isAlias schema = .ok true) : composition? schema = none := by
  cases hc : composition? schema with
  | none => rfl
  | some entry =>
      obtain ⟨hk, hget⟩ := mem_of_composition? hc
      have hany : compositionKeywords.any (Members.has schema) = true :=
        List.any_eq_true.mpr ⟨_, hk, by simp [Members.has, hget]⟩
      unfold isAlias at ha
      rw [hany] at ha
      split at ha <;> cases ha

/-- A class is the type of an alias only as an entry of the target: a scalar, or any object. -/
theorem resolve_alias_eq_model (hr : spec.resolve reference = .ok schema)
    (ha : isAlias schema = .ok true) (hnone : Members.get? schema "$ref" = none) :
    resolve g (some spec) (.map (referTo reference)) = .ok (g.target.modelType name) ↔
      ∃ m, HasShape g spec (.map schema) (.mapped m) ∧ m.toType = g.target.modelType name := by
  have hcomposition := composition?_of_isAlias ha
  rw [resolve, typeWith_reference (show Members.get? (referTo reference) "$ref"
    = some (.str reference) from rfl), typeOfReference_eq_ok]
  constructor
  · rintro ⟨target, hs, ⟨hfalse, -⟩ | ⟨-, -, fewer, -, ht⟩⟩
    · rw [hr] at hs
      cases hs
      rw [ha] at hfalse
      cases hfalse
    · rw [hr] at hs
      cases hs
      obtain ⟨_, he, hreads⟩ := typeWith_eq_ok.mp ht
      cases he
      generalize hm : g.target.modelType name = t at hreads ⊢
      -- an alias has no composition, and a class is no container
      cases hreads with
      | reference h _ => rw [hnone] at h; cases h
      | member _ hc _ _ => rw [hcomposition] at hc; cases hc
      | list _ _ _ => cases congrArg TargetType.isContainer hm
      | values _ _ _ _ => cases congrArg TargetType.isContainer hm
      | anyValues _ _ _ => cases congrArg TargetType.isContainer hm
      | object h ho ha => exact ⟨_, .object h ho ha, rfl⟩
      | scalar h hl ho hentry => exact ⟨_, .scalar h hl ho hentry, rfl⟩
  · rintro ⟨m, hshape, hm⟩
    refine ⟨schema, hr, .inr ⟨ha, List.not_mem_nil, _, rfl, ?_⟩⟩
    rw [← hm]
    generalize hs : Shape.mapped m = shape at hshape
    unfold HasShape at hshape
    cases hshape with
    | component h _ _ => cases hs
    | through h _ _ _ _ => rw [hnone] at h; cases h
    | member _ hc _ _ => rw [hcomposition] at hc; cases hc
    | list _ _ _ => cases hs
    | values _ _ _ _ => cases hs
    | anyValues _ _ _ => cases hs
    | object h ho ha =>
        cases hs
        exact typeWith_eq_ok.mpr ⟨_, rfl, .object h ho ha⟩
    | scalar h hl ho hentry =>
        cases hs
        exact typeWith_eq_ok.mpr ⟨_, rfl, .scalar h hl ho hentry⟩

end Schema

/-! ## Models -/

namespace Model

/-- A schema that is only a reference makes a class without properties. -/
theorem ofSchema_referTo (g : Generator) (spec : Spec) (name reference : String) :
    ∃ m, ofSchema g spec (.str name) (.map (Schema.referTo reference)) = .ok m
      ∧ m.properties = [] := by
  have hflatten : flatten spec name (depthBound spec (Schema.referTo reference)) name [name]
      (Schema.referTo reference) {} = .ok {} := rfl
  apply Exists.intro
  constructor
  · show buildRecord g spec name (Schema.referTo reference) = _
    simp only [buildRecord, hflatten, buildProperties, Bind.bind, Except.bind, Pure.pure, Except.pure]
    rfl
  · rfl

end Model

/-- Where components that are only references lead to another, references are followed to that one.
But a reference to the first has the type of one to the last, if the last is an alias, exactly if
they are the same component, or the type is an entry of the target that is the class of the first;
and the model of the first has the properties of the model of the last exactly if they are the same
component, or there are none. -/
theorem relay_agrees_iff (g : Generator) (hp : spec.IsProper)
    (h : spec.Relays first steps last schema) :
    spec.deref (Schema.referTo (Spec.pointerTo first)) = .ok schema
      ∧ (Schema.isAlias schema = .ok true →
        (Schema.resolve g (some spec) (.map (Schema.referTo (Spec.pointerTo first)))
            = Schema.resolve g (some spec) (.map (Schema.referTo (Spec.pointerTo last)))
          ↔ steps = 0 ∨ ∃ m, Schema.HasShape g spec (.map schema) (.mapped m)
            ∧ m.toType = g.target.modelType first))
      ∧ ∀ v m, spec.HasComponent first v →
        Model.ofSchema g spec (.str last) (.map schema) = .ok m →
          ((∃ m', Model.ofSchema g spec (.str first) v = .ok m' ∧ m'.signature = m.signature)
            ↔ steps = 0 ∨ m.properties = []) := by
  refine ⟨h.deref hp, fun ha => ?_, fun v m hv hm => ?_⟩
  · cases h with
    | last _ _ => exact iff_of_true rfl (.inl rfl)
    | @step _ _ reference steps _ hfirst hn ht =>
        -- what is only a reference is no alias, so the type is its class
        have hclass := Schema.resolve_of_model (g := g) (hfirst.resolve_pointerTo hp) rfl
        rw [Spec.lastKey_pointerTo] at hclass
        rw [hclass, eq_comm, Schema.resolve_alias_eq_model (ht.hasComponent.resolve_pointerTo hp) ha
          ht.no_reference]
        simp
  · cases h with
    | last hlast _ =>
        obtain rfl := hlast.unique hp hv
        exact iff_of_true ⟨m, hm, rfl⟩ (.inl rfl)
    | @step _ _ reference steps _ hfirst hn ht =>
        obtain rfl := hfirst.unique hp hv
        obtain ⟨m', hm', hnone⟩ := Model.ofSchema_referTo g spec first reference
        have hempty : m'.signature = [] := by rw [Model.signature, hnone]; rfl
        simp only [hm', Except.ok.injEq, exists_eq_left', hempty, Nat.add_one_ne_zero, false_or]
        rw [Model.signature, eq_comm, List.map_eq_nil_iff]

/-! ## Nicknames and keepers -/

/-- The model of a schema with one property has one. -/
theorem Model.length_signature_single {m : Model} {property : String}
    (h : ofSchema g spec (.str name) (.map (Schema.single property schema)) = .ok m) :
    m.signature.length = 1 := by
  have hrecord : buildRecord g spec name (Schema.single property schema) = .ok m := h
  obtain ⟨gathered, built, hm⟩ := buildRecord_ok hrecord
  obtain rfl := Except.ok.inj (flatten_single.symm.trans hm.flattened)
  rw [hm.assembled]
  simpa [Model.signature] using hm.propertiesBuilt.length_eq.symm

/-- A text under three names, and an owner under two. -/
def Spec.nicknameSchemas : Members := [
  (.str "Keeper", .map (Schema.link "Owner")),
  (.str "Moniker", .map (Schema.link "Nickname")),
  (.str "Name", .map [(.str "type", .str "string")]),
  (.str "Nickname", .map (Schema.link "Name")),
  (.str "Owner", .map (Schema.single "name" (Schema.link "Moniker")))]

namespace Spec

theorem isProper_nicknameSchemas : (ofSchemas nicknameSchemas).IsProper := by
  show Value.isProper _ = true
  decide

theorem hasComponent_nicknameSchemas {name : String} {v : Value}
    (h : Pointer.follow (ofSchemas nicknameSchemas).document ["components", "schemas", name] = some v) :
    (ofSchemas nicknameSchemas).HasComponent name v :=
  (follow_component_iff isProper_nicknameSchemas).mp h

theorem relays_nickname :
    (ofSchemas nicknameSchemas).Relays "Nickname" 1 "Name" [(.str "type", .str "string")] :=
  have hnames : NamesComponent "#/components/schemas/Name" := ⟨"Name".toList, by decide, by decide⟩
  .step (hasComponent_nicknameSchemas rfl) hnames (.last (hasComponent_nicknameSchemas rfl) rfl)

theorem relays_moniker :
    (ofSchemas nicknameSchemas).Relays "Moniker" 2 "Name" [(.str "type", .str "string")] :=
  have hnames : NamesComponent "#/components/schemas/Nickname" :=
    ⟨"Nickname".toList, by decide, by decide⟩
  .step (hasComponent_nicknameSchemas rfl) hnames relays_nickname

theorem relays_keeper : (ofSchemas nicknameSchemas).Relays "Keeper" 1 "Owner"
    (Schema.single "name" (Schema.link "Moniker")) :=
  have hnames : NamesComponent "#/components/schemas/Owner" := ⟨"Owner".toList, by decide, by decide⟩
  .step (hasComponent_nicknameSchemas rfl) hnames (.last (hasComponent_nicknameSchemas rfl) rfl)

end Spec

/-- The type of texts in the Java targets. -/
def Schema.textType : TargetType := TypeMapping.toType { name := "String", default := "null" }

theorem Schema.typeWith_text (ht : g.target = .jaxrsSpec) (follow : String → Attempt TargetType) :
    typeWith g follow (.map [(.str "type", .str "string")]) = .ok textType := by
  rw [typeWith_scalar rfl rfl rfl (by decide) (by decide)]
  exact scalarType_eq_ok.mpr ⟨_, ⟨rfl, rfl, .inl (by rw [ht]; rfl)⟩, rfl⟩

/-- The class of a component is not the type of texts. -/
theorem Schema.not_hasShape_text (ht : g.target = .jaxrsSpec) :
    ¬∃ m, HasShape g spec (.map [(.str "type", .str "string")]) (.mapped m)
      ∧ m.toType = g.target.modelType name := by
  rintro ⟨m, hshape, hm⟩
  have htype : textType = m.toType :=
    Except.ok.inj ((typeWith_text ht _).symm.trans hshape.typeWith)
  cases congrArg TargetType.isPrimitive (htype.trans hm)

/-- A reference through two names to a text is followed to the text, and has the class of the first
name as its type. -/
theorem relay_agrees_iff_moniker :
    (Spec.ofSchemas Spec.nicknameSchemas).deref (Schema.link "Moniker")
        = .ok [(.str "type", .str "string")]
      ∧ Schema.resolve (.ofTarget .jaxrsSpec []) (some (.ofSchemas Spec.nicknameSchemas))
          (.map (Schema.link "Moniker"))
        ≠ Schema.resolve (.ofTarget .jaxrsSpec []) (some (.ofSchemas Spec.nicknameSchemas))
          (.map (Schema.link "Name")) := by
  obtain ⟨hderef, halias, -⟩ := relay_agrees_iff (.ofTarget .jaxrsSpec [])
    Spec.isProper_nicknameSchemas Spec.relays_moniker
  refine ⟨hderef, fun heq => ?_⟩
  rcases (halias rfl).mp heq with hsteps | hshape
  · cases hsteps
  · exact Schema.not_hasShape_text rfl hshape

/-- In an accepted document, a reference to a name for a name of texts has the class of the name as
its type, where a reference to the name has texts; and the model of a keeper, which is only a
reference to an owner, has no properties, where the model of the owner has one. -/
theorem relay_differs_nickname : ∃ settings owner keeper,
    Settings.ofOptions .jaxrsSpec (Generator.ofTarget .jaxrsSpec []).runOptions = .ok settings
      ∧ Spec.ofValue (Spec.ofSchemas Spec.nicknameSchemas).document "<memory>"
        = .ok (.ofSchemas Spec.nicknameSchemas)
      ∧ (Spec.ofSchemas Spec.nicknameSchemas).Relays "Nickname" 1 "Name"
        [(.str "type", .str "string")]
      ∧ Schema.isAlias [(.str "type", .str "string")] = .ok true
      ∧ Schema.resolve ((Generator.ofTarget .jaxrsSpec []).building settings)
          (some (.ofSchemas Spec.nicknameSchemas)) (.map (Schema.link "Name")) = .ok Schema.textType
      ∧ Schema.resolve ((Generator.ofTarget .jaxrsSpec []).building settings)
          (some (.ofSchemas Spec.nicknameSchemas)) (.map (Schema.link "Nickname"))
        = .ok (Target.jaxrsSpec.modelType "Nickname")
      ∧ Target.jaxrsSpec.modelType "Nickname" ≠ Schema.textType
      ∧ (Spec.ofSchemas Spec.nicknameSchemas).Relays "Keeper" 1 "Owner"
        (Schema.single "name" (Schema.link "Moniker"))
      ∧ Model.ofSchema ((Generator.ofTarget .jaxrsSpec []).building settings)
          (.ofSchemas Spec.nicknameSchemas) (.str "Owner")
          (.map (Schema.single "name" (Schema.link "Moniker"))) = .ok owner
      ∧ Model.ofSchema ((Generator.ofTarget .jaxrsSpec []).building settings)
          (.ofSchemas Spec.nicknameSchemas) (.str "Keeper") (.map (Schema.link "Owner")) = .ok keeper
      ∧ owner.signature.length = 1 ∧ keeper.signature = [] := by
  obtain ⟨settings, hs, -⟩ := Generator.exists_settings (t := .jaxrsSpec) (by simp)
  have hname : Schema.resolve ((Generator.ofTarget .jaxrsSpec []).building settings)
      (some (.ofSchemas Spec.nicknameSchemas)) (.map (Schema.link "Name")) = .ok Schema.textType := by
    show Schema.typeWith _ _ _ = _
    rw [Schema.typeWith_reference rfl]
    exact Schema.typeOfReference_eq_ok.mpr ⟨_, rfl, .inr ⟨rfl, List.not_mem_nil, _, rfl,
      Schema.typeWith_text rfl _⟩⟩
  have hnicknames : (Spec.ofSchemas Spec.nicknameSchemas).HasComponent "Nickname"
      (.map (Schema.link "Name")) := Spec.hasComponent_nicknameSchemas rfl
  have hmonikers : (Spec.ofSchemas Spec.nicknameSchemas).HasComponent "Moniker"
      (.map (Schema.link "Nickname")) := Spec.hasComponent_nicknameSchemas rfl
  have hnickname := Schema.resolve_of_model
    (g := (Generator.ofTarget .jaxrsSpec []).building settings)
    (hnicknames.resolve_pointerTo Spec.isProper_nicknameSchemas) rfl
  have hmoniker := Schema.resolve_of_model
    (g := (Generator.ofTarget .jaxrsSpec []).building settings)
    (hmonikers.resolve_pointerTo Spec.isProper_nicknameSchemas) rfl
  obtain ⟨owner, howner, -⟩ := @Model.ofSchema_single _ _ "Owner" "name" _ _ _ hmoniker
    (Spec.relays_moniker.deref Spec.isProper_nicknameSchemas) rfl rfl
  obtain ⟨keeper, hkeeper, hempty⟩ := Model.ofSchema_referTo
    ((Generator.ofTarget .jaxrsSpec []).building settings) (.ofSchemas Spec.nicknameSchemas) "Keeper"
    "#/components/schemas/Owner"
  refine ⟨settings, owner, keeper, hs, Spec.ofValue_document (by decide +kernel), Spec.relays_nickname,
    rfl, hname, hnickname, fun heq => ?_, Spec.relays_keeper, howner, hkeeper, ?_, ?_⟩
  · cases congrArg TargetType.isPrimitive heq
  · exact Model.length_signature_single howner
  · rw [Model.signature, hempty]
    rfl

end ApiScaffold
