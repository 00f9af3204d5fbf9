import ApiScaffold.Proofs.Operation.Build
import ApiScaffold.Proofs.Run.Stages
import ApiScaffold.Proofs.Schema.Inline
import ApiScaffold.Proofs.Schema.Reading

/-!
# References to aliases and aliases written out

Properties and parameters whose schemas are references to aliases, and those for which the alias is
written out. Both have one type and all that follows from it. What the alias says of a value itself,
its default, its flags and its own description, is read only where it is written out.

* `AddsNothing`: an alias says nothing that counts of a value of its type.
* `buildProperty_of_referTo` and `buildParameter_of_referTo`: what is built from the one, where the
  other is.
* `inline_agrees_iff`: over all aliases, properties and parameters, when both are the same.
* `inline_differs_count`: a count whose alias has a default is the case where they are not.
-/

namespace ApiScaffold

open Attempt

variable {g : Generator} {spec : Spec} {reference : String} {schema target : Members}
  {type : TargetType}

namespace Schema

/-- An alias says nothing that counts of a value of its type: no default that the type has a literal
for, no flag, and no description but that of the mapping that it leads to. -/
structure AddsNothing (t : Target) (schema target : Members) (type : TargetType) : Prop where
  default : t.defaultLiteral? schema type = some type.default
  nullable : (Members.getD schema "nullable" (.bool false)).isTruthy = false
  readOnly : (Members.getD schema "readOnly" (.bool false)).isTruthy = false
  description : (Members.getD schema "description" (.str "")).orElse
      ((Members.getD target "description" (.str "")).orElse (.str ""))
    = (Members.getD target "description" (.str "")).orElse (.str "")

/-- An alias that is no reference has no allowed values. -/
theorem nonEmpty?_enum_of_isAlias (ha : isAlias schema = .ok true)
    (hd : spec.deref schema = .ok target) :
    ((Model.nonEmpty? target "enum").isSome && !Members.has schema "$ref") = false := by
  unfold Spec.deref at hd
  split at hd
  next href => rw [href, Bool.not_true, Bool.and_false]
  next =>
    cases hd
    have henum : Members.get? schema "enum" = none := by
      unfold isAlias at ha
      split at ha
      · cases ha
      next hno =>
        rw [Bool.or_eq_true, not_or] at hno
        simpa [Members.has] using hno.2
    rw [Model.nonEmpty?, henum]
    rfl

end Schema

namespace Model

theorem elementsUnder_error {members : Members} {key : String} {failure : Failure}
    (h : elementsUnder members key = .error failure) : failure = .unsuitable := by
  unfold elementsUnder at h
  split at h
  next => cases h
  next v _ =>
    unfold Value.elements require at h
    split at h <;> cases h
    rfl

variable {model origin : String} {required : List Value} {name : Value}

section

variable (hr : spec.resolve reference = .ok schema) (ha : Schema.isAlias schema = .ok true)
  (hc : ¬Relation.TransGen spec.Leads reference reference)
include hr ha hc

/-- Where a reference to an alias has a property, the alias in its place has one if its default can
be written; it differs by what the alias says itself. -/
theorem buildProperty_of_referTo {p : Property} {imports : List String}
    (h : buildProperty g spec model required
      { origin, name, schema := .map (Schema.referTo reference) } = .ok (p, imports)) :
    ∃ type target, Schema.resolve g (some spec) (.map schema) = .ok type
      ∧ spec.deref schema = .ok target
      ∧ p.default = type.default ∧ p.nullable = false ∧ p.readOnly = false
      ∧ p.description = (Members.getD target "description" (.str "")).orElse (.str "")
      ∧ buildProperty g spec model required { origin, name, schema := .map schema }
        = (require (g.target.defaultLiteral? schema type)).map fun default => ({ p with
            default
            nullable := (Members.getD schema "nullable" (.bool false)).isTruthy
            readOnly := (Members.getD schema "readOnly" (.bool false)).isTruthy
            description := (Members.getD schema "description" (.str "")).orElse p.description },
            imports) := by
  obtain ⟨type, htype, h⟩ := bind_eq_ok.mp h
  obtain ⟨members, hmembers, h⟩ := bind_eq_ok.mp h
  obtain ⟨target, hd, h⟩ := bind_eq_ok.mp h
  obtain ⟨wireName, hname, h⟩ := bind_eq_ok.mp h
  obtain ⟨default, hdefault, h⟩ := bind_eq_ok.mp h
  obtain ⟨values, hvalues, h⟩ := bind_eq_ok.mp h
  cases hmembers
  cases hdefault
  rw [Schema.resolve_referTo hr ha hc] at htype
  rw [Spec.deref_referTo hr hc] at hd
  have henum := Schema.nonEmpty?_enum_of_isAlias ha hd
  have henum' : ((nonEmpty? target "enum").isSome
      && !Members.has (Schema.referTo reference) "$ref") = false := Bool.and_false _
  cases h
  refine ⟨type, target, Schema.reframe_ok htype, hd, rfl, rfl, rfl, rfl, ?_⟩
  simp only [buildProperty, htype, Value.entries, hd, hname, hvalues, henum, henum', Bind.bind,
    Except.bind, Pure.pure, Except.pure]
  cases g.target.defaultLiteral? schema type <;> rfl

/-- Where a reference to an alias has no property, the alias in its place fails alike. -/
theorem buildProperty_error_of_referTo {failure : Failure}
    (h : buildProperty g spec model required
      { origin, name, schema := .map (Schema.referTo reference) } = .error failure) :
    buildProperty g spec model required { origin, name, schema := .map schema }
      = .error failure := by
  unfold buildProperty at h ⊢
  dsimp only at h ⊢
  rw [Schema.resolve_referTo hr ha hc] at h
  cases htype : Schema.reframe (.str model) (.propertyType name)
      (Schema.resolve g (some spec) (.map schema)) with
  | error f =>
      rw [htype] at h
      exact h
  | ok type =>
      simp only [htype, Value.entries, Bind.bind, Except.bind, Spec.deref_referTo hr hc] at h ⊢
      cases hd : spec.deref schema with
      | error f =>
          rw [hd] at h
          exact h
      | ok target =>
          simp only [hd] at h ⊢
          cases hname : name.asStr? with
          | none =>
              rw [hname] at h
              exact h
          | some wireName =>
              have hdefault : g.target.defaultLiteral? (Schema.referTo reference) type
                  = some type.default := rfl
              simp only [hname, require, hdefault] at h ⊢
              -- what is left to fail are the allowed values, as a default does that cannot be written
              cases hvalues : elementsUnder target "enum" with
              | ok values =>
                  rw [hvalues] at h
                  cases h
              | error f =>
                  obtain rfl := elementsUnder_error hvalues
                  rw [hvalues] at h
                  cases h
                  cases g.target.defaultLiteral? schema type <;> rfl

end

end Model

namespace Operation

/-- Parameters that are written in the same way, but for their schemas. -/
def RawParameter.DifferInSchema (a b : RawParameter) : Prop :=
  ∀ key ∈ ["name", "in", "required", "description"],
    Members.get? a.members key = Members.get? b.members key

theorem RawParameter.DifferInSchema.getD {a b : RawParameter} (h : a.DifferInSchema b)
    (key : String) (default : Value)
    (hk : key ∈ ["name", "in", "required", "description"] := by decide) :
    Members.getD a.members key default = Members.getD b.members key default := by
  rw [Members.getD, Members.getD, h key hk]

section

variable (hr : spec.resolve reference = .ok schema) (ha : Schema.isAlias schema = .ok true)
  (hc : ¬Relation.TransGen spec.Leads reference reference) (id : Value) (subject : String)
  {a b : RawParameter} (hab : a.DifferInSchema b)
  (has : parameterSchema a.members = .ok (.map (Schema.referTo reference)))
  (hbs : parameterSchema b.members = .ok (.map schema))
include hr ha hc hab has hbs

/-- The parameter of an alias is that of a reference to it with the default that the alias says, if
that can be written, and there is one if there is the other. -/
theorem buildParameter_of_referTo :
    (∀ failure, buildParameter g spec id subject a = .error failure →
        buildParameter g spec id subject b = .error failure)
      ∧ ∀ p, buildParameter g spec id subject a = .ok p →
        ∃ type, Schema.resolve g (some spec) (.map schema) = .ok type ∧ p.default = type.default
          ∧ buildParameter g spec id subject b
            = (require (g.target.defaultLiteral? schema type)).map fun default =>
              { p with default } := by
  simp only [buildParameter, has, hbs, hab.getD "name", hab.getD "in", hab.getD "required",
    hab.getD "description"]
  cases locationOf subject (Members.getD b.members "name" .null)
      (Members.getD b.members "in" .null) with
  | error f => exact ⟨fun _ h => h, fun _ h => by cases h⟩
  | ok location =>
      simp only [Bind.bind, Except.bind, Value.entries, Schema.resolve_referTo hr ha hc]
      cases htype : Schema.reframe id (.parameterType (Members.getD b.members "name" .null))
          (Schema.resolve g (some spec) (.map schema)) with
      | error f => exact ⟨fun _ h => h, fun _ h => by cases h⟩
      | ok type =>
          have hdefault : g.target.defaultLiteral? (Schema.referTo reference) type
              = some type.default := rfl
          cases Value.asStr? (Members.getD b.members "name" .null) with
          | none => exact ⟨fun _ h => h, fun _ h => by cases h⟩
          | some wireName =>
              simp only [require, hdefault]
              refine ⟨(fun _ h => by cases h), fun p h => ?_⟩
              cases h
              refine ⟨type, Schema.reframe_ok htype, rfl, ?_⟩
              cases g.target.defaultLiteral? schema type <;> rfl

end

end Operation

theorem map_require_eq_ok {α β : Type} {o : Option α} {f : α → β} {b : β} :
    (require o).map f = .ok b ↔ ∃ a, o = some a ∧ f a = b := by
  cases o <;> simp [require, Except.map]

/-- A reference to an alias that does not lead to itself fails in a property or a parameter as the
alias does in its place. Where it has a property or a parameter, the alias has the same one exactly
if it says nothing of a value itself, for a parameter no default; whatever it says, all other fields
are the same. -/
theorem inline_agrees_iff (hr : spec.resolve reference = .ok schema)
    (ha : Schema.isAlias schema = .ok true)
    (hc : ¬Relation.TransGen spec.Leads reference reference) :
    (∀ (model origin : String) (required : List Value) (name : Value),
      let built := fun s : Members =>
        Model.buildProperty g spec model required { origin, name, schema := .map s }
      (∀ failure, built (Schema.referTo reference) = .error failure →
          built schema = .error failure)
        ∧ ∀ p imports, built (Schema.referTo reference) = .ok (p, imports) →
          ∃ type target, Schema.resolve g (some spec) (.map schema) = .ok type
            ∧ spec.deref schema = .ok target
            ∧ (built schema = .ok (p, imports)
              ↔ Schema.AddsNothing g.target schema target type)
            ∧ ∀ q others, built schema = .ok (q, others) → others = imports
              ∧ q = { p with default := q.default, nullable := q.nullable,
                             readOnly := q.readOnly, description := q.description })
      ∧ ∀ (id : Value) (subject : String) (a b : Operation.RawParameter), a.DifferInSchema b →
        Operation.parameterSchema a.members = .ok (.map (Schema.referTo reference)) →
        Operation.parameterSchema b.members = .ok (.map schema) →
        (∀ failure, Operation.buildParameter g spec id subject a = .error failure →
            Operation.buildParameter g spec id subject b = .error failure)
          ∧ ∀ p, Operation.buildParameter g spec id subject a = .ok p →
            ∃ type, Schema.resolve g (some spec) (.map schema) = .ok type
              ∧ (Operation.buildParameter g spec id subject b = .ok p
                ↔ g.target.defaultLiteral? schema type = some type.default)
              ∧ ∀ q, Operation.buildParameter g spec id subject b = .ok q →
                q = { p with default := q.default } := by
  refine ⟨fun model origin required name => ⟨?_, ?_⟩, fun id subject a b hab has hbs => ?_⟩
  · exact fun failure h => Model.buildProperty_error_of_referTo hr ha hc h
  · intro p imports h
    obtain ⟨type, target, htype, hd, hdefault, hnullable, hreadOnly, hdescription, hplace⟩ :=
      Model.buildProperty_of_referTo hr ha hc h
    refine ⟨type, target, htype, hd, ?_, fun q others hq => ?_⟩
    · dsimp only
      rw [hplace, map_require_eq_ok]
      obtain ⟨⟩ := p
      dsimp only at hdefault hnullable hreadOnly hdescription ⊢
      subst hdefault hnullable hreadOnly hdescription
      simp only [Prod.mk.injEq, Property.mk.injEq, and_true, true_and]
      constructor
      · rintro ⟨default, hliteral, rfl, hdescription, hnullable, hreadOnly⟩
        exact ⟨hliteral, hnullable, hreadOnly, hdescription⟩
      · rintro ⟨hliteral, hnullable, hreadOnly, hdescription⟩
        exact ⟨_, hliteral, rfl, hdescription, hnullable, hreadOnly⟩
    · dsimp only at hq
      rw [hplace, map_require_eq_ok] at hq
      obtain ⟨default, -, heq⟩ := hq
      cases heq
      exact ⟨rfl, rfl⟩
  · obtain ⟨herror, hok⟩ := Operation.buildParameter_of_referTo (g := g) hr ha hc id subject
      hab has hbs
    refine ⟨herror, fun p h => ?_⟩
    obtain ⟨type, htype, hdefault, hplace⟩ := hok p h
    refine ⟨type, htype, ?_, fun q hq => ?_⟩
    · rw [hplace, map_require_eq_ok]
      obtain ⟨⟩ := p
      dsimp only at hdefault ⊢
      subst hdefault
      simp only [Parameter.mk.injEq, and_true, true_and]
      exact ⟨fun ⟨default, hliteral, he⟩ => he ▸ hliteral, fun hliteral => ⟨_, hliteral, rfl⟩⟩
    · rw [hplace, map_require_eq_ok] at hq
      obtain ⟨default, -, rfl⟩ := hq
      rfl

/-! ## Orders and counts -/

/-- A count, which is one if it is not said. -/
def Schema.count : Members := [(.str "type", .str "integer"), (.str "default", .int 1)]

/-- Counts, lists of counts, and orders with a count. -/
def Spec.orderSchemas : Members := [
  (.str "Count", .map Schema.count),
  (.str "Counts", .map (Schema.listOf "Count")),
  (.str "Order", .map (Schema.single "quantity" (Schema.link "Count")))]

namespace Schema

/-- A number that may have a default leads to no other schema. -/
theorem not_refers_count :
    ¬Refers (.map count) reference := by
  intro h
  cases h with
  | direct href => cases href
  | member hc _ _ => cases hc
  | items hi _ => cases hi
  | values ha _ => cases ha

theorem leads_order :
    (∀ next, ¬(Spec.ofSchemas Spec.orderSchemas).Leads "#/components/schemas/Count" next)
      ∧ ∀ next, (Spec.ofSchemas Spec.orderSchemas).Leads "#/components/schemas/Counts" next →
        next = "#/components/schemas/Count" := by
  constructor
  · rintro next ⟨schema, hs, ⟨-, h⟩ | h⟩
    · cases hs
      exact not_refers_count h
    · cases hs
      cases h
  · rintro next ⟨schema, hs, ⟨-, h⟩ | h⟩
    · cases hs
      cases h with
      | direct href => cases href
      | member hc _ _ => cases hc
      | items hi h =>
          cases hi
          cases h with
          | direct href =>
              cases href
              rfl
          | member hc _ _ => cases hc
          | items hi _ => cases hi
          | values ha _ => cases ha
      | values ha _ => cases ha
    · cases hs
      cases h

/-- The type of a whole number in the Java targets. -/
def integerType : TargetType := TypeMapping.toType { name := "Integer", default := "null" }

theorem defaultLiteral?_count :
    Target.jaxrsSpec.defaultLiteral? count integerType = some "1" := by
  have hwritable : Value.isWritable (.int 1) = true := Value.isWritable_of_lt_ten (by decide)
  have hdefault : Members.get? count "default" = some (.int 1) := rfl
  simp only [Target.defaultLiteral?, hdefault, Target.literal?, hwritable]
  rfl

theorem resolve_count {spec? : Option Spec} (ht : g.target = .jaxrsSpec) :
    resolve g spec? (.map count) = .ok integerType := by
  have hscalar : scalarType g (.str "integer") .null = .ok integerType :=
    scalarType_eq_ok.mpr ⟨_, ⟨rfl, rfl, .inl (by rw [ht]; rfl)⟩, rfl⟩
  cases spec? with
  | none => rw [resolve, typeWith_scalar rfl rfl rfl (by decide) (by decide)]; exact hscalar
  | some spec => rw [resolve, typeWith_scalar rfl rfl rfl (by decide) (by decide)]; exact hscalar

theorem acyclic_order :
    ¬Relation.TransGen (Spec.ofSchemas Spec.orderSchemas).Leads "#/components/schemas/Count"
        "#/components/schemas/Count"
      ∧ ¬Relation.TransGen (Spec.ofSchemas Spec.orderSchemas).Leads "#/components/schemas/Counts"
        "#/components/schemas/Counts" := by
  obtain ⟨hcount, hcounts⟩ := leads_order
  constructor
  · intro h
    obtain ⟨next, hl, -⟩ := Relation.TransGen.head'_iff.mp h
    exact hcount next hl
  · intro h
    obtain ⟨next, hl, hrest⟩ := Relation.TransGen.head'_iff.mp h
    obtain rfl := hcounts next hl
    rcases Relation.ReflTransGen.cases_head hrest with heq | ⟨next, hl, -⟩
    · exact absurd heq (by decide)
    · exact hcount next hl

theorem resolve_counts (ht : g.target = .jaxrsSpec) :
    resolve g (some (.ofSchemas Spec.orderSchemas)) (.map (listOf "Count"))
      = .ok (g.target.listType integerType) := by
  have hlink : resolve g (some (.ofSchemas Spec.orderSchemas)) (.map (link "Count"))
      = .ok integerType := by
    have hr : (Spec.ofSchemas Spec.orderSchemas).resolve "#/components/schemas/Count"
        = .ok count := rfl
    exact (resolve_referTo hr rfl acyclic_order.1).trans (resolve_count ht)
  have hitems : Members.get? (listOf "Count") "items" = some (.map (link "Count")) := rfl
  rw [resolve] at hlink
  rw [resolve, typeWith_list rfl rfl rfl hitems, hlink]
  rfl

end Schema

/-- A property whose schema is a reference to lists of counts is the one whose schema says so. -/
theorem inline_agrees_iff_counts : ∃ settings p imports,
    Settings.ofOptions .jaxrsSpec (Generator.ofTarget .jaxrsSpec []).runOptions = .ok settings
      ∧ Model.buildProperty ((Generator.ofTarget .jaxrsSpec []).building settings)
          (.ofSchemas Spec.orderSchemas) "Cart" []
          ⟨"Cart", .str "counts", .map (Schema.referTo "#/components/schemas/Counts")⟩
        = .ok (p, imports)
      ∧ Model.buildProperty ((Generator.ofTarget .jaxrsSpec []).building settings)
          (.ofSchemas Spec.orderSchemas) "Cart" []
          ⟨"Cart", .str "counts", .map (Schema.listOf "Count")⟩ = .ok (p, imports) := by
  obtain ⟨settings, hs, -⟩ := Generator.exists_settings (t := .jaxrsSpec) (by simp)
  have htype := Schema.resolve_counts
    (g := (Generator.ofTarget .jaxrsSpec []).building settings) rfl
  have hr : (Spec.ofSchemas Spec.orderSchemas).resolve "#/components/schemas/Counts"
      = .ok (Schema.listOf "Count") := rfl
  have hc := Schema.acyclic_order.2
  obtain ⟨p, hp⟩ := @Model.buildProperty_plain _ _ "Cart" "Cart" "counts" [] _ _ _
    ((Schema.resolve_referTo hr rfl hc).trans htype) (Spec.deref_referTo hr hc) rfl rfl
  obtain ⟨type, target, ht, hd, hiff, -⟩ :=
    ((inline_agrees_iff hr rfl hc).1 "Cart" "Cart" [] (.str "counts")).2 p _ hp
  refine ⟨settings, p, _, hs, hp, hiff.mpr ?_⟩
  cases hd
  exact ⟨rfl, rfl, rfl, rfl⟩

/-- A property whose schema is a reference to counts has no default, and the one whose schema says
so has the default of counts. -/
theorem inline_differs_count : ∃ settings p q,
    Settings.ofOptions .jaxrsSpec (Generator.ofTarget .jaxrsSpec []).runOptions = .ok settings
      ∧ Spec.ofValue (Spec.ofSchemas Spec.orderSchemas).document "<memory>"
        = .ok (.ofSchemas Spec.orderSchemas)
      ∧ (Spec.ofSchemas Spec.orderSchemas).resolve "#/components/schemas/Count"
        = .ok Schema.count
      ∧ Schema.isAlias Schema.count = .ok true
      ∧ ¬Relation.TransGen (Spec.ofSchemas Spec.orderSchemas).Leads "#/components/schemas/Count"
          "#/components/schemas/Count"
      ∧ Model.buildProperty ((Generator.ofTarget .jaxrsSpec []).building settings)
          (.ofSchemas Spec.orderSchemas) "Order" []
          ⟨"Order", .str "quantity", .map (Schema.referTo "#/components/schemas/Count")⟩
        = .ok (p, [])
      ∧ Model.buildProperty ((Generator.ofTarget .jaxrsSpec []).building settings)
          (.ofSchemas Spec.orderSchemas) "Order" []
          ⟨"Order", .str "quantity", .map Schema.count⟩ = .ok (q, [])
      ∧ p.default = "null" ∧ q.default = "1" := by
  obtain ⟨settings, hs, -⟩ := Generator.exists_settings (t := .jaxrsSpec) (by simp)
  have hr : (Spec.ofSchemas Spec.orderSchemas).resolve "#/components/schemas/Count"
      = .ok Schema.count := rfl
  have hc := Schema.acyclic_order.1
  have htype : Schema.resolve ((Generator.ofTarget .jaxrsSpec []).building settings)
      (some (.ofSchemas Spec.orderSchemas)) (.map Schema.count) = .ok Schema.integerType :=
    Schema.resolve_count rfl
  obtain ⟨p, hp⟩ := @Model.buildProperty_plain _ _ "Order" "Order" "quantity" [] _ _ _
    ((Schema.resolve_referTo hr rfl hc).trans htype) (Spec.deref_referTo hr hc) rfl rfl
  obtain ⟨type, target, ht, -, hdefault, -, -, -, hplace⟩ :=
    Model.buildProperty_of_referTo hr rfl hc hp
  obtain rfl := Except.ok.inj (htype.symm.trans ht)
  have hliteral := Schema.defaultLiteral?_count
  refine ⟨settings, p, _, hs, Spec.ofValue_document (by decide +kernel), hr, rfl, hc, hp,
    hplace.trans (map_require_eq_ok.mpr ⟨"1", hliteral, rfl⟩), hdefault, rfl⟩

end ApiScaffold
