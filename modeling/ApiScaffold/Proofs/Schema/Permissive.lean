import ApiScaffold.Proofs.Document.Pointer
import ApiScaffold.Proofs.Run.Stages
import ApiScaffold.Proofs.Schema.Shape
import ApiScaffold.Proofs.Schema.Termination

/-!
# Types that may be unknown

A generator that permits unknown types gives the schemas without compositions that have a type
without them the same type; what it still refuses is told by the shape of the schemas that the
search comes to.

* `Visits`: the search for the type of a value comes to another. `IsUncomposed` and `Misfit` are
  about the values that it visits: none has a composition, and what is wrong with one whatever types
  there are.
* `Extends`: an attempt has the result of another, if that has one, and certain faults else. A step
  without a composition extends the step of the stricter generator (`extends_typeStep`), and
  `Settles.extends` goes from steps to the whole search, by induction on how it settles.
* `Visits.error`: the search fails as that of any value does that it comes to, so misfits are
  refused.
* `resolve_permissive`: both together, with a document or without one.
-/

namespace ApiScaffold

open Attempt

namespace Schema

/-- A generator of the same target that permits unknown types. -/
structure Loosens (permissive strict : Generator) : Prop where
  target : permissive.target = strict.target
  permits : ∃ settings, permissive.settings? = some settings ∧ settings.permissiveTypes = true

/-- The search for the type of a value comes to another: to that of a part or, in a document, to
that of an alias. -/
inductive Visits (spec? : Option Spec) : List String → Value → List String → Value → Prop
  | here (seen : List String) (v : Value) : Visits spec? seen v seen v
  | part {seen last : List String} {v w u : Value} (hp : HasPart v w)
      (h : Visits spec? seen w last u) : Visits spec? seen v last u
  | inline {seen last : List String} {v u : Value} {spec : Spec} {reference : String}
      {schema : Members} (hs : spec? = some spec) (hi : Inlines spec seen v reference schema)
      (h : Visits spec? (reference :: seen) (.map schema) last u) : Visits spec? seen v last u

/-- No schema that the search for the type of a value comes to has a composition. -/
def IsUncomposed (spec? : Option Spec) (seen : List String) (v : Value) : Prop :=
  ∀ last schema, Visits spec? seen v last (.map schema) → composition? schema = none

/-- What is wrong with a value whatever types there are: it is no mapping, a list without items, a
list of types without exactly one that is not null, or a reference to an alias that is being
replaced. -/
inductive Misfit (spec? : Option Spec) (seen : List String) : Value → SchemaFault → Prop
  | notMapping {v : Value} (h : ∀ schema, v ≠ .map schema) :
      Misfit spec? seen v (.notMapping v.kindName)
  | noItems {schema : Members} (h : ReadBy schema (.str "array"))
      (hi : Members.get? schema "items" = none) : Misfit spec? seen (.map schema) .arrayWithoutItems
  | types {schema : Members} {types : List Value} (hr : Members.get? schema "$ref" = none)
      (ht : Members.get? schema "type" = some (.list types))
      (hl : (types.filter fun t => !t.keyEq (.str "null")).length ≠ 1) :
      Misfit spec? seen (.map schema) (.ambiguousTypes types)
  | circle {spec : Spec} {schema target : Members} {reference : String} (hs : spec? = some spec)
      (hr : Members.get? schema "$ref" = some (.str reference))
      (ht : spec.resolve reference = .ok target) (ha : isAlias target = .ok true)
      (hin : reference ∈ seen) :
      Misfit spec? seen (.map schema) (.circularAlias (Pointer.lastKey reference))

variable {g strict permissive : Generator} {spec? : Option Spec} {spec : Spec}
  {seen last : List String} {v w u : Value} {schema : Members} {type format : Value}
  {reference : String} {x y : Attempt TargetType} {fault : SchemaFault} {failure : Failure}

theorem IsUncomposed.part (h : IsUncomposed spec? seen v) (hp : HasPart v w) :
    IsUncomposed spec? seen w := fun last schema hv => h last schema (.part hp hv)

theorem IsUncomposed.inline (h : IsUncomposed (some spec) seen v)
    (hi : Inlines spec seen v reference schema) :
    IsUncomposed (some spec) (reference :: seen) (.map schema) :=
  fun last target hv => h last target (.inline rfl hi hv)

theorem IsUncomposed.visits (h : IsUncomposed spec? seen v) (hv : Visits spec? seen v last u) :
    IsUncomposed spec? last u := by
  induction hv with
  | here => exact h
  | part hp _ ih => exact ih (h.part hp)
  | inline hs hi _ ih =>
      subst hs
      exact ih (h.inline hi)

theorem IsUncomposed.composition (h : IsUncomposed spec? seen (.map schema)) :
    composition? schema = none := h seen schema (.here seen _)

/-! ## The search, with a document or without one -/

/-- The type of a reference, which without a document is always that of a model. -/
def followStep (g : Generator) (spec? : Option Spec) (seen : List String)
    (inline : String → Members → Attempt TargetType) (reference : String) : Attempt TargetType :=
  match spec? with
  | none => .ok (g.target.modelType (Pointer.lastKey reference))
  | some spec => referenceStep g spec seen inline reference

/-- The search for the type of a value ends with a result. -/
inductive Settles (g : Generator) (spec? : Option Spec) :
    List String → Value → Attempt TargetType → Prop
  | schema {seen : List String} {schema : Members} {part : Value → Attempt TargetType}
      {inline : String → Members → Attempt TargetType}
      (hp : ∀ w, HasPart (.map schema) w → Settles g spec? seen w (part w))
      (hi : ∀ spec reference target, spec? = some spec →
        Inlines spec seen (.map schema) reference target →
          Settles g spec? (reference :: seen) (.map target) (inline reference target)) :
      Settles g spec? seen (.map schema)
        (typeStep g (followStep g spec? seen inline) part schema)
  | other {seen : List String} {v : Value} (h : ∀ schema, v ≠ .map schema) :
      Settles g spec? seen v (refuse (.notMapping v.kindName))

theorem Yields.settles (h : Yields g spec seen v x) : Settles g (some spec) seen v x := by
  induction h with
  | @step seen v part inline _ _ ihp ihi =>
      cases v with
      | map schema =>
          show Settles g (some spec) seen _
            (typeStep g (followStep g (some spec) seen inline) part schema)
          refine .schema ihp fun spec' reference target hs hi => ?_
          cases hs
          exact ihi reference target hi
      | _ => exact .other (by simp)

/-- Without a document the search is one on the size of the value. -/
theorem settles_typeWith (g : Generator) (seen : List String) (v : Value) : Settles g none seen v
    (typeWith g (fun reference => .ok (g.target.modelType (Pointer.lastKey reference))) v) := by
  induction hn : sizeOf v using Nat.strongRecOn generalizing v with
  | ind n ih =>
      cases v with
      | map schema =>
          rw [typeWith_map]
          show Settles g none seen _
            (typeStep g (followStep g none seen fun _ _ => .error .unsuitable) _ schema)
          exact .schema (fun w hw => ih _ (hn ▸ hw.sizeOf_lt) w rfl) nofun
      | _ =>
          simp only [typeWith]
          exact .other (by simp)

theorem settles_resolve (g : Generator) (spec? : Option Spec) (v : Value) :
    Settles g spec? [] v (resolve g spec? v) := by
  cases spec? with
  | none => exact settles_typeWith g [] v
  | some spec => exact (yields_resolve g spec v).settles

/-! ## Results that a second attempt keeps -/

/-- An attempt has the result of another, if that has one, and certain faults of the building only.
-/
structure Extends (P : Value → BuildFault → Prop) (x y : Attempt TargetType) : Prop where
  keeps : ∀ t, x = .ok t → y = .ok t
  faults : Faults P y

variable {P Q : Value → BuildFault → Prop}

theorem extends_self (h : Faults P x) : Extends P x x := ⟨fun _ => id, h⟩

theorem Extends.imp (h : Extends P x y) (hq : ∀ subject fault, P subject fault → Q subject fault) :
    Extends Q x y := ⟨h.keeps, h.faults.imp hq⟩

theorem Extends.wrap (h : Extends P x y) (f : TargetType → TargetType) :
    Extends P (do return f (← x)) (do return f (← y)) where
  keeps := by
    intro t ht
    obtain ⟨inner, hx, ht⟩ := bind_eq_ok.mp ht
    exact bind_eq_ok.mpr ⟨inner, h.keeps inner hx, ht⟩
  faults := h.faults.bind fun _ => faults_pure _

theorem extends_bind {α : Type} {a : Attempt α} {f f' : α → Attempt TargetType} (ha : Faults P a)
    (hf : ∀ s, a = .ok s → Extends P (f s) (f' s)) : Extends P (a >>= f) (a >>= f') := by
  cases a with
  | ok s => exact hf s rfl
  | error failure => exact extends_self (ha.error_congr rfl)

/-- Scalars keep their types, and none is unknown. -/
theorem extends_scalarType (h : Loosens permissive strict) :
    Extends P (scalarType strict type format) (scalarType permissive type format) where
  keeps := by
    intro t ht
    obtain ⟨m, ⟨htype, hformat, hm⟩, rfl⟩ := scalarType_eq_ok.mp ht
    refine scalarType_eq_ok.mpr ⟨m, ⟨htype, hformat, ?_⟩, rfl⟩
    rw [h.target]
    exact hm.imp id fun ⟨hnone, hgeneric, _⟩ => ⟨hnone, hgeneric, h.permits⟩
  faults := by
    obtain ⟨settings, hs, hp⟩ := h.permits
    unfold scalarType
    split
    · simp
    · split
      · exact faults_ok _
      · rw [settings_eq_ok.mpr hs]
        show Faults P (if settings.permissiveTypes then _ else _)
        rw [if_pos hp]
        exact faults_ok _

theorem concreteType_eq_error : concreteType type = .error failure ↔
    ∃ types, type = .list types ∧ (types.filter fun t => !t.keyEq (.str "null")).length ≠ 1
      ∧ failure = .build (.str "schema") (.schema (.ambiguousTypes types)) := by
  constructor
  · intro h
    unfold concreteType at h
    split at h
    next types =>
      split at h
      next => cases h
      next hother =>
        refine ⟨types, rfl, fun hone => ?_, (Except.error.inj h).symm⟩
        obtain ⟨single, hsingle⟩ := List.length_eq_one_iff.mp hone
        exact hother single hsingle
    next => cases h
  · rintro ⟨types, rfl, hlength, rfl⟩
    rw [concreteType]
    split
    next single hsingle => exact absurd (congrArg List.length hsingle) hlength
    next => rfl

theorem extends_referenceStep {inline inline' : String → Members → Attempt TargetType}
    (h : Loosens permissive strict)
    (hc : ∀ target, spec.resolve reference = .ok target → isAlias target = .ok true →
      reference ∈ seen →
        P (.str "schema") (.schema (.circularAlias (Pointer.lastKey reference))))
    (hi : ∀ target, spec.resolve reference = .ok target → isAlias target = .ok true →
      reference ∉ seen → Extends P (inline reference target) (inline' reference target)) :
    Extends P (referenceStep strict spec seen inline reference)
      (referenceStep permissive spec seen inline' reference) := by
  refine extends_bind (Spec.faults_resolve _) fun target hs =>
    extends_bind (faults_isAlias _) fun inlined ha => ?_
  cases inlined with
  | false =>
      rw [h.target]
      exact extends_self (faults_pure _)
  | true =>
      by_cases hin : reference ∈ seen
      · simpa [hin, refuse] using extends_self (faults_build (hc target hs ha hin))
      · simpa [hin] using hi target hs ha hin

/-- A step without a composition keeps its type if what it asks for does, and has the faults of that
and of its own schema only. -/
theorem extends_typeStep {follow follow' : String → Attempt TargetType}
    {part part' : Value → Attempt TargetType} (h : Loosens permissive strict)
    (hc : composition? schema = none)
    (hm : ∀ fault, Misfit spec? seen (.map schema) fault → P (.str "schema") (.schema fault))
    (hf : ∀ reference, Members.get? schema "$ref" = some (.str reference) →
      Extends P (follow reference) (follow' reference))
    (hp : ∀ w, HasPart (.map schema) w → Extends P (part w) (part' w)) :
    Extends P (typeStep strict follow part schema) (typeStep permissive follow' part' schema) := by
  cases hr : Members.get? schema "$ref" with
  | some found =>
      rw [typeStep, typeStep, hr]
      cases found with
      | str reference => exact hf reference hr
      | _ => exact extends_self (by simp)
  | none =>
      cases htype : concreteType (Members.getD schema "type" .null) with
      | error failure =>
          rw [typeStep, typeStep, hr, hc, htype]
          obtain ⟨types, hlist, hlength, rfl⟩ := concreteType_eq_error.mp htype
          have hget := Spec.get?_eq_of_getD hlist (by simp)
          exact extends_self (faults_build (hm _ (.types hr hget hlength)))
      | ok type =>
          have hread : ReadBy schema type := ⟨hr, hc, htype⟩
          rw [hread.typeStep, hread.typeStep, h.target]
          split
          next harray =>
            obtain rfl := Value.keyEq_str.mp harray
            split
            next hi => exact extends_self (faults_build (hm _ (.noItems hread hi)))
            next found hi => exact (hp found (.items hread hi)).wrap _
          next =>
            split
            next hobject =>
              split
              next => exact extends_self (faults_pure _)
              next => exact extends_self (faults_pure _)
              next m ms ha => exact (hp _ (.values hread hobject ha)).wrap _
              next => exact extends_self (faults_pure _)
            next => exact extends_scalarType h

/-! ## From steps to the search -/

/-- A fault is one of a value that the search for the type of another comes to. -/
def Told (spec? : Option Spec) (seen : List String) (v subject : Value) (fault : BuildFault) : Prop :=
  subject = .str "schema" ∧ ∃ f last u,
    fault = .schema f ∧ Visits spec? seen v last u ∧ Misfit spec? last u f

theorem told_of_misfit (h : Misfit spec? seen v fault) :
    Told spec? seen v (.str "schema") (.schema fault) :=
  ⟨rfl, fault, seen, v, rfl, .here seen v, h⟩

theorem Told.of_visits {subject : Value} {f : BuildFault}
    (h : Told spec? last u subject f)
    (hv : ∀ stop w, Visits spec? last u stop w → Visits spec? seen v stop w) :
    Told spec? seen v subject f := by
  obtain ⟨hs, fault, stop, w, hf, hw, hm⟩ := h
  exact ⟨hs, fault, stop, w, hf, hv stop w hw, hm⟩

/-- The search of a generator that permits unknown types keeps the type that another finds, and
fails for a misfit that it comes to. -/
theorem Settles.extends (h : Loosens permissive strict) (hy : Settles permissive spec? seen v y)
    (hx : Settles strict spec? seen v x) (hu : IsUncomposed spec? seen v) :
    Extends (Told spec? seen v) x y := by
  induction hy generalizing x with
  | @schema seen schema part' inline' hp' hi' ihp ihi =>
      cases hx with
      | @schema _ _ part inline hp hi =>
          refine extends_typeStep h hu.composition (fun fault => told_of_misfit)
            (fun reference hr => ?_) fun w hw => ?_
          · cases spec? with
            | none =>
                show Extends _ (.ok (strict.target.modelType _)) (.ok (permissive.target.modelType _))
                rw [h.target]
                exact extends_self (faults_ok _)
            | some spec =>
                refine extends_referenceStep h
                  (fun target hs ha hin => told_of_misfit (.circle rfl hr hs ha hin))
                  fun target hs ha hfresh => ?_
                have hin : Inlines spec seen (.map schema) reference target := ⟨hr, hs, ha, hfresh⟩
                refine (ihi spec reference target rfl hin (hi spec reference target rfl hin)
                  (hu.inline hin)).imp fun subject fault ht => ?_
                exact ht.of_visits fun _ _ => .inline rfl hin
          · refine (ihp w hw (hp w hw) (hu.part hw)).imp fun subject fault ht => ?_
            exact ht.of_visits fun _ _ => .part hw
      | other hne => exact absurd rfl (hne schema)
  | @other seen v hne =>
      cases hx with
      | schema => exact absurd rfl (hne _)
      | other _ => exact extends_self (faults_build (told_of_misfit (.notMapping hne)))

/-! ## Misfits are refused -/

theorem referenceStep_alias {inline : String → Members → Attempt TargetType} {target : Members}
    (ht : spec.resolve reference = .ok target) (ha : isAlias target = .ok true) :
    referenceStep g spec seen inline reference =
      if seen.contains reference then refuse (.circularAlias (Pointer.lastKey reference))
      else inline reference target := by
  simp only [referenceStep, ht, ha, Bind.bind, Except.bind, if_true]

/-- A misfit is refused for what is wrong with it. -/
theorem Misfit.refused (hm : Misfit spec? seen v fault) (hu : IsUncomposed spec? seen v)
    (hx : Settles g spec? seen v x) : x = refuse fault := by
  cases hx with
  | other hne =>
      cases hm with
      | notMapping => rfl
      | noItems | types | circle => exact absurd rfl (hne _)
  | schema hp hi =>
      cases hm with
      | notMapping hne => exact absurd rfl (hne _)
      | noItems hread hitems =>
          rw [hread.typeStep, if_pos (Value.keyEq_str.mpr rfl), hitems]
      | types hr ht hlength =>
          have hconcrete := concreteType_eq_error.mpr ⟨_, rfl, hlength, rfl⟩
          rw [typeStep, hr, hu.composition, Members.getD, ht, Option.getD_some, hconcrete]
          rfl
      | circle hs hr ht ha hin =>
          subst hs
          rw [typeStep, hr]
          show referenceStep g _ seen _ _ = _
          rw [referenceStep_alias ht ha, if_pos (List.contains_iff_mem.mpr hin)]

/-- A step without a composition fails as its part does. -/
theorem typeStep_error {follow : String → Attempt TargetType} {part : Value → Attempt TargetType}
    (hc : composition? schema = none) (hp : HasPart (.map schema) w)
    (hw : part w = .error failure) : typeStep g follow part schema = .error failure := by
  cases hp with
  | member _ hcomposed _ => cases hc.symm.trans hcomposed
  | items hread hi =>
      rw [hread.typeStep, if_pos (Value.keyEq_str.mpr rfl), hi]
      exact bind_eq_error.mpr (.inl hw)
  | values hread ho ha =>
      rw [hread.typeStep, if_neg (by simp [keyEq_array_of_isObjectType ho]), if_pos ho, ha]
      exact bind_eq_error.mpr (.inl hw)

/-- The search for the type of a value fails as that of any value does that it comes to. -/
theorem Visits.error (hv : Visits spec? seen v last u) (hu : IsUncomposed spec? seen v)
    (hend : ∀ x, Settles g spec? last u x → x = .error failure) (hx : Settles g spec? seen v x) :
    x = .error failure := by
  induction hv generalizing x with
  | here => exact hend x hx
  | part hp _ ih =>
      cases hx with
      | schema hparts _ =>
          exact typeStep_error hu.composition hp (ih (hu.part hp) hend (hparts _ hp))
      | other hne => cases hp <;> exact absurd rfl (hne _)
  | @inline seen last v u spec reference target hs hi _ ih =>
      subst hs
      cases hx with
      | @schema _ schema _ _ _ haliases =>
          have hr : Members.get? schema "$ref" = some (.str reference) := hi.cites
          have hinline := ih (hu.inline hi) hend (haliases spec reference target rfl hi)
          rw [typeStep, hr]
          show referenceStep g spec seen _ reference = _
          rw [referenceStep_alias hi.target hi.inlined,
            if_neg (mt List.contains_iff_mem.mp hi.fresh), hinline]
      | other hne =>
          cases v with
          | map schema => exact absurd rfl (hne schema)
          | _ => cases hi.cites

/-- Where no schema has a composition, a generator that permits unknown types gives a schema the
type that one of the same target gives it, whatever that permits; and it fails to build a type
exactly where the search comes to a value that is no mapping, a list without items, a list of types
without exactly one that is not null, or a circular alias. -/
theorem resolve_permissive (h : Loosens permissive strict)
    (hu : IsUncomposed spec? [] (.map schema)) :
    (∀ t, resolve strict spec? (.map schema) = .ok t → resolve permissive spec? (.map schema) = .ok t)
    ∧ ∀ subject fault, resolve permissive spec? (.map schema) = .error (.build subject fault)
      ↔ subject = .str "schema" ∧ ∃ f seen v,
        fault = .schema f ∧ Visits spec? [] (.map schema) seen v ∧ Misfit spec? seen v f := by
  have hy := settles_resolve permissive spec? (.map schema)
  have hextends := hy.extends h (settles_resolve strict spec? (.map schema)) hu
  refine ⟨hextends.keeps, fun subject fault => ⟨fun herr => hextends.faults _ herr, ?_⟩⟩
  rintro ⟨rfl, f, seen, v, rfl, hv, hm⟩
  exact hv.error hu (fun _ hx => hm.refused (hu.visits hv) hx) hy

/-! ## Lists of identifiers, and lists of lists without items -/

/-- The Spring generator with unknown types. -/
def permissiveSpring : Generator := .ofTarget .spring [("permissiveTypes", .bool true)]

/-- A list of lists that do not say what is in them. -/
def listOfLists : Members :=
  [(.str "type", .str "array"), (.str "items", .map [(.str "type", .str "array")])]

theorem exists_permissive_settings :
    ∃ settings, Settings.ofOptions .spring permissiveSpring.runOptions = .ok settings
      ∧ settings.permissiveTypes = true :=
  Attempt.exists_of_toOption_map (by decide)

theorem isUncomposed_of_readBy (hread : ReadBy schema type)
    (h : ∀ w, HasPart (.map schema) w → IsUncomposed spec? seen w) :
    IsUncomposed spec? seen (.map schema) := by
  intro last target hv
  cases hv with
  | here => exact hread.composition
  | part hp hv => exact h _ hp last target hv
  | inline _ hi => cases hread.reference.symm.trans hi.cites

theorem isUncomposed_text :
    IsUncomposed spec? seen (.map [(.str "type", .str "string")]) := by
  have hread : ReadBy [(.str "type", .str "string")] (.str "string") := ⟨rfl, rfl, rfl⟩
  refine isUncomposed_of_readBy hread fun w hp => ?_
  obtain ⟨harray, -⟩ | ⟨hobject, -⟩ := hp.of_readBy hread
  · exact absurd harray (by simp)
  · cases hobject

theorem isUncomposed_id : IsUncomposed (some (.ofSchemas Spec.idSchemas)) [] (.map (link "Id")) := by
  intro last schema hv
  cases hv with
  | here => rfl
  | part hp _ =>
      cases hp with
      | member hr => cases hr
      | items hread => cases hread.reference
      | values hread => cases hread.reference
  | inline hs hi h =>
      cases hs
      cases hi.cites
      cases hi.target
      exact isUncomposed_text last schema h

theorem isUncomposed_listOf_id :
    IsUncomposed (some (.ofSchemas Spec.idSchemas)) [] (.map (listOf "Id")) := by
  have hread : ReadBy (listOf "Id") (.str "array") := ⟨rfl, rfl, rfl⟩
  refine isUncomposed_of_readBy hread fun w hp => ?_
  obtain ⟨-, hi⟩ | ⟨hobject, -⟩ := hp.of_readBy hread
  · cases hi
    exact isUncomposed_id
  · cases hobject

theorem isUncomposed_listOfLists : IsUncomposed none [] (.map listOfLists) := by
  have hread : ReadBy listOfLists (.str "array") := ⟨rfl, rfl, rfl⟩
  have hinner : ReadBy [(.str "type", .str "array")] (.str "array") := ⟨rfl, rfl, rfl⟩
  refine isUncomposed_of_readBy hread fun w hp => ?_
  obtain ⟨-, hi⟩ | ⟨hobject, -⟩ := hp.of_readBy hread
  · cases hi
    refine isUncomposed_of_readBy hinner fun w hp => ?_
    obtain ⟨-, hi⟩ | ⟨hobject, -⟩ := hp.of_readBy hinner
    · cases hi
    · cases hobject
  · cases hobject

/-- In any generator for Spring a list of identifiers is one of texts. -/
theorem resolve_listOf_id {g : Generator} (ht : g.target = .spring) :
    resolve g (some (.ofSchemas Spec.idSchemas)) (.map (listOf "Id"))
      = .ok (Target.spring.listType
        ({ name := "String", default := "null" } : TypeMapping).toType) := by
  have hlist : ReadBy (listOf "Id") (.str "array") := ⟨rfl, rfl, rfl⟩
  have htext : ReadBy [(.str "type", .str "string")] (.str "string") := ⟨rfl, rfl, rfl⟩
  have hmapped : HasMapping g (.str "string") .null { name := "String", default := "null" } :=
    ⟨rfl, rfl, .inl (by rw [ht]; rfl)⟩
  have hshaped : Shaped g (.ofSchemas Spec.idSchemas)
      ((Spec.ofSchemas Spec.idSchemas).document.nodeCount + 1) [] (.map (listOf "Id"))
      (.list (.mapped { name := "String", default := "null" })) :=
    .list hlist rfl (.through rfl rfl rfl List.not_mem_nil (.scalar htext (by simp) rfl hmapped))
  rw [resolve]
  unfold Spec.chainBound
  rw [hshaped.typeWith, ht]
  rfl

/-- Lists of identifiers are the same with unknown types, and a list of lists without items is
refused all the same. -/
theorem resolve_permissive_lists : ∃ strict permitting,
    Settings.ofOptions .spring (Generator.ofTarget .spring []).runOptions = .ok strict
      ∧ strict.permissiveTypes = false
      ∧ Settings.ofOptions .spring permissiveSpring.runOptions = .ok permitting
      ∧ Loosens (permissiveSpring.building permitting)
        ((Generator.ofTarget .spring []).building strict)
      ∧ (∃ t, resolve ((Generator.ofTarget .spring []).building strict)
          (some (.ofSchemas Spec.idSchemas)) (.map (listOf "Id")) = .ok t
        ∧ resolve (permissiveSpring.building permitting) (some (.ofSchemas Spec.idSchemas))
          (.map (listOf "Id")) = .ok t)
      ∧ resolve (permissiveSpring.building permitting) none (.map listOfLists)
        = .error (.build (.str "schema") (.schema .arrayWithoutItems)) := by
  obtain ⟨strict, hs, hstrict⟩ := Generator.exists_settings (t := .spring) (by simp)
  obtain ⟨permitting, hp, hpermits⟩ := exists_permissive_settings
  have hloose : Loosens (permissiveSpring.building permitting)
      ((Generator.ofTarget .spring []).building strict) := ⟨rfl, permitting, rfl, hpermits⟩
  have hlist := resolve_listOf_id (g := (Generator.ofTarget .spring []).building strict) rfl
  have hinner : ReadBy [(.str "type", .str "array")] (.str "array") := ⟨rfl, rfl, rfl⟩
  refine ⟨strict, permitting, hs, hstrict, hp, hloose, ⟨_, hlist, ?_⟩, ?_⟩
  · exact (resolve_permissive hloose isUncomposed_listOf_id).1 _ hlist
  · refine ((resolve_permissive hloose isUncomposed_listOfLists).2 _ _).mpr
      ⟨rfl, _, _, _, rfl, .part (.items ⟨rfl, rfl, rfl⟩ rfl) (.here _ _), .noItems hinner rfl⟩

end Schema

end ApiScaffold
