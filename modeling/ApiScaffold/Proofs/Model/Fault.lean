import ApiScaffold.Proofs.Model.Turn
import ApiScaffold.Proofs.Schema.Resolve

/-!
# Whose fault it is that a model cannot be built

The resolution of types only has faults of schemas, which are reframed where they are noticed, so
that every fault in the building of a component has the component as its subject. No step before the
rendering has a fault of the rendering.

`Faults` says this of an attempt: if it has a fault of the building, then one of certain ones, and
it has none of the rendering. `Raises` says it of all failures. Both have a lemma for each way in
which attempts are put together, and then one lemma for each function of the building, from the
reading of values up to `faults_ofSchema`: a component that cannot be built is the subject of its
fault.
-/

namespace ApiScaffold

/-- A failure is one of these, if it is one of the building, and none of the rendering. -/
def Failure.Blames (P : Value → BuildFault → Prop) : Failure → Prop
  | build subject fault => P subject fault
  | render _ _ => False
  | _ => True

namespace Attempt

/-- If an attempt fails, then by one of these failures. -/
def Raises {α : Type} (Q : Failure → Prop) (a : Attempt α) : Prop :=
  ∀ failure, a = .error failure → Q failure

/-- If an attempt has a fault of the building, then one of these; it has none of the rendering. -/
def Faults {α : Type} (P : Value → BuildFault → Prop) (a : Attempt α) : Prop :=
  ∀ failure, a = .error failure → failure.Blames P

variable {α β : Type} {P Q : Value → BuildFault → Prop}

@[simp] theorem faults_ok (x : α) : Faults P (.ok x) := by
  intro failure h
  cases h

@[simp] theorem faults_error {failure : Failure} :
    Faults P (.error failure : Attempt α) ↔ failure.Blames P :=
  ⟨fun h => h failure rfl, fun h _ hf => Except.error.inj hf ▸ h⟩

@[simp] theorem blames_spec (fault : SpecFault) : (Failure.spec fault).Blames P := trivial

@[simp] theorem blames_config (fault : ConfigFault) : (Failure.config fault).Blames P := trivial

@[simp] theorem blames_unsuitable : Failure.unsuitable.Blames P := trivial

@[simp] theorem blames_system : Failure.system.Blames P := trivial

theorem raises_ok {Q : Failure → Prop} (x : α) : Raises Q (.ok x) := nofun

theorem raises_error {Q : Failure → Prop} {failure : Failure} (h : Q failure) :
    Raises Q (.error failure : Attempt α) := by
  rintro _ ⟨⟩
  exact h

theorem Raises.imp {Q R : Failure → Prop} {a : Attempt α} (ha : Raises Q a)
    (h : ∀ failure, Q failure → R failure) : Raises R a := fun failure hf => h failure (ha failure hf)

theorem Raises.bind {Q : Failure → Prop} {a : Attempt α} {f : α → Attempt β} (ha : Raises Q a)
    (hf : ∀ x, Raises Q (f x)) : Raises Q (a >>= f) := by
  intro failure h
  rcases bind_eq_error.mp h with h | ⟨x, -, h⟩
  · exact ha failure h
  · exact hf x failure h

theorem faults_pure (x : α) : Faults P (pure x) := faults_ok x

theorem faults_require (o : Option α) : Faults P (require o) := by
  cases o <;> simp [require]

theorem faults_build {subject : Value} {fault : BuildFault} (h : P subject fault) :
    Faults P (.error (.build subject fault) : Attempt α) :=
  faults_error.mpr h

/-- A failure of another kind of result. -/
theorem Faults.error_congr {a : Attempt α} {failure : Failure} (ha : Faults P a)
    (h : a = .error failure) : Faults P (.error failure : Attempt β) :=
  faults_error.mpr (ha failure h)

/-- A chain of steps has the faults of its steps. -/
theorem Faults.bind {a : Attempt α} {f : α → Attempt β} (ha : Faults P a)
    (hf : ∀ x, Faults P (f x)) : Faults P (a >>= f) := by
  cases a with
  | error failure => exact faults_error.mpr (ha failure rfl)
  | ok x => exact hf x

/-- The same where the second step is only taken on results of the first. -/
theorem Faults.bind_of_ok {a : Attempt α} {f : α → Attempt β} (ha : Faults P a)
    (hf : ∀ x, a = .ok x → Faults P (f x)) : Faults P (a >>= f) := by
  cases a with
  | error failure => exact faults_error.mpr (ha failure rfl)
  | ok x => exact hf x rfl

theorem Faults.map {a : Attempt α} (f : α → β) (ha : Faults P a) : Faults P (f <$> a) := by
  cases a with
  | error failure => exact faults_error.mpr (ha failure rfl)
  | ok x => exact faults_ok _

/-- Faults that are of some kind are of every kind that follows from it. -/
theorem Faults.imp {a : Attempt α} (ha : Faults P a)
    (h : ∀ subject fault, P subject fault → Q subject fault) : Faults Q a := by
  intro failure hf
  have hblames := ha failure hf
  cases failure with
  | build subject fault => exact h subject fault hblames
  | _ => exact hblames

theorem faults_mapM {f : α → Attempt β} {xs : List α} (hf : ∀ x ∈ xs, Faults P (f x)) :
    Faults P (xs.mapM f) := by
  induction xs with
  | nil => exact faults_pure []
  | cons x xs ih =>
      rw [List.forall_mem_cons] at hf
      rw [List.mapM_cons]
      exact hf.1.bind fun _ => (ih hf.2).bind fun _ => faults_pure _

theorem faults_foldlM {f : β → α → Attempt β} {xs : List α}
    (hf : ∀ x ∈ xs, ∀ b, Faults P (f b x)) (b : β) : Faults P (xs.foldlM f b) := by
  induction xs generalizing b with
  | nil => exact faults_pure b
  | cons x xs ih =>
      rw [List.forall_mem_cons] at hf
      rw [List.foldlM_cons]
      exact (hf.1 b).bind (ih hf.2)

end Attempt

open Attempt

variable {g : Generator} {spec : Spec} {P : Value → BuildFault → Prop}

namespace Value

theorem faults_entries (v : Value) : Faults P v.entries := by
  cases v <;> simp [entries]

theorem faults_elements (v : Value) : Faults P v.elements := faults_require _

end Value

theorem Generator.faults_settings : Faults P g.settings := by
  unfold Generator.settings
  split <;> simp

namespace Spec

theorem faults_resolveIn (document : Value) (reference : String) :
    Faults P (resolveIn document reference) := by
  unfold resolveIn
  split
  · simp
  · split <;> simp

theorem faults_resolve (reference : String) : Faults P (spec.resolve reference) :=
  faults_resolveIn _ _

theorem faults_derefFrom (hops : Nat) (seen : List String) (members : Members) :
    Faults P (derefFrom spec.document hops seen members) := by
  induction hops generalizing seen members with
  | zero =>
      unfold derefFrom
      split
      · simp
      · split
        · simp
        · split
          next hr => exact (faults_resolve _).error_congr hr
          next => simp
      · simp
  | succ hops ih =>
      unfold derefFrom
      split
      · simp
      · split
        · simp
        · split
          next hr => exact (faults_resolve _).error_congr hr
          next => exact ih _ _
      · simp

theorem faults_deref (members : Members) : Faults P (spec.deref members) := by
  unfold deref
  split
  · exact faults_derefFrom _ _ _
  · exact faults_ok _

end Spec

namespace Schema

/-- A fault of a schema, before it is known whose schema it is. -/
def IsUnframed (_ : Value) (fault : BuildFault) : Prop := ∃ f, fault = .schema f

/-- The failures of the resolution of types: faults of schemas, references that lead nowhere,
missing settings, and what no rule covers. -/
inductive IsResolution : Failure → Prop
  | schema (subject : Value) (fault : SchemaFault) : IsResolution (.build subject (.schema fault))
  | unsupported (reference : String) : IsResolution (.spec (.unsupportedReference reference))
  | unresolvable (reference : String) : IsResolution (.spec (.unresolvable reference))
  | target (reference : String) : IsResolution (.spec (.targetNotMapping reference))
  | config (fault : ConfigFault) : IsResolution (.config fault)
  | unsuitable : IsResolution .unsuitable

theorem raises_refuse {α : Type} (fault : SchemaFault) :
    Raises IsResolution (refuse fault : Attempt α) := raises_error (.schema _ fault)

theorem raises_isAlias (schema : Members) : Raises (· = .unsuitable) (isAlias schema) := by
  unfold isAlias
  split
  · exact raises_ok _
  · split
    · exact raises_ok _
    · split
      · exact raises_error rfl
      · exact raises_error rfl
      · split <;> exact raises_ok _
      · exact raises_ok _

theorem faults_isAlias (schema : Members) : Faults P (isAlias schema) :=
  (raises_isAlias schema).imp fun _ h => h ▸ blames_unsuitable

theorem raises_target (reference : String) : Raises IsResolution (spec.resolve reference) := by
  unfold Spec.resolve Spec.resolveIn
  split
  · exact raises_error (.unsupported reference)
  · split
    · exact raises_error (.unresolvable reference)
    · exact raises_ok _
    · exact raises_error (.target reference)

theorem raises_concreteType (type : Value) : Raises IsResolution (concreteType type) := by
  unfold concreteType
  split
  · split
    · exact raises_ok _
    · exact raises_refuse _
  · exact raises_ok _

theorem raises_settings : Raises IsResolution g.settings := by
  unfold Generator.settings
  split
  · exact raises_ok _
  · exact raises_error (.config _)

theorem raises_scalarType (type format : Value) :
    Raises IsResolution (scalarType g type format) := by
  unfold scalarType
  split
  · exact raises_error .unsuitable
  · split
    · exact raises_ok _
    · refine raises_settings.bind fun settings => ?_
      split
      · exact raises_ok _
      · split <;> exact raises_refuse _

theorem raises_firstResolvable {members : List (Unit → Attempt TargetType)}
    (hm : ∀ member ∈ members, Raises IsResolution (member ())) (keyword : String)
    (first : Option SchemaFault) :
    Raises IsResolution (firstResolvable keyword first members) := by
  induction members generalizing first with
  | nil =>
      cases first with
      | none => exact raises_error .unsuitable
      | some fault => exact raises_refuse _
  | cons member rest ih =>
      rw [List.forall_mem_cons] at hm
      rw [firstResolvable]
      split
      · exact raises_ok _
      · exact ih hm.2 _
      next failure hne herr => exact raises_error (hm.1 failure herr)

/-- The resolution of a type raises what it may, if that of references does. -/
theorem raises_typeWith {follow : String → Attempt TargetType}
    (hf : ∀ reference, Raises IsResolution (follow reference)) (v : Value) :
    Raises IsResolution (typeWith g follow v) := by
  induction hn : sizeOf v using Nat.strongRecOn generalizing v with
  | ind n ih =>
      subst hn
      cases v with
      | map schema =>
          rw [typeWith]
          split
          · exact hf _
          · exact raises_error .unsuitable
          · split
            next keyword items hc =>
              refine raises_firstResolvable (fun member hm => ?_) _ _
              obtain ⟨item, -, rfl⟩ := List.mem_map.mp hm
              have hlist := sizeOf_lt_of_composition? hc
              have hitem := List.sizeOf_lt_of_mem item.2
              rw [Value.list.sizeOf_spec] at hlist
              exact ih (sizeOf item.1) (by omega) item.1 rfl
            next =>
              split
              · exact raises_refuse _
              · exact raises_error .unsuitable
            next =>
              refine (raises_concreteType _).bind fun type => ?_
              split
              · split
                next => exact raises_refuse _
                next items hi =>
                  exact (ih _ (sizeOf_lt_of_get? hi) items rfl).bind fun _ => raises_ok _
              · split
                · split
                  · exact raises_ok _
                  · exact raises_ok _
                  next m ms ha =>
                    exact (ih _ (sizeOf_lt_of_get? ha) _ rfl).bind fun _ => raises_ok _
                  · exact raises_ok _
                · exact raises_scalarType _ _
      | _ =>
          simp only [typeWith]
          exact raises_refuse _

theorem raises_typeOfTarget {next? : Option (String → Attempt TargetType)}
    (hn : ∀ next, next? = some next → ∀ reference, Raises IsResolution (next reference))
    (seen : List String) (reference : String) :
    Raises IsResolution (typeOfTarget g spec seen reference next?) := by
  refine (raises_target _).bind fun schema =>
    ((raises_isAlias schema).imp fun _ h => h ▸ .unsuitable).bind fun inlined => ?_
  split
  · split
    · exact raises_refuse _
    · cases next? with
      | none => exact raises_refuse _
      | some next => exact raises_typeWith (hn next rfl) _
  · exact raises_ok _

theorem raises_typeOfReference (hops : Nat) (seen : List String) (reference : String) :
    Raises IsResolution (typeOfReference g spec hops seen reference) := by
  induction hops generalizing seen reference with
  | zero => exact raises_typeOfTarget (by simp) _ _
  | succ hops ih =>
      refine raises_typeOfTarget (fun next hnext => ?_) _ _
      cases hnext
      exact ih _

theorem raises_resolve (v : Value) : Raises IsResolution (resolve g (some spec) v) :=
  raises_typeWith (raises_typeOfReference _ _) v

/-- The resolution of types has no faults but those of schemas. -/
theorem faults_resolve (v : Value) : Faults IsUnframed (resolve g (some spec) v) := by
  intro failure h
  cases raises_resolve v failure h with
  | schema subject fault => exact ⟨fault, rfl⟩
  | _ => trivial

/-- Reframing gives every fault of a schema the subject. -/
theorem faults_reframe {α : Type} {subject : Value} {wrap : SchemaFault → BuildFault}
    {a : Attempt α} (h : Faults IsUnframed a) :
    Faults (fun s _ => s = subject) (reframe subject wrap a) := by
  unfold reframe
  split
  · exact faults_build rfl
  next hne =>
    intro failure hr
    cases failure with
    | build s fault =>
        obtain ⟨f, rfl⟩ := h _ hr
        exact absurd hr (hne s f)
    | _ => exact h _ hr

end Schema

namespace Model

/-- The fault is that of a component. -/
def IsOf (name : String) (subject : Value) (_ : BuildFault) : Prop := subject = .str name

variable {model : String}

theorem faults_entriesUnder (members : Members) (key : String) :
    Faults P (entriesUnder members key) := by
  unfold entriesUnder
  split
  · exact faults_ok _
  · exact Value.faults_entries _

theorem faults_elementsUnder (members : Members) (key : String) :
    Faults P (elementsUnder members key) := by
  unfold elementsUnder
  split
  · exact faults_ok _
  · exact Value.faults_elements _

theorem faults_declareAll (origin : String) (entries : Members) (declared : List Declared) :
    Faults (IsOf model) (declareAll model origin entries declared) := by
  induction entries generalizing declared with
  | nil => exact faults_ok _
  | cons entry rest ih =>
      rw [declareAll]
      split
      · exact faults_build rfl
      · exact ih _

theorem faults_declareOwn (origin : String) (schema : Members) (gathered : Gathered) :
    Faults (IsOf model) (declareOwn model origin schema gathered) := by
  refine (faults_entriesUnder _ _).bind fun _ => (faults_declareAll _ _ _).bind fun _ =>
    (faults_elementsUnder _ _).bind fun _ => ?_
  split
  · exact faults_pure _
  · simp

theorem faults_listed (schema : Members) :
    ∀ member ∈ listed schema, Faults P member := by
  intro member hm
  obtain ⟨keyword, -, hm⟩ := List.mem_flatMap.mp hm
  have hunder : Faults P (membersUnder schema keyword) :=
    (faults_elementsUnder _ _).bind fun _ => faults_pure _
  split at hm
  next =>
    obtain ⟨read, -, rfl⟩ := List.mem_map.mp hm
    exact faults_ok read
  next failure herr =>
    rw [List.mem_singleton.mp hm]
    exact hunder.error_congr herr

theorem faults_run {origin : String} {visiting : List String} {member : Member}
    {gathered : Gathered} {follow : String → List String → Members → Gathered → Attempt Gathered}
    (hf : ∀ start way target gathered, Faults (IsOf model) (follow start way target gathered)) :
    Faults (IsOf model) ((turn spec model origin visiting member gathered).run follow) := by
  cases ht : turn spec model origin visiting member gathered with
  | stop failure =>
      rcases stop_cases ht with ⟨fault, rfl⟩ | ⟨reference, hd⟩
      · exact faults_build rfl
      · exact (Spec.faults_deref _).error_congr hd
  | pass next => exact faults_ok next
  | call start way target next => exact hf start way target next

theorem faults_flatten (depth : Nat) (origin : String) (visiting : List String)
    (schema : Members) (gathered : Gathered) :
    Faults (IsOf model) (flatten spec model depth origin visiting schema gathered) := by
  induction depth generalizing origin visiting schema gathered with
  | zero => simp [flatten]
  | succ depth ih =>
      rw [flatten_succ]
      refine (faults_declareOwn _ _ _).bind fun own =>
        faults_foldlM (fun member hm gathered => ?_) _
      exact (faults_listed _ member hm).bind fun _ => faults_run ih

theorem faults_buildProperty (required : List Value) (d : Declared) :
    Faults (IsOf model) (buildProperty g spec model required d) := by
  refine (Schema.faults_reframe (Schema.faults_resolve _)).bind fun _ =>
    (Value.faults_entries _).bind fun _ => (Spec.faults_deref _).bind fun _ =>
      (faults_require _).bind fun _ => (faults_require _).bind fun _ =>
        (faults_elementsUnder _ _).bind fun _ => faults_pure _

theorem faults_buildProperties (required : List Value) (declared : List Declared)
    (built : List (Property × List String)) :
    Faults (IsOf model) (buildProperties g spec model required declared built) := by
  induction declared generalizing built with
  | nil => exact faults_ok _
  | cons d rest ih =>
      rw [buildProperties]
      refine (faults_buildProperty _ _).bind fun found => ?_
      split
      split
      · exact faults_build rfl
      · exact ih _

theorem faults_buildEnum (schema : Members) :
    Faults (IsOf model) (buildEnum g spec model schema) :=
  (Schema.faults_reframe (Schema.faults_resolve _)).bind fun _ =>
    (Value.faults_elements _).bind fun _ => (faults_require _).bind fun _ => faults_pure _

theorem faults_buildRecord (schema : Members) :
    Faults (IsOf model) (buildRecord g spec model schema) :=
  (faults_flatten _ _ _ _ _).bind fun _ =>
    (faults_buildProperties _ _ _).bind fun _ => faults_pure _

/-- A component that cannot be built is the subject of its fault. -/
theorem faults_ofSchema (name : String) (schema : Value) :
    Faults (IsOf name) (ofSchema g spec (.str name) schema) := by
  unfold ofSchema
  split
  · dsimp only
    split
    · exact faults_buildEnum _
    · exact faults_buildRecord _
  · exact faults_build rfl

end Model

end ApiScaffold
