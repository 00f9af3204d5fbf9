import ApiScaffold.Proofs.Model.Build
import ApiScaffold.Proofs.Model.Fault
import ApiScaffold.Proofs.Schema.Inline
import ApiScaffold.Proofs.Schema.Reading

/-!
# How the search for a type ends

One step of it asks for the types of parts of a schema and for those of the aliases that stand for
its references, where an alias must not be one that is being replaced. That recursion has no bound
of its own; it comes to an end in every document, with the type or the failure that `resolve` gives.
It calls an alias circular only where the aliases of the schema lead in a circle.

* `Yields` is the search without a bound, as a relation: it is made of steps (`resolveStep`) that
  ask for what was yielded before, and it yields one result only (`Yields.unique`).
* `yields_typeWith`: it ends wherever there is room for each reference, by induction on the room and
  then on the size of the value; so it ends in every document, as `resolve` does.
* `Acyclic`, `Unwound`: no alias comes to itself, and what is being replaced on the way is not met
  again.
* `resolve_terminates`: the search for the type of any value ends without a bound, and without
  circles of aliases it never fails because of one.
-/

namespace ApiScaffold

/-- A fault of a schema is that of an alias which stands for itself, or is told because of one. -/
def SchemaFault.isCircular : SchemaFault → Bool
  | circularAlias _ => true
  | noResolvableMember _ first => first.isCircular
  | _ => false

open Attempt

namespace Schema

variable {g : Generator} {spec : Spec} {seen : List String} {v w : Value} {schema : Members}
  {reference next : String}

/-- The type of a value may be made of that of a part: of a member of its composition, of the items
of its list or of the values of its map. -/
inductive HasPart : Value → Value → Prop
  | member {schema : Members} {keyword : String} {items : List Value} {item : Value}
      (h : Members.get? schema "$ref" = none)
      (hc : composition? schema = some (keyword, .list items)) (hm : item ∈ items) :
      HasPart (.map schema) item
  | items {schema : Members} {v : Value} (h : ReadBy schema (.str "array"))
      (hi : Members.get? schema "items" = some v) : HasPart (.map schema) v
  | values {schema ms : Members} {type : Value} {m : Value × Value} (h : ReadBy schema type)
      (ho : isObjectType schema type = true)
      (ha : Members.get? schema "additionalProperties" = some (.map (m :: ms))) :
      HasPart (.map schema) (.map (m :: ms))

/-- The reference of a value stands for an alias that is not being replaced already. -/
structure Inlines (spec : Spec) (seen : List String) (v : Value) (reference : String)
    (schema : Members) : Prop where
  cites : v.get? "$ref" = some (.str reference)
  target : spec.resolve reference = .ok schema
  inlined : isAlias schema = .ok true
  fresh : reference ∉ seen

/-- The type of a reference, where `inline` gives the types of aliases. -/
def referenceStep (g : Generator) (spec : Spec) (seen : List String)
    (inline : String → Members → Attempt TargetType) (reference : String) : Attempt TargetType := do
  let name := Pointer.lastKey reference
  let schema ← spec.resolve reference
  if ← isAlias schema then
    if seen.contains reference then refuse (.circularAlias name) else inline reference schema
  else return g.target.modelType name

/-- The type of a value, where `part` gives the types of its parts and `inline` those of aliases. -/
def resolveStep (g : Generator) (spec : Spec) (seen : List String)
    (part : Value → Attempt TargetType) (inline : String → Members → Attempt TargetType) :
    Value → Attempt TargetType
  | .map schema => typeStep g (referenceStep g spec seen inline) part schema
  | v => refuse (.notMapping v.kindName)

/-- The search for the type of a value, with the aliases that are being replaced, ends with a
result: so do the searches that its step asks for, and their results make its own. -/
inductive Yields (g : Generator) (spec : Spec) : List String → Value → Attempt TargetType → Prop
  | step {seen : List String} {v : Value} {part : Value → Attempt TargetType}
      {inline : String → Members → Attempt TargetType}
      (hp : ∀ w, HasPart v w → Yields g spec seen w (part w))
      (hi : ∀ reference schema, Inlines spec seen v reference schema →
        Yields g spec (reference :: seen) (.map schema) (inline reference schema)) :
      Yields g spec seen v (resolveStep g spec seen part inline v)

/-- The search for the type of a value comes to that of another. -/
inductive Enters (spec : Spec) : List String → Value → List String → Value → Prop
  | here (seen : List String) (v : Value) : Enters spec seen v seen v
  | part {seen last : List String} {v w u : Value} (hp : HasPart v w)
      (h : Enters spec seen w last u) : Enters spec seen v last u
  | inline {seen last : List String} {v u : Value} {reference : String} {schema : Members}
      (hi : Inlines spec seen v reference schema)
      (h : Enters spec (reference :: seen) (.map schema) last u) : Enters spec seen v last u

/-! ## Steps -/

theorem HasPart.sizeOf_lt (h : HasPart v w) : sizeOf w < sizeOf v := by
  cases h with
  | member _ hc hm =>
      have hsize := sizeOf_lt_of_composition? hc
      have hlt := List.sizeOf_lt_of_mem hm
      rw [Value.list.sizeOf_spec] at hsize
      omega
  | items _ hi => exact sizeOf_lt_of_get? hi
  | values _ _ ha => exact sizeOf_lt_of_get? ha

theorem HasPart.refers (h : HasPart v w) (hr : Refers w reference) : Refers v reference := by
  cases h with
  | member _ hc hm => exact .member hc hm hr
  | items _ hi => exact .items hi hr
  | values _ _ ha => exact .values ha hr

theorem refers_of_get? (h : v.get? "$ref" = some (.str reference)) : Refers v reference := by
  cases v with
  | map schema => exact .direct h
  | _ => cases h

/-- The step from a schema depends on what it asks for only. -/
theorem typeStep_congr_parts {follow follow' : String → Attempt TargetType}
    {part part' : Value → Attempt TargetType}
    (hf : ∀ reference, Members.get? schema "$ref" = some (.str reference) →
      follow reference = follow' reference)
    (hp : ∀ w, HasPart (.map schema) w → part w = part' w) :
    typeStep g follow part schema = typeStep g follow' part' schema := by
  -- a step reads the reference, else the composition, else the type, and of it the items or the values
  cases hr : Members.get? schema "$ref" with
  | some found =>
      rw [typeStep, typeStep, hr]
      cases found with
      | str reference => exact hf reference hr
      | _ => rfl
  | none =>
      cases hc : composition? schema with
      | some entry =>
          obtain ⟨keyword, found⟩ := entry
          rw [typeStep, typeStep, hr, hc]
          cases found with
          | list items =>
              refine congrArg _ (List.map_congr_left fun item hm => funext fun _ => ?_)
              exact hp item (.member hr hc hm)
          | _ => rfl
      | none =>
          cases htype : concreteType (Members.getD schema "type" .null) with
          | error failure => rw [typeStep, typeStep, hr, hc, htype]; rfl
          | ok type =>
              have hread : ReadBy schema type := ⟨hr, hc, htype⟩
              rw [hread.typeStep, hread.typeStep]
              split
              next harray =>
                obtain rfl := Value.keyEq_str.mp harray
                split
                next => rfl
                next found hi => rw [hp found (.items hread hi)]
              next =>
                split
                next hobject =>
                  split
                  next => rfl
                  next => rfl
                  next m ms ha => rw [hp _ (.values hread hobject ha)]
                  next => rfl
                next => rfl

theorem referenceStep_congr {inline inline' : String → Members → Attempt TargetType}
    (hi : ∀ schema, spec.resolve reference = .ok schema → isAlias schema = .ok true →
      reference ∉ seen → inline reference schema = inline' reference schema) :
    referenceStep g spec seen inline reference = referenceStep g spec seen inline' reference := by
  refine Attempt.agree_eq.mp (.bind_same fun schema hs => .bind_same fun inlined ha =>
    Attempt.agree_eq.mpr ?_)
  cases inlined with
  | false => rfl
  | true =>
      by_cases hin : reference ∈ seen
      · simp [hin]
      · simp [hin, hi schema hs ha hin]

/-- A step depends on what it asks for only. -/
theorem resolveStep_congr {part part' : Value → Attempt TargetType}
    {inline inline' : String → Members → Attempt TargetType}
    (hp : ∀ w, HasPart v w → part w = part' w)
    (hi : ∀ reference schema, Inlines spec seen v reference schema →
      inline reference schema = inline' reference schema) :
    resolveStep g spec seen part inline v = resolveStep g spec seen part' inline' v := by
  cases v with
  | map schema =>
      exact typeStep_congr_parts (fun reference hr => referenceStep_congr fun target hs ha hin =>
        hi reference target ⟨hr, hs, ha, hin⟩) hp
  | _ => rfl

/-- The search for the type of a value ends with one result. -/
theorem Yields.unique {x y : Attempt TargetType} (hx : Yields g spec seen v x)
    (hy : Yields g spec seen v y) : x = y := by
  induction hx generalizing y with
  | step hp hi ihp ihi =>
      cases hy with
      | step hp' hi' =>
          -- the searches that both steps ask for have one result each
          exact resolveStep_congr (fun w hw => ihp w hw (hp' w hw)) fun reference schema h =>
            ihi reference schema h (hi' reference schema h)

/-! ## The end of the search -/

/-- With a hop to spare, a bounded search makes the step of the search without a bound. -/
theorem typeWith_eq_resolveStep (hops : Nat) (v : Value) :
    typeWith g (typeOfReference g spec (hops + 1) seen) v
      = resolveStep g spec seen (typeWith g (typeOfReference g spec (hops + 1) seen))
        (fun reference schema =>
          typeWith g (typeOfReference g spec hops (reference :: seen)) (.map schema)) v := by
  cases v with
  | map schema => exact typeWith_map
  | _ => simp only [typeWith, resolveStep]

/-- The search for the type of a value ends if those for the aliases that it comes to by its
references do; a part of the value is smaller than it. -/
theorem yields_of_aliases (hops : Nat)
    (h : ∀ reference schema, Refers v reference → spec.resolve reference = .ok schema →
      reference ∉ seen → Yields g spec (reference :: seen) (.map schema)
        (typeWith g (typeOfReference g spec hops (reference :: seen)) (.map schema))) :
    Yields g spec seen v (typeWith g (typeOfReference g spec (hops + 1) seen) v) := by
  -- the number of hops is fixed, so on the size of the value: its parts are smaller, and what they refer
  -- to it refers to
  induction hn : sizeOf v using Nat.strongRecOn generalizing v with
  | ind n ih =>
      rw [typeWith_eq_resolveStep]
      refine .step (fun w hw => ?_) fun reference schema hi => ?_
      · exact ih _ (hn ▸ hw.sizeOf_lt) (fun r target hr => h r target (hw.refers hr)) rfl
      · exact h reference schema (refers_of_get? hi.cites) hi.target hi.fresh

/-- Where there is room for each reference of a value, the search for its type ends: each alias
takes a hop, and the references in it are references of the document. -/
theorem yields_typeWith (hops : Nat)
    (h : ∀ reference, Refers v reference → ∃ first, reference ∈ first :: spec.citations
      ∧ Room (first :: spec.citations) (hops + 1) seen) :
    Yields g spec seen v (typeWith g (typeOfReference g spec (hops + 1) seen) v) := by
  induction hops generalizing seen v with
  | zero =>
      refine yields_of_aliases 0 fun reference schema hr _ hfresh => ?_
      obtain ⟨first, hmem, hroom⟩ := h reference hr
      -- all references of the document are being replaced where one hop is left, so this one is too
      exact absurd (hroom.step hfresh hmem).pos (Nat.lt_irrefl 0)
  | succ hops ih =>
      refine yields_of_aliases (hops + 1) fun reference schema hr hs hfresh => ?_
      obtain ⟨first, hmem, hroom⟩ := h reference hr
      refine ih fun next hnext => ⟨first, ?_, hroom.step hfresh hmem⟩
      obtain ⟨members, hn, href⟩ := nests_of_refers hnext
      exact List.mem_cons_of_mem _
        (Spec.mem_citations ((Spec.nests_of_resolve hs).trans hn) href)

/-- The search for the type of a value ends with what `resolve` gives. -/
theorem yields_resolve (g : Generator) (spec : Spec) (v : Value) :
    Yields g spec [] v (resolve g (some spec) v) := by
  rw [resolve]
  unfold Spec.chainBound
  exact yields_typeWith _ fun reference _ => ⟨reference, List.mem_cons_self,
    .of_chainBound_le (Nat.le_refl (Spec.chainBound spec.document)) reference⟩

/-! ## Circles of aliases -/

/-- The type of a value may be made of that of a reference. -/
inductive Asks : Value → String → Prop
  | here {v : Value} {reference : String} (h : v.get? "$ref" = some (.str reference)) :
      Asks v reference
  | part {v w : Value} {reference : String} (hp : HasPart v w) (h : Asks w reference) :
      Asks v reference

/-- The alias that one reference stands for may be made of that of another. -/
def AliasOf (spec : Spec) (reference next : String) : Prop :=
  ∃ schema, spec.resolve reference = .ok schema ∧ isAlias schema = .ok true
    ∧ Asks (.map schema) next

/-- No alias that a value comes to comes to itself. -/
def Acyclic (spec : Spec) (v : Value) : Prop :=
  ∀ reference last, Asks v reference → Relation.ReflTransGen (AliasOf spec) reference last →
    ¬Relation.TransGen (AliasOf spec) last last

/-- Aliases that go down by a rank come to no circle. -/
theorem acyclic_of_rank {Known : String → Prop} (rank : String → Nat)
    (hv : ∀ r, Asks v r → Known r)
    (hstep : ∀ r next, Known r → AliasOf spec r next → Known next ∧ rank next < rank r) :
    Acyclic spec v := by
  intro reference last hasks hreach hcycle
  have hlast : Known last := by
    clear hcycle
    induction hreach with
    | refl => exact hv _ hasks
    | tail _ h ih => exact (hstep _ _ ih h).1
  -- whatever `last` comes to is below it, so it does not come to itself
  have hdown : ∀ r, Relation.TransGen (AliasOf spec) last r → Known r ∧ rank r < rank last := by
    intro r hr
    induction hr with
    | single h => exact hstep _ _ hlast h
    | tail _ h ih =>
        obtain ⟨hknown, hlt⟩ := hstep _ _ ih.1 h
        exact ⟨hknown, hlt.trans ih.2⟩
  exact Nat.lt_irrefl _ (hdown last hcycle).2

/-- A search fails because of an alias that stands for itself, at whatever depth of a composition.
-/
def Circular (x : Attempt TargetType) : Prop :=
  ∃ subject fault, x = .error (.build subject (.schema fault)) ∧ fault.isCircular = true

/-- A value comes to no circle, and what is being replaced on the way to it leads to its references.
-/
structure Unwound (spec : Spec) (seen : List String) (v : Value) : Prop where
  acyclic : Acyclic spec v
  below : ∀ reference ∈ seen, ∀ next, Asks v next →
    Relation.TransGen (AliasOf spec) reference next

namespace Unwound

theorem start (h : Acyclic spec v) : Unwound spec [] v :=
  ⟨h, fun _ hin => absurd hin List.not_mem_nil⟩

theorem part (h : Unwound spec seen v) (hp : HasPart v w) : Unwound spec seen w :=
  ⟨fun reference last hr => h.acyclic reference last (.part hp hr),
    fun reference hin next hn => h.below reference hin next (.part hp hn)⟩

theorem inline (h : Unwound spec seen v) (hi : Inlines spec seen v reference schema) :
    Unwound spec (reference :: seen) (.map schema) where
  acyclic next last hn hl :=
    h.acyclic reference last (.here hi.cites) (.head ⟨schema, hi.target, hi.inlined, hn⟩ hl)
  below r hin next hn := by
    have hedge : AliasOf spec reference next := ⟨schema, hi.target, hi.inlined, hn⟩
    rcases List.mem_cons.mp hin with rfl | hin
    · exact .single hedge
    · exact (h.below r hin reference (.here hi.cites)).tail hedge

/-- What is being replaced is not met again. -/
theorem fresh (h : Unwound spec seen v) (hr : v.get? "$ref" = some (.str reference)) :
    reference ∉ seen := fun hin =>
  h.acyclic reference reference (.here hr) .refl (h.below reference hin reference (.here hr))

theorem enters {last : List String} (h : Unwound spec seen v) (he : Enters spec seen v last w) :
    Unwound spec last w := by
  induction he with
  | here _ _ => exact h
  | part hp _ ih => exact ih (h.part hp)
  | inline hi _ ih => exact ih (h.inline hi)

end Unwound

/-- A fault of a schema that is not because of an alias which stands for itself. -/
def IsStraight (_ : Value) (fault : BuildFault) : Prop :=
  ∃ f, fault = .schema f ∧ f.isCircular = false

theorem not_circular_of_faults {x : Attempt TargetType} (h : Faults IsStraight x) :
    ¬Circular x := by
  rintro ⟨subject, fault, rfl, hc⟩
  obtain ⟨f, he, hf⟩ := h _ rfl
  cases he
  rw [hf] at hc
  cases hc

theorem straight_refuse {α : Type} {fault : SchemaFault} (h : fault.isCircular = false) :
    Faults IsStraight (refuse fault : Attempt α) := faults_build ⟨fault, rfl, h⟩

theorem straight_concreteType (type : Value) : Faults IsStraight (concreteType type) := by
  unfold concreteType
  split
  · split
    · exact faults_ok _
    · exact straight_refuse rfl
  · exact faults_ok _

theorem straight_scalarType {type format : Value} :
    Faults IsStraight (scalarType g type format) := by
  unfold scalarType
  split
  · simp
  · split
    · exact faults_ok _
    · refine Generator.faults_settings.bind fun settings => ?_
      split
      · exact faults_pure _
      · split <;> exact straight_refuse rfl

/-- A composition without a type tells the first fault of its members. -/
theorem straight_firstResolvable {keyword : String} {first : Option SchemaFault}
    {members : List (Unit → Attempt TargetType)}
    (hf : ∀ fault ∈ first, fault.isCircular = false)
    (hm : ∀ member ∈ members, Faults IsStraight (member ())) :
    Faults IsStraight (firstResolvable keyword first members) := by
  induction members generalizing first with
  | nil =>
      cases first with
      | none => simp [firstResolvable]
      | some fault => exact straight_refuse (hf fault rfl)
  | cons member rest ih =>
      obtain ⟨hmember, hrest⟩ := List.forall_mem_cons.mp hm
      rw [firstResolvable]
      split
      next => exact faults_ok _
      next subject fault hfault =>
        -- the fault that is kept is the first, so a later one is not told
        refine ih (fun kept hk => ?_) hrest
        cases first with
        | some kept' =>
            cases hk
            exact hf _ rfl
        | none =>
            cases hk
            obtain ⟨f, he, hstraight⟩ := hmember _ hfault
            cases he
            exact hstraight
      next herr => exact hmember.error_congr herr

/-- A step has no fault of a circle but those of what it asks for. -/
theorem straight_typeStep {follow : String → Attempt TargetType}
    {part : Value → Attempt TargetType}
    (hf : ∀ reference, Members.get? schema "$ref" = some (.str reference) →
      Faults IsStraight (follow reference))
    (hp : ∀ w, HasPart (.map schema) w → Faults IsStraight (part w)) :
    Faults IsStraight (typeStep g follow part schema) := by
  cases hr : Members.get? schema "$ref" with
  | some found =>
      rw [typeStep, hr]
      cases found with
      | str reference => exact hf reference hr
      | _ => simp
  | none =>
      cases hc : composition? schema with
      | some entry =>
          obtain ⟨keyword, found⟩ := entry
          rw [typeStep, hr, hc]
          cases found with
          | list items =>
              refine straight_firstResolvable (by simp) fun member hm => ?_
              obtain ⟨item, hitem, rfl⟩ := List.mem_map.mp hm
              exact hp item (.member hr hc hitem)
          | _ =>
              dsimp only
              split
              · exact straight_refuse rfl
              · simp
      | none =>
          cases htype : concreteType (Members.getD schema "type" .null) with
          | error failure =>
              rw [typeStep, hr, hc, htype]
              exact (straight_concreteType _).error_congr htype
          | ok type =>
              have hread : ReadBy schema type := ⟨hr, hc, htype⟩
              rw [hread.typeStep]
              split
              next harray =>
                obtain rfl := Value.keyEq_str.mp harray
                split
                next => exact straight_refuse rfl
                next found hi => exact (hp found (.items hread hi)).bind fun _ => faults_pure _
              next =>
                split
                next hobject =>
                  split
                  next => exact faults_pure _
                  next => exact faults_pure _
                  next m ms ha =>
                    exact (hp _ (.values hread hobject ha)).bind fun _ => faults_pure _
                  next => exact faults_pure _
                next => exact straight_scalarType

theorem straight_referenceStep {inline : String → Members → Attempt TargetType}
    (hfresh : reference ∉ seen)
    (hi : ∀ schema, spec.resolve reference = .ok schema → isAlias schema = .ok true →
      Faults IsStraight (inline reference schema)) :
    Faults IsStraight (referenceStep g spec seen inline reference) := by
  refine (Spec.faults_resolve _).bind_of_ok fun schema hs =>
    (faults_isAlias _).bind_of_ok fun inlined ha => ?_
  cases inlined with
  | false => exact faults_pure _
  | true => simpa [hfresh] using hi schema hs ha

/-- Where no alias stands for itself, no search fails because one does. -/
theorem Yields.straight {x : Attempt TargetType} (h : Yields g spec seen v x)
    (hu : Unwound spec seen v) : Faults IsStraight x := by
  induction h with
  | @step seen v part inline _ _ ihp ihi =>
      cases v with
      | map schema =>
          refine straight_typeStep (fun reference hr => ?_) fun w hw => ihp w hw (hu.part hw)
          -- the reference is not being replaced, so its alias is not called circular here
          have hfresh := hu.fresh (v := .map schema) hr
          refine straight_referenceStep hfresh fun target hs ha => ?_
          have hi : Inlines spec seen (.map schema) reference target := ⟨hr, hs, ha, hfresh⟩
          exact ihi reference target hi (hu.inline hi)
      | _ => exact straight_refuse rfl

/-- In any document the search for the type of any value ends, without a bound, with the one result
that `resolve` gives. If no alias that the value comes to comes to itself, then neither that search
fails because of a circular alias nor any that it makes on its way, in members of compositions that
are passed over as well. -/
theorem resolve_terminates (g : Generator) (spec : Spec) (v : Value) :
    (∀ x, Yields g spec [] v x ↔ x = resolve g (some spec) v)
      ∧ (Acyclic spec v → ¬Circular (resolve g (some spec) v)
        ∧ ∀ seen w x, Enters spec [] v seen w → Yields g spec seen w x → ¬Circular x) := by
  have hyields := yields_resolve g spec v
  refine ⟨fun x => ⟨fun hx => hx.unique hyields, fun he => he ▸ hyields⟩, fun hacyclic => ?_⟩
  have hstart := Unwound.start hacyclic
  exact ⟨not_circular_of_faults (hyields.straight hstart),
    fun seen w x he hx => not_circular_of_faults (hx.straight (hstart.enters he))⟩

/-! ## What shapes of schemas ask for -/

theorem eq_of_asks_reference (hr : Members.get? schema "$ref" = some (.str reference))
    (h : Asks (.map schema) next) : next = reference := by
  cases h with
  | here href =>
      obtain rfl : reference = next := by simpa [Value.get?, hr] using href
      rfl
  | part hp _ =>
      cases hp with
      | member hnone _ _ => cases hr.symm.trans hnone
      | items hread _ => cases hr.symm.trans hread.reference
      | values hread _ _ => cases hr.symm.trans hread.reference

theorem asks_of_composition {keyword : String} {items : List Value}
    (hr : Members.get? schema "$ref" = none)
    (hc : composition? schema = some (keyword, .list items)) (h : Asks (.map schema) next) :
    ∃ item ∈ items, Asks item next := by
  cases h with
  | here href => simp [Value.get?, hr] at href
  | part hp h =>
      cases hp with
      | member _ hc' hm =>
          rw [hc] at hc'
          cases hc'
          exact ⟨_, hm, h⟩
      | items hread _ => cases hc.symm.trans hread.composition
      | values hread _ _ => cases hc.symm.trans hread.composition

/-- A list has its items as a part, and an object its values. -/
theorem HasPart.of_readBy {type : Value} (hread : ReadBy schema type) (hp : HasPart (.map schema) w) :
    type = .str "array" ∧ Members.get? schema "items" = some w
      ∨ isObjectType schema type = true
        ∧ Members.get? schema "additionalProperties" = some w := by
  cases hp with
  | member _ hc _ => cases hread.composition.symm.trans hc
  | items harray hi =>
      have htype := hread.concrete.symm.trans harray.concrete
      exact .inl ⟨Except.ok.inj htype, hi⟩
  | @values _ _ type' _ hobject ho ha =>
      have htype := hread.concrete.symm.trans hobject.concrete
      exact .inr ⟨Except.ok.inj htype ▸ ho, ha⟩

theorem asks_of_readBy {type : Value} (hread : ReadBy schema type) (h : Asks (.map schema) next) :
    type = .str "array" ∧ (∃ items, Members.get? schema "items" = some items ∧ Asks items next)
      ∨ isObjectType schema type = true
        ∧ ∃ values, Members.get? schema "additionalProperties" = some values
          ∧ Asks values next := by
  cases h with
  | here href => simp [Value.get?, hread.reference] at href
  | part hp h =>
      rcases hp.of_readBy hread with ⟨harray, hi⟩ | ⟨hobject, ha⟩
      · exact .inl ⟨harray, _, hi, h⟩
      · exact .inr ⟨hobject, _, ha, h⟩

end Schema

/-- Identifiers and lists of identifiers. -/
def Spec.idSchemas : Members := [
  (.str "Id", .map [(.str "type", .str "string")]),
  (.str "Ids", .map (Schema.listOf "Id"))]

/-- A choice whose first member has no type, and whose others use one alias side by side and inside
each other. -/
def Schema.idChoice : Members := [(.str "oneOf", .list [
  .map [(.str "type", .str "array")], .map (Schema.listOf "Ids"), .map (Schema.link "Ids"),
  .map (Schema.link "Id")])]

namespace Schema

theorem eq_of_asks_listOf {name : String} (h : Asks (.map (listOf name)) next) :
    next = "#/components/schemas/" ++ name := by
  have hread : ReadBy (listOf name) (.str "array") := ⟨rfl, rfl, rfl⟩
  obtain ⟨-, items, hi, h⟩ | ⟨ho, -⟩ := asks_of_readBy hread h
  · cases hi
    exact eq_of_asks_reference rfl h
  · cases ho

theorem aliasOf_ids (h : AliasOf (.ofSchemas Spec.idSchemas) "#/components/schemas/Ids" next) :
    next = "#/components/schemas/Id" := by
  obtain ⟨schema, hs, -, hasks⟩ := h
  cases hs
  exact eq_of_asks_listOf hasks

theorem not_aliasOf_id : ¬AliasOf (.ofSchemas Spec.idSchemas) "#/components/schemas/Id" next := by
  rintro ⟨schema, hs, -, hasks⟩
  cases hs
  have hread : ReadBy [(.str "type", .str "string")] (.str "string") := ⟨rfl, rfl, rfl⟩
  obtain ⟨harray, -⟩ | ⟨ho, -⟩ := asks_of_readBy hread hasks
  · exact absurd harray (by simp)
  · cases ho

theorem asks_idChoice (h : Asks (.map idChoice) next) :
    next = "#/components/schemas/Ids" ∨ next = "#/components/schemas/Id" := by
  obtain ⟨item, hm, h⟩ := asks_of_composition rfl rfl h
  simp only [List.mem_cons, List.not_mem_nil, or_false] at hm
  rcases hm with rfl | rfl | rfl | rfl
  · have hread : ReadBy [(.str "type", .str "array")] (.str "array") := ⟨rfl, rfl, rfl⟩
    obtain ⟨-, items, hi, -⟩ | ⟨ho, -⟩ := asks_of_readBy hread h
    · cases hi
    · cases ho
  · exact .inl (eq_of_asks_listOf h)
  · exact .inl (eq_of_asks_reference rfl h)
  · exact .inr (eq_of_asks_reference rfl h)

theorem acyclic_idChoice : Acyclic (.ofSchemas Spec.idSchemas) (.map idChoice) := by
  refine acyclic_of_rank (fun r => if r = "#/components/schemas/Ids" then 1 else 0)
    (fun r hr => asks_idChoice hr) ?_
  rintro r next (rfl | rfl) h
  · obtain rfl := aliasOf_ids h
    exact ⟨.inr rfl, by decide⟩
  · exact absurd h not_aliasOf_id

/-- The choice among identifiers and lists of them is no circle, however often it uses one alias. -/
theorem resolve_terminates_idChoice :
    Acyclic (.ofSchemas Spec.idSchemas) (.map idChoice)
      ∧ ¬Circular (resolve (Generator.ofTarget .jaxrsSpec []) (some (.ofSchemas Spec.idSchemas))
        (.map idChoice)) := by
  have h := resolve_terminates (Generator.ofTarget .jaxrsSpec []) (.ofSchemas Spec.idSchemas)
    (.map idChoice)
  exact ⟨acyclic_idChoice, (h.2 acyclic_idChoice).1⟩

end Schema

end ApiScaffold
