import ApiScaffold.Proofs.Document.Value
import ApiScaffold.Schema.Resolve

/-!
# Where the type of a schema comes from

From the type map of the target, from lists and maps of types, and from the classes of the schemas
that it reaches by its references, those of aliases included.

* `Refers`: the references that the type of a value may come from, before any of them is followed.
  `Reaches` follows them, through aliases and not through classes.
* `Source`: what the type of a schema may be, and `typeWith_ok`: it is one of these.
* `Closed`: a property of types that the entries of a target have, and lists and maps of such types.
  `resolve_closed`: the type of a schema has it if the classes that the schema reaches have it. What
  is proved later of imports, layers and lone halves is proved of the entries only.
-/

namespace ApiScaffold

/-- The entries that a target's types are taken from. -/
def Target.mappings (t : Target) : List TypeMapping := t.genericObject :: t.typeMap.map Prod.snd

namespace Schema

/-- A property of types that the entries of a target have, and lists and maps of such types. -/
structure Closed (t : Target) (P : TargetType → Prop) : Prop where
  mapping : ∀ m ∈ t.mappings, P m.toType
  list : ∀ item, P item → P (t.listType item)
  map : ∀ item, P item → P (t.mapType item)

/-- The references that the type of a value may come from, before any of them is followed. -/
inductive Refers : Value → String → Prop
  | direct {schema : Members} {reference : String}
      (h : Members.get? schema "$ref" = some (.str reference)) : Refers (.map schema) reference
  | member {schema : Members} {keyword reference : String} {items : List Value} {item : Value}
      (h : composition? schema = some (keyword, .list items)) (hm : item ∈ items)
      (hr : Refers item reference) : Refers (.map schema) reference
  | items {schema : Members} {reference : String} {v : Value}
      (h : Members.get? schema "items" = some v) (hr : Refers v reference) :
      Refers (.map schema) reference
  | values {schema : Members} {reference : String} {v : Value}
      (h : Members.get? schema "additionalProperties" = some v) (hr : Refers v reference) :
      Refers (.map schema) reference

/-- The references to classes that a value reaches, through aliases and not through classes. -/
inductive Reaches (spec : Spec) : Value → String → Prop
  | model {v : Value} {reference : String} {schema : Members} (hr : Refers v reference)
      (hs : spec.resolve reference = .ok schema) (ha : isAlias schema = .ok false) :
      Reaches spec v reference
  | through {v : Value} {reference last : String} {schema : Members} (hr : Refers v reference)
      (hs : spec.resolve reference = .ok schema) (ha : isAlias schema = .ok true)
      (hl : Reaches spec (.map schema) last) : Reaches spec v last

theorem mem_of_composition? {schema : Members} {keyword : String} {v : Value}
    (h : composition? schema = some (keyword, v)) :
    keyword ∈ compositionKeywords ∧ Members.get? schema keyword = some v := by
  obtain ⟨k, hk, hfound⟩ := List.exists_of_findSome?_eq_some h
  cases hget : Members.get? schema k with
  | none => simp [hget] at hfound
  | some w =>
      simp only [hget] at hfound
      split at hfound
      · cases hfound
        exact ⟨hk, hget⟩
      · cases hfound

/-- A schema without its allowed values refers to what it refers to with them. -/
theorem refers_of_erase {schema : Members} {reference : String}
    (h : Refers (.map (Members.erase schema "enum")) reference) :
    Refers (.map schema) reference := by
  have hget : ∀ {key : String}, key ≠ "enum" →
      Members.get? (Members.erase schema "enum") key = Members.get? schema key :=
    fun hk => Members.get?_erase_of_ne hk
  have hcomposition : composition? (Members.erase schema "enum") = composition? schema := by
    simp only [composition?, compositionKeywords, List.findSome?_cons, List.findSome?_nil,
      hget (show "allOf" ≠ "enum" by decide), hget (show "oneOf" ≠ "enum" by decide),
      hget (show "anyOf" ≠ "enum" by decide)]
  cases h with
  | direct href => exact .direct (by rwa [hget (by decide)] at href)
  | member hc hm hr => exact .member (hcomposition ▸ hc) hm hr
  | items hi hr => exact .items (by rwa [hget (by decide)] at hi) hr
  | values ha hr => exact .values (by rwa [hget (by decide)] at ha) hr

theorem firstResolvable_ok {keyword : String} {first : Option SchemaFault}
    {members : List (Unit → Attempt TargetType)} {type : TargetType}
    (h : firstResolvable keyword first members = .ok type) :
    ∃ member ∈ members, member () = .ok type := by
  induction members generalizing first with
  | nil => cases first <;> simp [firstResolvable, refuse] at h
  | cons member rest ih =>
      rw [firstResolvable] at h
      split at h
      next t ht =>
        cases h
        exact ⟨member, List.mem_cons_self, ht⟩
      next =>
        obtain ⟨other, ho, hok⟩ := ih h
        exact ⟨other, List.mem_cons_of_mem _ ho, hok⟩
      next => cases h

theorem mapping?_mem {t : Target} {type format : Value} {m : TypeMapping}
    (h : mapping? t type format = some m) : m ∈ t.mappings := by
  have hfound : ∀ {key : String × Option String}, t.typeMap.lookup key = some m →
      m ∈ t.mappings := fun hl =>
    List.mem_cons_of_mem _ (List.mem_map.mpr ⟨_, mem_of_lookup hl, rfl⟩)
  unfold mapping? at h
  split at h
  next =>
    rw [Option.orElse_eq_orElse, Option.orElse_eq_or] at h
    rcases Option.or_eq_some_iff.mp h with he | ⟨-, hl⟩
    · split at he
      · exact hfound he
      · exact hfound he
      · cases he
    · exact hfound hl
  next => cases h

theorem scalarType_ok {g : Generator} {type format : Value} {t : TargetType}
    (h : scalarType g type format = .ok t) : ∃ m ∈ g.target.mappings, t = m.toType := by
  unfold scalarType at h
  split at h
  · cases h
  · split at h
    next m hm =>
      cases h
      exact ⟨m, mapping?_mem hm, rfl⟩
    next =>
      obtain ⟨s, -, h⟩ := Attempt.bind_eq_ok.mp h
      split at h
      · cases h
        exact ⟨_, List.mem_cons_self, rfl⟩
      · split at h <;> cases h

/-- The type of a reference is that of what it is followed to. -/
theorem typeWith_reference {g : Generator} {follow : String → Attempt TargetType}
    {schema : Members} {reference : String}
    (h : Members.get? schema "$ref" = some (.str reference)) :
    typeWith g follow (.map schema) = follow reference := by
  rw [typeWith]
  simp only [h]

/-- The type of a list, where no reference and no composition stands in its way. -/
theorem typeWith_list {g : Generator} {follow : String → Attempt TargetType} {schema : Members}
    {items : Value} (hr : Members.get? schema "$ref" = none) (hc : composition? schema = none)
    (ht : Members.getD schema "type" .null = .str "array")
    (hi : Members.get? schema "items" = some items) :
    typeWith g follow (.map schema) = (typeWith g follow items).map g.target.listType := by
  rw [typeWith]
  simp only [hr, ht, concreteType]
  split
  next h => rw [hc] at h; cases h
  next h => rw [hc] at h; cases h
  next =>
    simp only [Value.keyEq, beq_self_eq_true, if_true, Bind.bind, Except.bind]
    split
    next h => rw [hi] at h; cases h
    next v h =>
      rw [hi] at h
      cases h
      rfl

/-- The type of a scalar, where no reference and no composition stands in its way. -/
theorem typeWith_scalar {g : Generator} {follow : String → Attempt TargetType} {schema : Members}
    {type : String} (hr : Members.get? schema "$ref" = none) (hc : composition? schema = none)
    (ht : Members.getD schema "type" .null = .str type) (ha : type ≠ "array")
    (ho : type ≠ "object") :
    typeWith g follow (.map schema)
      = scalarType g (.str type) (Members.getD schema "format" .null) := by
  rw [typeWith]
  simp only [hr, ht, concreteType]
  split
  next h => rw [hc] at h; cases h
  next h => rw [hc] at h; cases h
  next => simp [Value.keyEq, Value.ratio?, Bind.bind, Except.bind, ha, ho]

/-- What the type of a schema may be. -/
inductive Source (g : Generator) (follow : String → Attempt TargetType) (schema : Members) :
    TargetType → Prop
  | reference {reference : String} {t : TargetType}
      (h : Members.get? schema "$ref" = some (.str reference)) (ht : follow reference = .ok t) :
      Source g follow schema t
  | member {keyword : String} {items : List Value} {item : Value} {t : TargetType}
      (h : composition? schema = some (keyword, .list items)) (hm : item ∈ items)
      (ht : typeWith g follow item = .ok t) : Source g follow schema t
  | items {v : Value} {item : TargetType} (h : Members.get? schema "items" = some v)
      (ht : typeWith g follow v = .ok item) : Source g follow schema (g.target.listType item)
  | values {v : Value} {item : TargetType}
      (h : Members.get? schema "additionalProperties" = some v)
      (ht : typeWith g follow v = .ok item) : Source g follow schema (g.target.mapType item)
  | anyValues : Source g follow schema (g.target.mapType g.target.genericObject.toType)
  | mapped {m : TypeMapping} (h : m ∈ g.target.mappings) : Source g follow schema m.toType

/-- A value with a type is a schema, and its type has a source. -/
theorem typeWith_ok {g : Generator} {follow : String → Attempt TargetType} {v : Value}
    {t : TargetType} (h : typeWith g follow v = .ok t) :
    ∃ schema, v = .map schema ∧ Source g follow schema t := by
  cases v with
  | map schema =>
      refine ⟨schema, rfl, ?_⟩
      rw [typeWith] at h
      split at h
      next reference href => exact .reference href h
      next => cases h
      next =>
        split at h
        next keyword items hc =>
          obtain ⟨member, hm, hok⟩ := firstResolvable_ok h
          obtain ⟨item, -, rfl⟩ := List.mem_map.mp hm
          exact .member hc item.2 hok
        next => split at h <;> cases h
        next =>
          obtain ⟨type, -, h⟩ := Attempt.bind_eq_ok.mp h
          split at h
          · split at h
            next => cases h
            next v hv =>
              obtain ⟨item, hi, h⟩ := Attempt.bind_eq_ok.mp h
              cases h
              exact .items hv hi
          · split at h
            · split at h
              next =>
                cases h
                exact .anyValues
              next =>
                cases h
                exact .anyValues
              next m ms hv =>
                obtain ⟨item, hi, h⟩ := Attempt.bind_eq_ok.mp h
                cases h
                exact .values hv hi
              next =>
                cases h
                exact .mapped List.mem_cons_self
            · obtain ⟨m, hm, rfl⟩ := scalarType_ok h
              exact .mapped hm
  | _ => simp [typeWith, refuse] at h

/-- The type of a reference is a class, or that of an alias. -/
theorem typeOfTarget_ok {g : Generator} {spec : Spec} {seen : List String} {reference : String}
    {next? : Option (String → Attempt TargetType)} {t : TargetType}
    (h : typeOfTarget g spec seen reference next? = .ok t) :
    ∃ schema, spec.resolve reference = .ok schema
      ∧ ((isAlias schema = .ok false ∧ t = g.target.modelType (Pointer.lastKey reference))
        ∨ (isAlias schema = .ok true
          ∧ ∃ next, next? = some next ∧ typeWith g next (.map schema) = .ok t)) := by
  obtain ⟨schema, hs, h⟩ := Attempt.bind_eq_ok.mp h
  obtain ⟨inlined, ha, h⟩ := Attempt.bind_eq_ok.mp h
  refine ⟨schema, hs, ?_⟩
  cases inlined with
  | false =>
      cases h
      exact .inl ⟨ha, rfl⟩
  | true =>
      simp only [if_true] at h
      split at h
      · cases h
      · cases next? with
        | none => cases h
        | some next => exact .inr ⟨ha, next, rfl, h⟩

/-! ## Properties of types -/

section

variable {g : Generator} {P : TargetType → Prop} (hP : Closed g.target P)
include hP

/-- A type has a property of types if the types of its references have it. -/
theorem typeWith_closed {follow : String → Attempt TargetType} (v : Value) :
    ∀ t, (∀ reference t, Refers v reference → follow reference = .ok t → P t) →
      typeWith g follow v = .ok t → P t := by
  induction hn : sizeOf v using Nat.strongRecOn generalizing v with
  | ind n ih =>
      intro t hf h
      obtain ⟨schema, rfl, hs⟩ := typeWith_ok h
      cases hs with
      | reference href ht => exact hf _ t (.direct href) ht
      | @member keyword items item _ hc hm ht =>
          have hlt : sizeOf item < n := by
            have h1 := sizeOf_lt_of_composition? hc
            have h2 := List.sizeOf_lt_of_mem hm
            simp only [Value.list.sizeOf_spec] at h1
            omega
          exact ih _ hlt item rfl t (fun r t hr => hf r t (.member hc hm hr)) ht
      | @items v item hv ht =>
          have hlt : sizeOf v < n := hn ▸ sizeOf_lt_of_get? hv
          exact hP.list _ (ih _ hlt v rfl item (fun r t hr => hf r t (.items hv hr)) ht)
      | @values v item hv ht =>
          have hlt : sizeOf v < n := hn ▸ sizeOf_lt_of_get? hv
          exact hP.map _ (ih _ hlt v rfl item (fun r t hr => hf r t (.values hv hr)) ht)
      | anyValues => exact hP.map _ (hP.mapping _ List.mem_cons_self)
      | mapped hm => exact hP.mapping _ hm

theorem typeOfReference_closed {spec : Spec} {hops : Nat} {seen : List String}
    {reference : String} {v : Value} {t : TargetType} (hr : Refers v reference)
    (hv : ∀ last, Reaches spec v last → P (g.target.modelType (Pointer.lastKey last)))
    (h : typeOfReference g spec hops seen reference = .ok t) : P t := by
  induction hops generalizing seen reference v t with
  | zero =>
      obtain ⟨schema, hs, ⟨ha, rfl⟩ | ⟨-, next, hnext, -⟩⟩ := typeOfTarget_ok h
      · exact hv _ (.model hr hs ha)
      · cases hnext
  | succ hops ih =>
      obtain ⟨schema, hs, ⟨ha, rfl⟩ | ⟨ha, next, hnext, ht⟩⟩ := typeOfTarget_ok h
      · exact hv _ (.model hr hs ha)
      · cases hnext
        refine typeWith_closed hP _ t (fun r u hru hu => ?_) ht
        exact ih hru (fun last hl => hv last (.through hr hs ha hl)) hu

/-- The type of a schema in a document has a property of types if the classes that it reaches have
it. -/
theorem resolve_closed {spec : Spec} {v : Value} {t : TargetType}
    (hv : ∀ reference, Reaches spec v reference →
      P (g.target.modelType (Pointer.lastKey reference)))
    (h : resolve g (some spec) v = .ok t) : P t :=
  typeWith_closed hP v t (fun _ _ hr ht => typeOfReference_closed hP hr hv ht) h

end

end Schema

end ApiScaffold
