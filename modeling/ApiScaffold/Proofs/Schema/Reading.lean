import ApiScaffold.Proofs.Document.Rearranged
import ApiScaffold.Proofs.Schema.Alike

/-!
# How a schema is read

How a schema comes to its type, case by case: by its reference, by the first member of a composition
that has a type, or by its own type, as a list, a map, an object or a scalar. The cases exclude each
other, and a schema has a type exactly if one of them gives it.

`Reads` has one constructor for each case. `reads_of_typeStep` finds the case of a schema that has a
type, and `Reads.typeStep` gives the type for each case; `typeStep_eq_ok` and `typeWith_eq_ok` are
both directions, and later modules open the search for a type by them.
-/

namespace ApiScaffold

namespace Schema

variable {g : Generator} {follow : String → Attempt TargetType} {schema : Members}
  {type format : Value} {t : TargetType}

/-- An attempt at a type fails for a fault of a schema, so that other members of a composition are
tried. -/
def Faulty (attempt : Attempt TargetType) : Prop :=
  ∃ subject fault, attempt = .error (.build subject (.schema fault))

/-- A composition has the type of its first member with one, after faulty ones. -/
theorem firstResolvable_eq_ok {keyword : String} {first : Option SchemaFault}
    {members : List (Unit → Attempt TargetType)} :
    firstResolvable keyword first members = .ok t ↔
      ∃ before member after, members = before ++ member :: after
        ∧ (∀ other ∈ before, Faulty (other ())) ∧ member () = .ok t := by
  induction members generalizing first with
  | nil => cases first <;> simp [firstResolvable, refuse]
  | cons head rest ih =>
      rw [firstResolvable]
      constructor
      · intro h
        split at h
        next found hfound =>
          cases h
          exact ⟨[], head, rest, rfl, by simp, hfound⟩
        next subject fault hfault =>
          obtain ⟨before, member, after, rfl, hbefore, hmember⟩ := ih.mp h
          refine ⟨head :: before, member, after, rfl, ?_, hmember⟩
          exact List.forall_mem_cons.mpr ⟨⟨subject, fault, hfault⟩, hbefore⟩
        next => cases h
      · rintro ⟨before, member, after, hsplit, hbefore, hmember⟩
        cases before with
        | nil =>
            cases hsplit
            rw [hmember]
        | cons other before =>
            cases hsplit
            obtain ⟨⟨subject, fault, hfault⟩, hrest⟩ := List.forall_mem_cons.mp hbefore
            rw [hfault]
            exact ih.mpr ⟨before, member, after, rfl, hrest, hmember⟩

/-- The entry that the type and format of a scalar have: that of the type map, or that of objects
where types may be unknown. -/
def HasMapping (g : Generator) (type format : Value) (m : TypeMapping) : Prop :=
  type.isKey = true ∧ format.isKey = true
    ∧ (mapping? g.target type format = some m
      ∨ mapping? g.target type format = none ∧ m = g.target.genericObject
        ∧ ∃ settings, g.settings? = some settings ∧ settings.permissiveTypes = true)

theorem settings_eq_ok {settings : Settings} :
    g.settings = .ok settings ↔ g.settings? = some settings := by
  unfold Generator.settings
  cases g.settings? <;> simp

theorem scalarType_eq_ok :
    scalarType g type format = .ok t ↔ ∃ m, HasMapping g type format m ∧ t = m.toType := by
  unfold scalarType HasMapping
  cases hkeys : (!type.isKey || !format.isKey) with
  | true =>
      -- what cannot be a key has no entry
      have hno : ¬(type.isKey = true ∧ format.isKey = true) := by
        rintro ⟨ht, hf⟩
        simp [ht, hf] at hkeys
      simp only [if_true]
      constructor
      · intro h
        cases h
      · rintro ⟨m, ⟨ht, hf, -⟩, -⟩
        exact absurd ⟨ht, hf⟩ hno
  | false =>
      obtain ⟨ht, hf⟩ : type.isKey = true ∧ format.isKey = true := by simpa using hkeys
      simp only [ht, hf, true_and, Bool.false_eq_true, if_false]
      cases hm : mapping? g.target type format with
      | some m =>
          simp only [Except.ok.injEq, Option.some.injEq, reduceCtorEq, false_and, or_false]
          exact ⟨fun h => ⟨m, rfl, h.symm⟩, fun ⟨_, hm, ht⟩ => by rw [hm, ht]⟩
      | none =>
          simp only [Attempt.bind_eq_ok, settings_eq_ok, reduceCtorEq, true_and, false_or]
          constructor
          · rintro ⟨settings, hs, h⟩
            split at h
            next hp =>
              cases h
              exact ⟨_, ⟨rfl, settings, hs, hp⟩, rfl⟩
            next => split at h <;> cases h
          · rintro ⟨_, ⟨rfl, settings, hs, hp⟩, rfl⟩
            exact ⟨settings, hs, by rw [if_pos hp]⟩

/-- A schema without a reference and without a composition is read by a type. -/
structure ReadBy (schema : Members) (type : Value) : Prop where
  reference : Members.get? schema "$ref" = none
  composition : composition? schema = none
  concrete : concreteType (Members.getD schema "type" .null) = .ok type

/-- Whether a schema is read as an object: by its type, or by its properties if it has no type. -/
def isObjectType (schema : Members) (type : Value) : Bool :=
  type.keyEq (.str "object") || (type.keyEq .null && Members.has schema "properties")

/-- A schema without a further word on the values of other properties. -/
def LeavesValues (schema : Members) : Prop :=
  (∀ members, Members.get? schema "additionalProperties" ≠ some (.map members))
    ∧ Members.get? schema "additionalProperties" ≠ some (.bool true)

/-- The ways in which a schema comes to a type, where `follow` gives the types of references. -/
inductive Reads (g : Generator) (follow : String → Attempt TargetType) (schema : Members) :
    TargetType → Prop
  | reference {r : String} {t : TargetType} (h : Members.get? schema "$ref" = some (.str r))
      (ht : follow r = .ok t) : Reads g follow schema t
  | member {keyword : String} {before after : List Value} {item : Value} {t : TargetType}
      (h : Members.get? schema "$ref" = none)
      (hc : composition? schema = some (keyword, .list (before ++ item :: after)))
      (hb : ∀ v ∈ before, Faulty (typeWith g follow v)) (ht : typeWith g follow item = .ok t) :
      Reads g follow schema t
  | list {v : Value} {item : TargetType} (h : ReadBy schema (.str "array"))
      (hi : Members.get? schema "items" = some v) (ht : typeWith g follow v = .ok item) :
      Reads g follow schema (g.target.listType item)
  | values {type : Value} {m : Value × Value} {ms : Members} {item : TargetType}
      (h : ReadBy schema type) (ho : isObjectType schema type = true)
      (ha : Members.get? schema "additionalProperties" = some (.map (m :: ms)))
      (ht : typeWith g follow (.map (m :: ms)) = .ok item) :
      Reads g follow schema (g.target.mapType item)
  | anyValues {type : Value} (h : ReadBy schema type) (ho : isObjectType schema type = true)
      (ha : Members.get? schema "additionalProperties" = some (.map [])
        ∨ Members.get? schema "additionalProperties" = some (.bool true)) :
      Reads g follow schema (g.target.mapType g.target.genericObject.toType)
  | object {type : Value} (h : ReadBy schema type) (ho : isObjectType schema type = true)
      (ha : LeavesValues schema) : Reads g follow schema g.target.genericObject.toType
  | scalar {type : Value} {m : TypeMapping} (h : ReadBy schema type) (hl : type ≠ .str "array")
      (ho : isObjectType schema type = false)
      (hm : HasMapping g type (Members.getD schema "format" .null) m) :
      Reads g follow schema m.toType

/-- The type of a schema that is read by a type. -/
theorem ReadBy.typeStep {part : Value → Attempt TargetType} (h : ReadBy schema type) :
    typeStep g follow part schema =
      if type.keyEq (.str "array") then
        match Members.get? schema "items" with
        | none => refuse .arrayWithoutItems
        | some items => return g.target.listType (← part items)
      else if isObjectType schema type then
        match Members.get? schema "additionalProperties" with
        | some (.map []) | some (.bool true) =>
          return g.target.mapType g.target.genericObject.toType
        | some (.map (m :: ms)) => return g.target.mapType (← part (.map (m :: ms)))
        | _ => return g.target.genericObject.toType
      else scalarType g type (Members.getD schema "format" .null) := by
  rw [Schema.typeStep]
  simp only [h.reference, h.composition, h.concrete]
  rfl

theorem keyEq_array_of_isObjectType (h : isObjectType schema type = true) :
    type.keyEq (.str "array") = false := by
  rw [Bool.eq_false_iff]
  intro harray
  rw [Value.keyEq_str.mp harray] at h
  simp [isObjectType, Value.keyEq, Value.ratio?] at h

/-- A schema that is read by a type comes to it as a list, a map, an object or a scalar. -/
theorem reads_of_readBy (hread : ReadBy schema type)
    (h : typeStep g follow (typeWith g follow) schema = .ok t) : Reads g follow schema t := by
  rw [hread.typeStep] at h
  split at h
  next harray =>
    obtain rfl := Value.keyEq_str.mp harray
    split at h
    next => cases h
    next v hv =>
      obtain ⟨item, hitem, h⟩ := Attempt.bind_eq_ok.mp h
      cases h
      exact .list hread hv hitem
  next harray =>
    split at h
    next hobject =>
      split at h
      next ha =>
        cases h
        exact .anyValues hread hobject (.inl ha)
      next ha =>
        cases h
        exact .anyValues hread hobject (.inr ha)
      next m ms ha =>
        obtain ⟨item, hitem, h⟩ := Attempt.bind_eq_ok.mp h
        cases h
        exact .values hread hobject ha hitem
      next hempty htrue hmap =>
        cases h
        refine .object hread hobject ⟨fun members ha => ?_, htrue⟩
        cases members with
        | nil => exact hempty ha
        | cons m ms => exact hmap m ms ha
    next hobject =>
      obtain ⟨m, hm, rfl⟩ := scalarType_eq_ok.mp h
      exact .scalar hread (fun heq => harray (Value.keyEq_str.mpr heq))
        (Bool.eq_false_iff.mpr hobject) hm

theorem reads_of_typeStep (h : typeStep g follow (typeWith g follow) schema = .ok t) :
    Reads g follow schema t := by
  cases hr : Members.get? schema "$ref" with
  | some v =>
      rw [typeStep, hr] at h
      cases v with
      | str r => exact .reference hr h
      | _ => cases h
  | none =>
      cases hc : composition? schema with
      | some entry =>
          obtain ⟨keyword, v⟩ := entry
          rw [typeStep, hr, hc] at h
          cases v with
          | list items =>
              obtain ⟨before, member, after, hsplit, hbefore, hmember⟩ :=
                firstResolvable_eq_ok.mp h
              obtain ⟨first, rest, rfl, rfl, hrest⟩ := List.map_eq_append_iff.mp hsplit
              obtain ⟨item, last, rfl, rfl, rfl⟩ := List.map_eq_cons_iff.mp hrest
              exact .member hr hc (fun v hv => hbefore _ (List.mem_map.mpr ⟨v, hv, rfl⟩)) hmember
          | _ => dsimp only at h; split at h <;> cases h
      | none =>
          cases htype : concreteType (Members.getD schema "type" .null) with
          | error failure =>
              rw [typeStep, hr, hc, htype] at h
              cases h
          | ok type => exact reads_of_readBy ⟨hr, hc, htype⟩ h

theorem Reads.typeStep (h : Reads g follow schema t) :
    typeStep g follow (typeWith g follow) schema = .ok t := by
  cases h with
  | reference hr ht =>
      rw [Schema.typeStep, hr]
      exact ht
  | @member keyword before after item _ hr hc hb ht =>
      rw [Schema.typeStep, hr, hc]
      refine firstResolvable_eq_ok.mpr
        ⟨before.map fun v _ => typeWith g follow v, fun _ => typeWith g follow item,
          after.map fun v _ => typeWith g follow v, by simp, fun other hother => ?_, ht⟩
      obtain ⟨v, hv, rfl⟩ := List.mem_map.mp hother
      exact hb v hv
  | list h hi ht =>
      rw [h.typeStep, if_pos (Value.keyEq_str.mpr rfl), hi]
      exact Attempt.bind_eq_ok.mpr ⟨_, ht, rfl⟩
  | values h ho ha ht =>
      rw [h.typeStep, if_neg (by simp [keyEq_array_of_isObjectType ho]), if_pos ho, ha]
      exact Attempt.bind_eq_ok.mpr ⟨_, ht, rfl⟩
  | anyValues h ho ha =>
      rw [h.typeStep, if_neg (by simp [keyEq_array_of_isObjectType ho]), if_pos ho]
      rcases ha with ha | ha <;> rw [ha] <;> rfl
  | object h ho ha =>
      rw [h.typeStep, if_neg (by simp [keyEq_array_of_isObjectType ho]), if_pos ho]
      split
      next he => exact absurd he (ha.1 _)
      next he => exact absurd he ha.2
      next he => exact absurd he (ha.1 _)
      next => rfl
  | scalar h hl ho hm =>
      rw [h.typeStep, if_neg fun he => hl (Value.keyEq_str.mp he), if_neg (by simp [ho])]
      exact scalarType_eq_ok.mpr ⟨_, hm, rfl⟩

/-- A schema has the type that it is read to have, and no other. -/
theorem typeStep_eq_ok :
    typeStep g follow (typeWith g follow) schema = .ok t ↔ Reads g follow schema t :=
  ⟨reads_of_typeStep, Reads.typeStep⟩

/-- A value has a type exactly if it is a schema that comes to it. -/
theorem typeWith_eq_ok {v : Value} :
    typeWith g follow v = .ok t ↔ ∃ schema, v = .map schema ∧ Reads g follow schema t := by
  constructor
  · intro h
    cases v with
    | map schema => exact ⟨schema, rfl, typeStep_eq_ok.mp (typeWith_map ▸ h)⟩
    | _ => simp [typeWith, refuse] at h
  · rintro ⟨schema, rfl, h⟩
    rw [typeWith_map]
    exact typeStep_eq_ok.mpr h

end Schema

end ApiScaffold
