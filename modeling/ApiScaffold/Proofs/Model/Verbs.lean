import ApiScaffold.Proofs.Model.Accessors

/-!
# The verbs of getters

A type is a list or a map, to any depth, of a type that is neither (`MadeOf`). The verb of a getter
comes from the type at the bottom, and not from that of the property. So it follows the property
unless that is a list or a map of truth values, which is asked for as if it were one of them.

`Property.HasVerbOfType` says what is meant: the getter asks a question if the property is a truth
value, and gets else. `getter_hasVerbOfType_iff` is about every property that is built, and the
flags of a ballot are a case of each kind.
-/

namespace ApiScaffold

namespace Target

/-- A type is made of another, which is no list and no map, by lists and maps of any depth. -/
inductive MadeOf (t : Target) (inner : TargetType) : TargetType → Prop
  | self (h : inner.isContainer = false) : MadeOf t inner inner
  | list {item : TargetType} (h : MadeOf t inner item) : MadeOf t inner (t.listType item)
  | map {item : TargetType} (h : MadeOf t inner item) : MadeOf t inner (t.mapType item)

namespace MadeOf

variable {t : Target} {inner type : TargetType}

theorem base (h : t.MadeOf inner type) : type.base = inner.base := by
  induction h with
  | self => rfl
  | list _ ih => exact ih
  | map _ ih => exact ih

theorem eq_of_not_container (h : t.MadeOf inner type) (hc : type.isContainer = false) :
    type = inner := by
  cases h with
  | self => rfl
  | list => cases hc
  | map => cases hc

/-- A list or a map is not called as a truth value is. -/
theorem name_ne_boolean (ht : t ∈ [jaxrsSpec, spring]) (h : t.MadeOf inner type)
    (hc : type.isContainer = true) : type.name ≠ "Boolean" := by
  have hshapes : t.listShape.before = "List<" ∧ t.mapShape.before = "Map<String, " := by
    simp only [List.mem_cons, List.not_mem_nil, or_false] at ht
    rcases ht with rfl | rfl <;> exact ⟨rfl, rfl⟩
  -- either shape starts with another letter
  have hstart : ∀ (shape : Affixes) (name : String), shape.around name = "Boolean" →
      shape.before.toList <+: "Boolean".toList := by
    intro shape name heq
    rw [← heq, Affixes.around, String.append_assoc, String.toList_append]
    exact List.prefix_append _ _
  intro heq
  cases h with
  | self hnot =>
      rw [hnot] at hc
      cases hc
  | list =>
      have hlist := hstart _ _ heq
      rw [hshapes.1] at hlist
      revert hlist
      decide
  | map =>
      have hmap := hstart _ _ heq
      rw [hshapes.2] at hmap
      revert hmap
      decide

end MadeOf

/-- The type of a schema is made of one that its base names. -/
theorem exists_madeOf {g : Generator} {spec : Spec} {v : Value} {type : TargetType}
    (h : Schema.resolve g (some spec) v = .ok type) :
    ∃ inner, g.target.MadeOf inner type ∧ inner.base = inner.name := by
  have hclosed : Schema.Closed g.target fun type =>
      ∃ inner, g.target.MadeOf inner type ∧ inner.base = inner.name := by
    refine ⟨fun m _ => ⟨m.toType, .self rfl, rfl⟩, fun item hi => ?_, fun item hi => ?_⟩
    · obtain ⟨inner, hmade, hname⟩ := hi
      exact ⟨inner, .list hmade, hname⟩
    · obtain ⟨inner, hmade, hname⟩ := hi
      exact ⟨inner, .map hmade, hname⟩
  exact Schema.resolve_closed hclosed (fun reference _ => ⟨_, .self rfl, rfl⟩) h

end Target

/-- The getter of a property asks a question if the type of the property is that of truth values,
and it gets otherwise. -/
structure Property.HasVerbOfType (p : Property) : Prop where
  asks : "is".toList <+: p.getter.toList ↔ p.type = "Boolean"
  gets : "get".toList <+: p.getter.toList ↔ p.type ≠ "Boolean"

/-- Which of the verbs is in front of a getter can be read off it. -/
theorem Property.hasVerbOfType_iff {p : Property} {b stem : String}
    (h : p.getter = (if b = "Boolean" then "is" else "get") ++ stem) :
    p.HasVerbOfType ↔ (b = "Boolean" ↔ p.type = "Boolean") := by
  have hasks : "is".toList <+: p.getter.toList ↔ b = "Boolean" := by
    rw [h, String.toList_append]
    split
    next hb => exact iff_of_true (List.prefix_append _ _) hb
    next hb => exact iff_of_false (fun hp => by simp at hp) hb
  have hgets : "get".toList <+: p.getter.toList ↔ b ≠ "Boolean" := by
    rw [h, String.toList_append]
    split
    next hb => exact iff_of_false (fun hp => by simp at hp) (not_not_intro hb)
    next hb => exact iff_of_true (List.prefix_append _ _) hb
  exact ⟨fun hp => hasks.symm.trans hp.asks,
    fun hiff => ⟨hasks.trans hiff, hgets.trans (not_congr hiff)⟩⟩

namespace Model

variable {g : Generator} {spec : Spec}

/-- The verb of a getter comes from the type that the type of the property is made of. It is that of
the property itself unless this is a list or a map of truth values. -/
theorem getter_hasVerbOfType_iff (ht : g.target ∈ [.jaxrsSpec, .spring]) {name schema : Value}
    {m : Model} (h : ofSchema g spec name schema = .ok m) :
    ∀ p ∈ m.properties, ∃ (d : Declared) (type inner : TargetType), d.name = .str p.wireName
      ∧ Schema.resolve g (some spec) d.schema = .ok type ∧ g.target.MadeOf inner type
      ∧ p.type = type.name ∧ p.isContainer = type.isContainer ∧ p.baseType = inner.name
      ∧ p.getter = (if inner.name = "Boolean" then "is" else "get") ++ Target.accessorStem p.name
      ∧ (p.HasVerbOfType ↔ ¬(p.isContainer = true ∧ inner.name = "Boolean")) := by
  have hjava := Target.isJava_of_mem ht
  intro p hp
  obtain ⟨_, d, _, type, _, _, hfrom⟩ := exists_propertyFrom h hp
  obtain ⟨inner, hmade, hname⟩ := Target.exists_madeOf hfrom.resolved
  have hbase : type.base = inner.name := hmade.base.trans hname
  obtain ⟨hproperty, -⟩ := Prod.mk.inj hfrom.assembled
  have htype : p.type = type.name := congrArg Property.type hproperty
  have hcontainer : p.isContainer = type.isContainer := congrArg Property.isContainer hproperty
  have hgetter :
      p.getter = (if inner.name = "Boolean" then "is" else "get") ++ Target.accessorStem p.name := by
    have hget : p.getter = g.target.getter p.name type := by rw [hproperty]
    rw [hget, Target.getter_eq_of_bean hjava.accessors, hjava.booleanTypes, hbase]
    simp only [List.mem_singleton]
  refine ⟨d, type, inner, hfrom.named, hfrom.resolved, hmade, htype, hcontainer,
    (congrArg Property.baseType hproperty).trans hbase, hgetter, ?_⟩
  rw [Property.hasVerbOfType_iff hgetter, htype, hcontainer]
  cases hc : type.isContainer with
  | true =>
      have hne := hmade.name_ne_boolean ht hc
      simp only [hne, iff_false, true_and]
  | false =>
      rw [hmade.eq_of_not_container hc]
      simp only [Bool.false_eq_true, false_and, not_false_eq_true]

/-- The schema of lists of a type. -/
def arrayOf (type : String) : Value :=
  .map [(.str "type", .str "array"), (.str "items", .map [(.str "type", .str type)])]

/-- A ballot: whether it is open, and flags of a certain type. -/
def ballot (flags : String) : Value :=
  .map [(.str "properties", .map [(.str "open", .map [(.str "type", .str "boolean")]),
    (.str "flags", arrayOf flags)])]

/-- The properties of a ballot in brief: types, and whether they are lists or maps, and getters. -/
def verbs (m : Model) : List (String × String × Bool × String) :=
  m.properties.map fun p => (p.type, p.baseType, p.isContainer, p.getter)

theorem getter_hasVerbOfType_iff_ballot :
    (Generator.ofTarget .jaxrsSpec []).target ∈ [.jaxrsSpec, .spring]
    ∧ ∃ m, ofSchema (.ofTarget .jaxrsSpec []) .bare (.str "Ballot") (ballot "integer") = .ok m
      ∧ m.verbs = [("Boolean", "Boolean", false, "isOpen"),
        ("List<Integer>", "Integer", true, "getFlags")]
      ∧ ∀ p ∈ m.properties, p.HasVerbOfType := by
  have hbuilt : (ofSchema (.ofTarget .jaxrsSpec []) .bare (.str "Ballot")
      (ballot "integer")).toOption.map verbs = some [("Boolean", "Boolean", false, "isOpen"),
        ("List<Integer>", "Integer", true, "getFlags")] := by
    decide +kernel
  obtain ⟨m, hm, hverbs⟩ := Attempt.exists_of_toOption_map hbuilt
  refine ⟨by simp [Generator.ofTarget], m, hm, hverbs, fun p hp => ?_⟩
  obtain ⟨_, _, inner, -, -, -, -, -, hbase, -, hiff⟩ :=
    @getter_hasVerbOfType_iff (.ofTarget .jaxrsSpec []) .bare (by simp [Generator.ofTarget])
      _ _ _ hm p hp
  have hin : (p.type, p.baseType, p.isContainer, p.getter) ∈ m.verbs := List.mem_map_of_mem hp
  have hopen : ∀ x ∈ m.verbs, ¬(x.2.2.1 = true ∧ x.2.1 = "Boolean") := by
    rw [hverbs]
    decide
  rw [hiff, ← hbase]
  exact hopen _ hin

/-- A list of truth values is asked for as if it were one of them. -/
theorem getter_asks_list : ∃ m p,
    ofSchema (.ofTarget .jaxrsSpec []) .bare (.str "Ballot") (ballot "boolean") = .ok m
      ∧ p ∈ m.properties ∧ p.type = "List<Boolean>" ∧ p.getter = "isFlags"
      ∧ ¬p.HasVerbOfType := by
  have hbuilt : (ofSchema (.ofTarget .jaxrsSpec []) .bare (.str "Ballot")
      (ballot "boolean")).toOption.map verbs = some [("Boolean", "Boolean", false, "isOpen"),
        ("List<Boolean>", "Boolean", true, "isFlags")] := by
    decide +kernel
  obtain ⟨m, hm, hverbs⟩ := Attempt.exists_of_toOption_map hbuilt
  have hin : ("List<Boolean>", "Boolean", true, "isFlags") ∈ m.verbs := by
    rw [hverbs]
    exact List.mem_cons_of_mem _ List.mem_cons_self
  obtain ⟨p, hp, hparts⟩ := List.mem_map.mp hin
  simp only [Prod.mk.injEq] at hparts
  obtain ⟨htype, -, -, hgetter⟩ := hparts
  refine ⟨m, p, hm, hp, htype, hgetter, fun hverb => ?_⟩
  have hasks := hverb.asks.mp (by rw [hgetter]; decide)
  rw [htype] at hasks
  revert hasks
  decide

end Model

end ApiScaffold
