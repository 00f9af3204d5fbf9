import ApiScaffold.Proofs.Document.Rearranged
import ApiScaffold.Proofs.Operation.Distinct
import ApiScaffold.Proofs.Run.Coverage
import ApiScaffold.Proofs.Run.Endpoints
import ApiScaffold.Proofs.Run.Stages
import ApiScaffold.Proofs.Target.TakenNames

/-!
# Names of a run that are taken

Fields and getters are called by the names of the document, and methods by their ids; telling
methods apart never makes one of them the getter of the class, but it leaves the first that is
called so in each group as it is.

* `IsCalled`: an operation is the getter of the class exactly if its id has the words of that.
  Telling operations apart adds suffixes, which never come to these words (`append_ne_classGetter`).
* `exists_classGetter_iff`: a group has the getter of the class among its methods exactly if the id
  of one of its operations has the words of it.
* `takenNames_iff`: when a name of a run is one that is taken, for fields, getters and methods.
* `names_meet_taken`: a truth value and a class among the properties, and the class of a path, meet
  names that are taken.
-/

namespace ApiScaffold

open Naming Target

/-! ## Methods -/

namespace Operation

variable {g : Generator} {spec : Spec} {op : Operation} {endpoints : List Endpoint}
  {named : List Operation}

/-- An operation has one of the methods that path items are read for, and it is the getter of the
class only if its id has the words of that. -/
structure IsCalled (op : Operation) : Prop where
  method : ∃ method ∈ Spec.methods, op.httpMethod = Text.upper method
  words : op.nickname = Java.classGetter → titleWords op.operationId = ["Get", "Class"]

theorem append_ne_classGetter {name suffix : String}
    (h : ¬suffix.toList <:+ Java.classGetter.toList) : name ++ suffix ≠ Java.classGetter := by
  intro heq
  apply h
  rw [← heq, String.toList_append]
  exact List.suffix_append _ _

theorem IsCalled.appendMethod (h : op.IsCalled) (n : Nat) : (appendMethod op n).IsCalled := by
  unfold Operation.appendMethod
  split
  case isTrue => exact h
  case isFalse =>
    have hends : ∀ method ∈ Spec.methods,
        ¬(Text.capitalize (Text.upper method)).toList <:+ Java.classGetter.toList := by
      decide
    obtain ⟨method, hm, hmethod⟩ := h.method
    exact ⟨h.method, fun heq => absurd heq (append_ne_classGetter (hmethod ▸ hends method hm))⟩

theorem IsCalled.appendNumber (h : op.IsCalled) (n : Nat) : (appendNumber op n).IsCalled := by
  unfold Operation.appendNumber
  split
  case isTrue => exact h
  case isFalse =>
    have hletters : (Java.classGetter.toList.all fun c => !c.isDigit) = true := by decide
    have hends : ¬(toString (n + 1)).toList <:+ Java.classGetter.toList := by
      intro hsuffix
      obtain ⟨c, hc⟩ := Text.exists_mem_toString (n + 1)
      have hdigit := Text.isDigit_of_mem_toString hc
      have hletter := List.all_eq_true.mp hletters c (hsuffix.subset hc)
      rw [hdigit] at hletter
      cases hletter
    exact ⟨h.method, fun heq => absurd heq (append_ne_classGetter hends)⟩

/-- The name of an operation when it is built comes from its id alone. -/
theorem nickname_of_slot {path operation pathItem : Value} {method : String}
    (h : ofSlot g spec path method operation pathItem = .ok op) :
    op.nickname = g.target.operationName op.operationId := by
  obtain ⟨_, _, _, _, _, _, _, -, -, hparts⟩ := ofSlot_ok h
  rw [hparts.assembled]

theorem isCalled_of_slot (ht : g.target.IsJava) {slot : Spec.Slot} (hs : slot ∈ spec.slots.1)
    (h : ofSlot g spec slot.path slot.method slot.operation (.map slot.pathItem) = .ok op) :
    op.IsCalled := by
  obtain ⟨_, _, _, hmethod, _⟩ := Spec.mem_of_slots hs
  obtain ⟨_, _, _, _, _, _, _, -, -, hparts⟩ := ofSlot_ok h
  refine ⟨⟨slot.method, hmethod, by rw [hparts.assembled]⟩, fun heq => ?_⟩
  rw [nickname_of_slot h] at heq
  exact ht.operationName_eq_classGetter_iff.mp heq

/-- When operations are told apart, only those whose ids have the words of the getter of the class
are called so. -/
theorem words_of_classGetter (ht : g.target.IsJava)
    (hall : (Endpoint.all g spec).result = .ok endpoints)
    (hd : distinguishAll (endpoints.filterMap Endpoint.operation?) = .ok named) :
    ∀ op ∈ named, op.nickname = Java.classGetter → titleWords op.operationId = ["Get", "Class"] := by
  have hcalled : ∀ op ∈ endpoints.filterMap Endpoint.operation?, op.IsCalled := by
    intro built hbuilt
    obtain ⟨slot, hs, hok⟩ := Endpoint.exists_of_mem_operations hall hbuilt
    exact isCalled_of_slot ht hs hok
  intro op hop
  exact (distinguishAll_forall (fun _ n hop => hop.appendMethod n)
    (fun _ n hop => hop.appendNumber n) hcalled hd op hop).words

/-- The name that the id of an operation comes to is that of an operation of the same group: of the
first one to have it when the operations were built. -/
theorem exists_operationName (hall : (Endpoint.all g spec).result = .ok endpoints)
    (hd : distinguishAll (endpoints.filterMap Endpoint.operation?) = .ok named) (hop : op ∈ named)
    {group : String} (hgroup : op.group = .str group) : ∃ first ∈ named,
      first.group = .str group ∧ first.nickname = g.target.operationName op.operationId := by
  obtain ⟨built, hbuilt, hrenamed⟩ := Attempt.exists_of_forall₂ (distinguishAll_renamed hd) hop
  obtain ⟨slot, -, hok⟩ := Endpoint.exists_of_mem_operations hall hbuilt
  have hid : built.operationId = op.operationId := by
    rw [hrenamed]
  have hkept : built.group = .str group := by
    rw [← hgroup, hrenamed]
  have hself : built.key.eq built.key = true :=
    key_eq_iff.mpr ⟨hkept ▸ Value.keyEq_str.mpr rfl, rfl⟩
  obtain ⟨first, hfirst, hkey⟩ := exists_key_distinguish hbuilt hself
  obtain ⟨hsame, hname⟩ := key_eq_iff.mp hkey
  rw [← distinguishAll_eq_ok hd] at hfirst
  refine ⟨first, hfirst, Value.keyEq_str.mp (Value.keyEq_symm (hkept ▸ hsame)), ?_⟩
  rw [← hname, nickname_of_slot hok, hid]

end Operation

namespace Draft

variable {g : Generator} {spec : Spec} {material : Material} {failures : List Failure}

/-- A group has the getter of the class among its methods exactly if the id of one of its operations
has the words of that. -/
theorem exists_classGetter_iff (ht : g.target.IsJava)
    (h : (gather g spec).result = .ok (material, failures)) {group : OperationGroup}
    (hg : group ∈ material.groups) :
    (∃ op ∈ group.operations, op.nickname = Java.classGetter)
      ↔ ∃ op ∈ group.operations, titleWords op.operationId = ["Get", "Class"] := by
  obtain ⟨_, endpoints, -, hall, hdistinct, hgroups, -, -, -⟩ := gather_ok h
  have hpart := OperationGroup.ofOperations_partition hgroups
  constructor
  · rintro ⟨op, hop, hname⟩
    obtain ⟨hin, -⟩ := (hpart.mem_operations hg).mp hop
    exact ⟨op, hop, Operation.words_of_classGetter ht hall hdistinct op hin hname⟩
  · rintro ⟨op, hop, hwords⟩
    obtain ⟨hin, hgroup⟩ := (hpart.mem_operations hg).mp hop
    obtain ⟨first, hfirst, hsame, hname⟩ :=
      Operation.exists_operationName hall hdistinct hin hgroup
    refine ⟨first, (hpart.mem_operations hg).mpr ⟨hfirst, hsame⟩, ?_⟩
    rw [hname]
    exact ht.operationName_eq_classGetter_iff.mpr hwords

/-! ## Fields and getters -/

/-- A property of a run has the field of its wire name, and the getter of that for a type. -/
theorem exists_type_of_mem (h : (gather g spec).result = .ok (material, failures)) {m : Model}
    (hm : m ∈ material.models) {p : Property} (hp : p ∈ m.properties) :
    ∃ type : TargetType, p.baseType = type.base ∧ p.name = g.target.fieldName p.wireName
      ∧ p.getter = g.target.getter (g.target.fieldName p.wireName) type := by
  obtain ⟨_, _, hok⟩ := exists_ofSchema h hm
  obtain ⟨_, _, _, type, _, _, hfrom⟩ := Model.exists_propertyFrom hok hp
  obtain ⟨hproperty, -⟩ := Prod.mk.inj hfrom.assembled
  exact ⟨type, congrArg Property.baseType hproperty, congrArg Property.name hproperty,
    congrArg Property.getter hproperty⟩

/-- When a name of a run is one that is taken: a field is a literal of Java if it is called by one
of the truth values, a getter or a method is that of the class if it is called so, and a field of a
data class in Python is a method of it if it is called so. -/
theorem takenNames_iff (h : (gather g spec).result = .ok (material, failures)) :
    (g.target ∈ [.jaxrsSpec, .spring] →
      (∀ m ∈ material.models, ∀ p ∈ m.properties,
        (p.name ∈ Java.literals ↔ titleWords p.wireName ∈ [["True"], ["False"]])
        ∧ (p.getter = Java.classGetter
          ↔ p.baseType ≠ "Boolean" ∧ titleWords p.wireName = ["Class"]))
      ∧ ∀ group ∈ material.groups,
        (∃ op ∈ group.operations, op.nickname = Java.classGetter)
          ↔ ∃ op ∈ group.operations, titleWords op.operationId = ["Get", "Class"])
    ∧ (g.target = .python → ∀ m ∈ material.models, ∀ p ∈ m.properties,
        (p.name ∈ Python.converters
          ↔ smallWords p.wireName ∈ [["to", "dict"], ["from", "dict"]])) := by
  refine ⟨fun ht => ⟨fun m hm p hp => ?_, fun group hg => ?_⟩, fun ht m hm p hp => ?_⟩
  · obtain ⟨type, hbase, hname, hgetter⟩ := exists_type_of_mem h hm hp
    rw [hname, hgetter, hbase]
    exact ⟨(isJava_of_mem ht).fieldName_mem_literals_iff,
      (isJava_of_mem ht).getter_eq_classGetter_iff⟩
  · exact exists_classGetter_iff (isJava_of_mem ht) h hg
  · obtain ⟨type, hbase, hname, hgetter⟩ := exists_type_of_mem h hm hp
    rw [hname, ht]
    exact fieldName_mem_converters_iff

/-- The names of a run: the properties with their types, fields and getters, and the methods of each
group with their ids. -/
def names (material : Material) :
    List (String × String × String × String) × List (String × String × String) :=
  (material.models.flatMap fun m => m.properties.map fun p =>
      (p.wireName, p.baseType, p.name, p.getter),
    material.groups.flatMap fun group => group.operations.map fun op =>
      (group.name, op.operationId, op.nickname))

theorem mem_names {wireName baseType name getter : String} :
    (wireName, baseType, name, getter) ∈ (names material).1 ↔ ∃ m ∈ material.models,
      ∃ p ∈ m.properties, p.wireName = wireName ∧ p.baseType = baseType ∧ p.name = name
        ∧ p.getter = getter := by
  simp only [names, List.mem_flatMap, List.mem_map, Prod.mk.injEq]

theorem mem_names_methods {group operationId nickname : String} :
    (group, operationId, nickname) ∈ (names material).2 ↔ ∃ g ∈ material.groups,
      ∃ op ∈ g.operations, g.name = group ∧ op.operationId = operationId
        ∧ op.nickname = nickname := by
  simp only [names, List.mem_flatMap, List.mem_map, Prod.mk.injEq]

/-- A document with one path that can be read, and with a flag that has certain properties. -/
def flagged (path : String) (properties : List (String × String)) : Spec :=
  .ofItem path [(.str "get", .map [])] [(.str "Flag", .map [(.str "properties",
    .map (properties.map fun p => (.str p.1, .map [(.str "type", .str p.2)])))])]

theorem exists_names {t : Target} {path : String} {properties : List (String × String)}
    {found : List (String × String × String × String) × List (String × String × String)}
    (h : (gather (.ofTarget t []) (flagged path properties)).result.toOption.map
      (fun gathered => decide (names gathered.1 = found) && gathered.2.isEmpty) = some true) :
    ∃ material, (gather (.ofTarget t []) (flagged path properties)).result = .ok (material, [])
      ∧ names material = found := by
  obtain ⟨⟨material, failures⟩, hgather, hb⟩ := Attempt.exists_of_toOption_map h
  rw [Bool.and_eq_true, decide_eq_true_eq, List.isEmpty_iff] at hb
  obtain ⟨hnames, rfl⟩ := hb
  exact ⟨material, hgather, hnames⟩

/-- A question about the class, a literal that is reserved, a literal that is one of two words, and
the class of something, in Java; and the words of a method written as one or with another, in
Python. -/
theorem takenNames_iff_flag :
    (∃ material, (gather (.ofTarget .jaxrsSpec []) (flagged "/class/{id}"
          [("class", "boolean"), ("null", "string"), ("true_name", "string")])).result
        = .ok (material, [])
      ∧ names material = ([("class", "Boolean", "_class", "isClass"),
          ("null", "String", "_null", "getNull"),
          ("true_name", "String", "trueName", "getTrueName")],
        [("class", "getClassById", "getClassById")])
      ∧ (∀ m ∈ material.models, ∀ p ∈ m.properties,
          p.name ∉ Java.literals ∧ p.getter ≠ Java.classGetter)
      ∧ ∀ group ∈ material.groups, ∀ op ∈ group.operations, op.nickname ≠ Java.classGetter)
    ∧ ∃ material, (gather (.ofTarget .python []) (flagged "/class/{id}"
          [("todict", "string"), ("from-dict-1", "string")])).result = .ok (material, [])
      ∧ names material = ([("todict", "str", "todict", "todict"),
          ("from-dict-1", "str", "from_dict_1", "from_dict_1")],
        [("class", "getClassById", "get_class_by_id")])
      ∧ ∀ m ∈ material.models, ∀ p ∈ m.properties, p.name ∉ Python.converters := by
  constructor
  · obtain ⟨material, hgather, hnames⟩ := @exists_names .jaxrsSpec "/class/{id}"
      [("class", "boolean"), ("null", "string"), ("true_name", "string")]
      ([("class", "Boolean", "_class", "isClass"), ("null", "String", "_null", "getNull"),
          ("true_name", "String", "trueName", "getTrueName")],
        [("class", "getClassById", "getClassById")]) (by decide +kernel)
    obtain ⟨hproperties, hmethods⟩ := (takenNames_iff hgather).1 (by simp [Generator.ofTarget])
    refine ⟨material, hgather, hnames, fun m hm p hp => ?_, fun group hg op hop hname => ?_⟩
    · have hin := mem_names.mpr ⟨m, hm, p, hp, rfl, rfl, rfl, rfl⟩
      have hwords : ∀ x ∈ (names material).1, titleWords x.1 ∉ [["True"], ["False"]]
          ∧ (x.2.1 = "Boolean" ∨ titleWords x.1 ≠ ["Class"]) := by
        rw [hnames]
        decide
      obtain ⟨hliteral, hclass⟩ := hwords _ hin
      obtain ⟨hfield, hgetter⟩ := hproperties m hm p hp
      refine ⟨mt hfield.mp hliteral, fun heq => ?_⟩
      obtain ⟨htype, htitle⟩ := hgetter.mp heq
      exact hclass.elim htype fun hne => hne htitle
    · obtain ⟨asked, hasked, htitles⟩ := (hmethods group hg).mp ⟨op, hop, hname⟩
      have hin := mem_names_methods.mpr ⟨group, hg, asked, hasked, rfl, rfl, rfl⟩
      have hwords : ∀ x ∈ (names material).2, titleWords x.2.1 ≠ ["Get", "Class"] := by
        rw [hnames]
        decide
      exact hwords _ hin htitles
  · obtain ⟨material, hgather, hnames⟩ := @exists_names .python "/class/{id}"
      [("todict", "string"), ("from-dict-1", "string")]
      ([("todict", "str", "todict", "todict"),
          ("from-dict-1", "str", "from_dict_1", "from_dict_1")],
        [("class", "getClassById", "get_class_by_id")]) (by decide +kernel)
    refine ⟨material, hgather, hnames, fun m hm p hp => ?_⟩
    have hin := mem_names.mpr ⟨m, hm, p, hp, rfl, rfl, rfl, rfl⟩
    have hwords : ∀ x ∈ (names material).1,
        smallWords x.1 ∉ [["to", "dict"], ["from", "dict"]] := by
      rw [hnames]
      decide
    exact mt ((takenNames_iff hgather).2 rfl m hm p hp).mp (hwords _ hin)

/-- A truth value and a class among the properties, and the class of a path, meet names that are
taken in Java; in Python two properties meet the methods of their class. Nothing is rejected. -/
theorem names_meet_taken :
    (∃ material, (gather (.ofTarget .jaxrsSpec []) (flagged "/class"
          [("true", "string"), ("class", "string")])).result = .ok (material, [])
      ∧ (∃ m ∈ material.models, ∃ p ∈ m.properties, p.name ∈ Java.literals)
      ∧ (∃ m ∈ material.models, ∃ p ∈ m.properties, p.getter = Java.classGetter)
      ∧ ∃ group ∈ material.groups, ∃ op ∈ group.operations, op.nickname = Java.classGetter)
    ∧ ∃ material, (gather (.ofTarget .python []) (flagged "/class"
          [("toDict", "string"), ("from-dict", "string")])).result = .ok (material, [])
      ∧ ∀ name ∈ Python.converters, ∃ m ∈ material.models, ∃ p ∈ m.properties, p.name = name := by
  constructor
  · obtain ⟨material, hgather, hnames⟩ := @exists_names .jaxrsSpec "/class"
      [("true", "string"), ("class", "string")]
      ([("true", "String", "true", "getTrue"), ("class", "String", "_class", "getClass")],
        [("class", "getClass", "getClass")]) (by decide +kernel)
    have hin {x} (hx : x ∈ [("true", "String", "true", "getTrue"),
        ("class", "String", "_class", "getClass")]) : x ∈ (names material).1 := hnames ▸ hx
    obtain ⟨m, hm, p, hp, -, -, hfield, -⟩ := mem_names.mp (hin List.mem_cons_self)
    obtain ⟨n, hn, q, hq, -, -, -, hgetter⟩ :=
      mem_names.mp (hin (List.mem_cons_of_mem _ List.mem_cons_self))
    obtain ⟨group, hg, op, hop, -, -, hname⟩ := mem_names_methods.mp
      (show ("class", "getClass", "getClass") ∈ (names material).2 from
        hnames ▸ List.mem_cons_self)
    exact ⟨material, hgather, ⟨m, hm, p, hp, hfield ▸ by decide⟩, ⟨n, hn, q, hq, hgetter⟩,
      group, hg, op, hop, hname⟩
  · obtain ⟨material, hgather, hnames⟩ := @exists_names .python "/class"
      [("toDict", "string"), ("from-dict", "string")]
      ([("toDict", "str", "to_dict", "to_dict"), ("from-dict", "str", "from_dict", "from_dict")],
        [("class", "getClass", "get_class")]) (by decide +kernel)
    refine ⟨material, hgather, fun name hname => ?_⟩
    have hfound : ∀ name ∈ Python.converters, ∃ x ∈ (names material).1, x.2.2.1 = name := by
      rw [hnames]
      decide
    obtain ⟨x, hx, rfl⟩ := hfound name hname
    obtain ⟨m, hm, p, hp, -, -, hfield, -⟩ := mem_names.mp hx
    exact ⟨m, hm, p, hp, hfield⟩

end Draft

end ApiScaffold
