import ApiScaffold.Proofs.Model.Collected
import ApiScaffold.Proofs.Model.Locality
import ApiScaffold.Proofs.Run.Normal

/-!
# What the composition of a component comes to

A component is collected in preorder exactly if it is not circular and no property is declared
twice, and what any of its schemas requires is required.

* `Grounded`: no way through compositions from a schema is without an end. A flattening that comes
  to a result has gone through grounded schemas only (`grounds_flatten`), so it has met no circle.
* `collects_collected`: what a component comes to is what is collected along its preorder.
* `collected_along_preorder`: whether it is a component of an accepted document or of the normal
  form that is built from, its flattening ends, and it is at its result exactly if nothing is
  circular and nothing is declared twice; its properties are then those of its schemas in preorder.

The case at the end is a pet whose parts share a base, which is visited once.
-/

namespace ApiScaffold

namespace Model

open Attempt

variable {spec : Spec} {model origin : String} {schema member target top : Members}
  {g g' : Gathered} {visiting : List String} {depth : Nat}

/-! ## Circles -/

/-- No way through compositions from a schema is without an end. -/
def Grounded (spec : Spec) (schema : Members) : Prop := Acc (fun t s => Joins spec s t) schema

/-- The components that are flattened, and are not on the way, are grounded. -/
def GroundsFlattened (spec : Spec) (visiting : List String) (g : Gathered) : Prop :=
  ∀ c ∈ g.flattened, c ∉ visiting → ∀ t, spec.HasComponent c (.map t) → Grounded spec t

/-- What a flattening that comes to a result has gone through is grounded. -/
def Grounds (spec : Spec) (top : Members)
    (follow : String → List String → Members → Gathered → Attempt Gathered) : Prop :=
  ∀ {start way target g g'}, Contributes spec top target → GroundsFlattened spec way g →
    follow start way target g = .ok g' → GroundsFlattened spec way g' ∧ Grounded spec target

/-- What is accessible is not below itself. -/
theorem not_transGen_of_acc {α : Type} {r : α → α → Prop} {a : α} (h : Acc r a) :
    ¬Relation.TransGen r a a := by
  intro hcircle
  have hends : Acc (Relation.TransGen r) a := h.transGen
  induction hends with
  | intro a _ ih => exact ih a hcircle (h.inv_of_transGen hcircle) hcircle

theorem Grounded.contributes (h : Grounded spec top) (hs : Contributes spec top schema) :
    Grounded spec schema := by
  induction hs with
  | refl => exact h
  | tail _ hj ih => exact ih.inv hj

/-- A grounded schema leads to no circle. -/
theorem Grounded.not_isCircular (h : Grounded spec schema) : ¬IsCircular spec schema := by
  rintro ⟨s, hs, hcircle⟩
  exact not_transGen_of_acc (h.contributes hs) (Relation.transGen_swap.mpr hcircle)

/-- A component that is flattened to its end is no longer on the way. -/
theorem GroundsFlattened.leave {c : String} (h : GroundsFlattened spec (visiting ++ [c]) g)
    (hc : ∀ t, spec.HasComponent c (.map t) → Grounded spec t) :
    GroundsFlattened spec visiting g := by
  intro d hd hv t ht
  by_cases heq : d = c
  · exact hc t (heq ▸ ht)
  · exact h d hd (by simp [hv, heq]) t ht

theorem GroundsFlattened.enter {c : String} (h : GroundsFlattened spec visiting g) :
    GroundsFlattened spec (visiting ++ [c]) (g.enter c) := by
  intro d hd hv t ht
  rw [List.mem_append, not_or] at hv
  rcases List.mem_append.mp hd with hd | hd
  · exact h d hd hv.1 t ht
  · exact absurd hd hv.2

theorem GroundsFlattened.congr {h : Gathered} (hg : GroundsFlattened spec visiting g)
    (heq : h.flattened = g.flattened) : GroundsFlattened spec visiting h :=
  fun c hc => hg c (heq ▸ hc)

variable {follow : String → List String → Members → Gathered → Attempt Gathered} {m : Member}

/-- A turn after which the flattening goes on leads to a grounded schema. -/
theorem Grounds.turn (hf : Grounds spec top follow) (hc : Composed spec top)
    (hs : Contributes spec top schema) (hm : member ∈ compositionMembers schema)
    (hvalue : m.value = .map member) (hg : GroundsFlattened spec visiting g)
    (h : (turn spec model origin visiting m g).run follow = .ok g') :
    GroundsFlattened spec visiting g'
      ∧ ∀ t, meaning? spec member = some t → Grounded spec t := by
  cases hc.part hs hm with
  | inline href hj =>
      rw [turn_of_inline hvalue href] at h
      obtain ⟨hg', hgrounded⟩ := hf (hs.tail hj) hg h
      refine ⟨hg', fun t ht => ?_⟩
      rw [meaning?_of_inline href] at ht
      exact Option.some.inj ht ▸ hgrounded
  | @component reference target href hn ht hj =>
      have htarget := hs.tail hj
      have hcomponent := hasComponent_of_resolve hn ht
      rw [turn_of_reference hvalue href hn
        (deref_of_reference href ht (hc.regular _ htarget).concrete)] at h
      have hmeaning {t : Members} (hgrounded : Grounded spec target)
          (hmean : meaning? spec member = some t) : Grounded spec t := by
        rw [meaning?_of_reference href ht] at hmean
        exact Option.some.inj hmean ▸ hgrounded
      dsimp only at h
      split at h
      next => cases h
      next hon =>
        split at h
        next hflat =>
          cases h
          exact ⟨hg.congr (Gathered.noted_flattened _ _ _ _),
            fun t hmean => hmeaning (hg _ hflat hon target hcomponent) hmean⟩
        next =>
          obtain ⟨hg', hgrounded⟩ := hf htarget
            (hg.congr (Gathered.noted_flattened _ _ _ _)).enter h
          refine ⟨hg'.leave fun t ht => ?_, fun t hmean => hmeaning hgrounded hmean⟩
          exact Value.map.inj (ht.unique hc.proper hcomponent) ▸ hgrounded

theorem Grounds.turns (hf : Grounds spec top follow) (hc : Composed spec top)
    (hs : Contributes spec top schema) {members : List Members} {ms : List Member}
    (hm : ∀ x ∈ members, x ∈ compositionMembers schema)
    (hvalues : ms.map Member.value = members.map .map) (hg : GroundsFlattened spec visiting g)
    (h : takeTurns spec model follow origin visiting (ms.map .ok) g = .ok g') :
    GroundsFlattened spec visiting g'
      ∧ ∀ x ∈ members, ∀ t, meaning? spec x = some t → Grounded spec t := by
  induction members generalizing ms g with
  | nil =>
      obtain rfl : ms = [] := List.map_eq_nil_iff.mp hvalues
      cases h
      exact ⟨hg, by simp⟩
  | cons member rest ih =>
      obtain ⟨m, ms, rfl, hvalue, hvalues⟩ := List.map_eq_cons_iff.mp hvalues
      rw [List.forall_mem_cons] at hm
      rw [List.map_cons, takeTurns_cons_ok] at h
      obtain ⟨between, hrun, h⟩ := bind_eq_ok.mp h
      obtain ⟨hbetween, hfirst⟩ := hf.turn hc hs hm.1 hvalue hg hrun
      obtain ⟨hg', hrest⟩ := ih hm.2 hvalues hbetween h
      exact ⟨hg', List.forall_mem_cons.mpr ⟨hfirst, hrest⟩⟩

/-- A flattening that comes to a result has met no circle. -/
theorem grounds_flatten (hc : Composed spec top) :
    Grounds spec top (flatten spec model depth) := by
  induction depth with
  | zero => exact fun _ _ h => by cases h
  | succ depth ih =>
      intro start way target g g' hs hg h
      obtain ⟨ms, hlisted, hvalues⟩ := (hc.regular target hs).listed_eq
      rw [flatten_succ, hlisted] at h
      obtain ⟨own, hown, h⟩ := bind_eq_ok.mp h
      obtain ⟨hg', hmembers⟩ := ih.turns hc hs (fun _ hx => hx) hvalues
        (hg.congr (declareOwn_eq_ok hown).1) h
      refine ⟨hg', Acc.intro target fun t ht => ?_⟩
      obtain ⟨x, hx, hmean⟩ := ht
      exact hmembers x hx t hmean

end Model

/-! ## Documents -/

namespace Spec

variable {spec accepted : Spec} {document : Value} {source : String}

/-- Each reference of a document to a component points at a mapping. -/
def ReachesComponents (spec : Spec) : Prop :=
  spec.document.EachRef fun v => ∀ reference, v = .str reference → NamesComponent reference →
    ∃ target, spec.resolve reference = .ok target

theorem NamesComponent.intoComponents {reference : String} (h : NamesComponent reference) :
    IntoComponents reference := by
  obtain ⟨segment, -, hr⟩ := h
  rw [IntoComponents, String.startsWith_string_iff, hr]
  exact ⟨"schemas/".toList ++ segment, by rw [← List.append_assoc]; rfl⟩

theorem reachesComponents_of_ofValue (ha : ofValue document source = .ok accepted) :
    accepted.ReachesComponents := by
  rintro w hw v hv reference rfl -
  exact resolves_of_ofValue ha hw hv

theorem ReachesComponents.normalized (h : accepted.ReachesComponents) (t : Target) :
    (Generator.normalized t accepted).ReachesComponents := by
  refine (Generator.eachRef_normalized h).imp fun v hv reference heq hn => ?_
  obtain ⟨target, ht⟩ := hv reference heq hn
  exact ⟨target, Generator.resolve_normalized_components hn.intoComponents ht⟩

end Spec

namespace Model

open Attempt

variable {spec accepted : Spec} {name : String} {schema top member : Members}

theorem nests_of_mem_compositionMembers (hm : member ∈ compositionMembers schema) :
    (Value.map schema).Nests (.map member) := by
  obtain ⟨keyword, items, hget, hitem⟩ := exists_of_mem_compositionMembers hm
  exact (Value.Nests.get? hget).trans (.item hitem (.refl _))

/-- What a schema of a document is composed of stands in the document. -/
theorem Contributes.nests {s : Members} (h : Contributes spec top s)
    (ht : spec.document.Nests (.map top)) : spec.document.Nests (.map s) := by
  induction h with
  | refl => exact ht
  | tail _ hj ih =>
      obtain ⟨member, hm, hmean⟩ := hj
      unfold meaning? at hmean
      split at hmean
      next =>
        cases hmean
        exact ih.trans (nests_of_mem_compositionMembers hm)
      next reference hget =>
        cases hr : spec.resolve reference with
        | ok target =>
            rw [hr] at hmean
            cases hmean
            exact Spec.nests_of_resolve hr
        | error failure =>
            rw [hr] at hmean
            cases hmean
      next => cases hmean

/-- A proper schema does not name a property twice. -/
theorem differ_ownNames (h : (Value.map schema).isProper = true) : Differ (ownNames schema) := by
  unfold ownNames
  split
  next own hget =>
    have hproper := Value.isProper_of_get? h hget
    rw [Value.isProper] at hproper
    clear hget
    induction own with
    | nil => exact .nil
    | cons entry rest ih =>
        obtain ⟨key, v⟩ := entry
        simp only [Value.membersProper, Bool.and_eq_true, List.all_eq_true, Bool.not_eq_true']
          at hproper
        refine List.pairwise_cons.mpr ⟨fun b hb => ?_, ih hproper.2⟩
        obtain ⟨m, hm, rfl⟩ := List.mem_map.mp hb
        exact hproper.1.2 m hm
  next => exact .nil

/-- The compositions of a component are as they should be if the schemas there are regular. -/
theorem composed_of_regular (hp : spec.IsProper) (hr : spec.ReachesComponents)
    (hn : spec.HasComponent name (.map schema))
    (hreg : ∀ s, Contributes spec schema s → Regular s) : Composed spec schema := by
  have hnests {s : Members} (hs : Contributes spec schema s) : spec.document.Nests (.map s) :=
    hs.nests (.follow ((Spec.follow_component_iff hp).mpr hn))
  refine ⟨hp, hreg, fun s hs => differ_ownNames ((hnests hs).isProper hp), ?_⟩
  intro s hs member hm reference href
  obtain ⟨_, heq, hnames⟩ := (hreg s hs).references member hm _ href
  cases heq
  exact hr _ ((hnests hs).trans (nests_of_mem_compositionMembers hm)) _ href reference rfl hnames

/-! ## What a component comes to -/

/-- What the flattening of a component comes to. -/
def collected (spec : Spec) (name : String) (schema : Members) : Attempt Gathered :=
  flatten spec name (depthBound spec schema) name [name] schema {}

/-- No two of the schemas, wherever they stand, declare one property. -/
def DeclareOnce (nodes : List Members) : Prop :=
  nodes.Pairwise fun s t => ∀ a ∈ ownNames s, ∀ b ∈ ownNames t, a.keyEq b = false

/-- A component is collected from schemas: its flattening ends, which is at its result whatever more
depth there is, and comes to nothing but a circle, a property that is declared twice, or the
properties of the schemas in their order; and the properties of its model are required that some of
the schemas requires. -/
structure CollectedFrom (g : Generator) (spec : Spec) (name : String) (schema : Members)
    (nodes : List Members) : Prop where
  ends : ∀ depth, depthBound spec schema ≤ depth →
    flatten spec name depth name [name] schema {} = collected spec name schema
  fails : ∀ failure, collected spec name schema = .error failure →
    (∃ component, failure = .build (.str name) (.circularComposition component))
      ∨ ∃ property first second,
        failure = .build (.str name) (.propertyTwice property first second)
  succeeds : (∃ gathered, collected spec name schema = .ok gathered)
    ↔ ¬IsCircular spec schema ∧ DeclareOnce nodes
  names : ∀ gathered, collected spec name schema = .ok gathered →
    gathered.names = nodes.flatMap ownNames
  properties : ∀ m, ofSchema g spec (.str name) (.map schema) = .ok m → m.isEnum = false →
    m.properties.map (fun p => .str p.wireName) = nodes.flatMap ownNames
  required : ∀ m, ofSchema g spec (.str name) (.map schema) = .ok m → ∀ p ∈ m.properties,
    p.required = true ↔ ∃ s ∈ nodes, .str p.wireName ∈ ownRequired s

variable {g : Generator} {nodes : List Members}

theorem differ_flatMap_iff (h : ∀ s ∈ nodes, Differ (ownNames s)) :
    Differ (nodes.flatMap ownNames) ↔ DeclareOnce nodes := by
  rw [Differ, List.pairwise_flatMap]
  exact and_iff_right h

/-- What a component comes to is what is collected along its preorder. -/
theorem collects_collected (hc : Composed spec schema) (hn : spec.HasComponent name (.map schema))
    (h : Preorder spec name schema nodes) :
    ∃ after, Collects spec schema name {} nodes after (collected spec name schema) := by
  obtain ⟨inner, after, hwalk, rfl⟩ := h
  have hstart : Standing spec schema name [name] [name] schema {} :=
    ⟨.refl, ⟨List.mem_cons_self, List.Subset.refl _,
      fun c hin => ⟨schema, by rwa [List.mem_singleton.mp hin], .refl, .refl⟩⟩, rfl, .nil⟩
  have hcomes : ComesTo (fun depth => flatten spec name depth name [name] schema {})
      (Collects spec schema name {} (schema :: inner) after) :=
    comesTo_flatten hc hstart (hwalk.goesThrough hc)
  obtain ⟨result, least, hcollects, heq⟩ := hcomes
  have hbound := @flatten_depthBound spec name name [name] schema {} _ hc.proper
    (hn.within hc.proper).proper (Nat.le_max_right least _)
  have hresult : collected spec name schema = result :=
    hbound.symm.trans (heq _ (Nat.le_max_left _ _))
  exact ⟨after, hresult ▸ hcollects⟩

/-- A property has the name under which it is declared, and is required if that name is. -/
theorem buildProperty_named {model : String} {required : List Value} {d : Declared}
    {built : Property × List String} (h : buildProperty g spec model required d = .ok built) :
    d.name = .str built.1.wireName
      ∧ built.1.required = required.any (·.keyEq (.str built.1.wireName)) := by
  obtain ⟨type, members, target, hfrom⟩ := buildProperty_ok h
  refine ⟨hfrom.named, ?_⟩
  rw [← hfrom.named, hfrom.assembled]

theorem wireNames_of_buildProperty {model : String} {required : List Value}
    {declared : List Declared} {built : List (Property × List String)}
    (h : List.Forall₂ (fun d b => buildProperty g spec model required d = .ok b) declared built) :
    built.map (fun b => .str b.1.wireName) = declared.map Declared.name := by
  induction h with
  | nil => rfl
  | cons hb _ ih => exact List.cons_eq_cons.mpr ⟨(buildProperty_named hb).1.symm, ih⟩

/-- A model is an enumeration without properties, or its properties are those that are collected. -/
theorem ofSchema_collected {m : Model} (h : ofSchema g spec (.str name) (.map schema) = .ok m) :
    m.isEnum = true ∧ m.properties = []
      ∨ ∃ gathered, collected spec name schema = .ok gathered
        ∧ m.properties.map (fun p => .str p.wireName) = gathered.names
        ∧ ∀ p ∈ m.properties, p.required = gathered.required.any (·.keyEq (.str p.wireName)) := by
  obtain ⟨_, _, hname, hmap, hm | hm⟩ := ofSchema_ok h
  · obtain ⟨type, hm⟩ := buildEnum_ok hm
    rw [hm.assembled]
    exact .inl ⟨rfl, rfl⟩
  · cases hname
    cases hmap
    obtain ⟨gathered, built, hm⟩ := buildRecord_ok hm
    rw [hm.assembled]
    refine .inr ⟨gathered, hm.flattened, ?_, fun p hp => ?_⟩
    · exact List.map_map.trans (wireNames_of_buildProperty hm.propertiesBuilt)
    · obtain ⟨b, hb, rfl⟩ := List.mem_map.mp hp
      obtain ⟨d, -, hd⟩ := exists_of_forall₂ hm.propertiesBuilt hb
      exact (buildProperty_named hd).2

theorem any_keyEq_iff {names : List Value} {s : String} :
    names.any (·.keyEq (.str s)) = true ↔ .str s ∈ names := by
  simp only [List.any_eq_true, Value.keyEq_str, exists_eq_right]

section Collected

variable (hc : Composed spec schema) (hn : spec.HasComponent name (.map schema))
  (h : Preorder spec name schema nodes)

include hc hn h

theorem collected_eq_ok {gathered : Gathered} (heq : collected spec name schema = .ok gathered) :
    gathered.names = nodes.flatMap ownNames ∧ gathered.required = nodes.flatMap ownRequired
      ∧ Differ gathered.names := by
  obtain ⟨after, hcollects⟩ := collects_collected hc hn h
  rw [heq] at hcollects
  cases hcollects with
  | gathered hnames hrequired _ hd => exact ⟨hnames, hrequired, hd⟩

theorem collected_eq_error {failure : Failure}
    (heq : collected spec name schema = .error failure) :
    (∃ component, failure = .build (.str name) (.circularComposition component))
      ∨ ∃ property first second,
        failure = .build (.str name) (.propertyTwice property first second) := by
  obtain ⟨after, hcollects⟩ := collects_collected hc hn h
  rw [heq] at hcollects
  cases hcollects with
  | twice _ => exact .inr ⟨_, _, _, rfl⟩
  | circular _ => exact .inl ⟨_, rfl⟩

/-- A component is collected exactly if nothing is circular and nothing is declared twice. -/
theorem exists_collected_iff : (∃ gathered, collected spec name schema = .ok gathered)
    ↔ ¬IsCircular spec schema ∧ DeclareOnce nodes := by
  have hdistinct := differ_flatMap_iff fun s hs => hc.distinct s (h.contributes s hs)
  constructor
  · rintro ⟨gathered, heq⟩
    -- the flattening has not met a circle where it has gone, and it has gone everywhere
    have hgrounded : Grounded spec schema :=
      (grounds_flatten hc .refl (fun c hin => by cases hin) heq).2
    obtain ⟨hnames, -, hd⟩ := collected_eq_ok hc hn h heq
    exact ⟨hgrounded.not_isCircular, hdistinct.mp (hnames ▸ hd)⟩
  · rintro ⟨hcircle, honce⟩
    obtain ⟨after, hcollects⟩ := collects_collected hc hn h
    generalize collected spec name schema = result at hcollects
    cases hcollects with
    | gathered => exact ⟨_, rfl⟩
    | twice hd => exact absurd (hdistinct.mpr honce) hd
    | circular hcircular => exact absurd hcircular hcircle

theorem collectedFrom_preorder (g : Generator) : CollectedFrom g spec name schema nodes where
  ends _ hd := flatten_depthBound hc.proper (hn.within hc.proper).proper hd
  fails _ heq := collected_eq_error hc hn h heq
  succeeds := exists_collected_iff hc hn h
  names _ heq := (collected_eq_ok hc hn h heq).1
  properties m hm henum := by
    rcases ofSchema_collected hm with ⟨htrue, -⟩ | ⟨gathered, heq, hnames, -⟩
    · exact absurd (henum.symm.trans htrue) Bool.false_ne_true
    · exact hnames.trans (collected_eq_ok hc hn h heq).1
  required m hm p hp := by
    rcases ofSchema_collected hm with ⟨-, hnil⟩ | ⟨gathered, heq, -, hrequired⟩
    · -- an enumeration has no properties
      rw [hnil] at hp
      cases hp
    · rw [hrequired p hp, any_keyEq_iff, (collected_eq_ok hc hn h heq).2.1, List.mem_flatMap]

end Collected

/-- Whether it is a component of an accepted document or of the document that a run makes of it, if
the schemas that it is composed of are regular, then it has a preorder, one only, and is collected
from the schemas there. -/
theorem collected_along_preorder {document : Value} {source : String} (g : Generator)
    (ha : Spec.ofValue document source = .ok accepted) (hp : accepted.IsProper)
    (hs : spec = accepted ∨ (g.preprocess accepted).result = .ok spec)
    (hn : spec.HasComponent name (.map schema))
    (hreg : ∀ s, Contributes spec schema s → Regular s) :
    ∃ nodes, (∀ others, Preorder spec name schema others ↔ others = nodes)
      ∧ CollectedFrom g spec name schema nodes := by
  have hreaches := Spec.reachesComponents_of_ofValue ha
  have hcomposed : Composed spec schema := by
    rcases hs with rfl | hs
    · exact composed_of_regular hp hreaches hn hreg
    · obtain ⟨rfl, -⟩ := Generator.preprocess_ok hs
      exact composed_of_regular (Generator.isProper_normalized hp g.target)
        (hreaches.normalized g.target) hn hreg
  obtain ⟨nodes, hnodes⟩ := hcomposed.exists_unique_preorder name
  exact ⟨nodes, hnodes, collectedFrom_preorder hcomposed hn ((hnodes nodes).mpr rfl) g⟩

end Model

/-! ## A pet whose parts share a base -/

/-- A schema with texts as properties, of which some are required, and with members by inheritance.
-/
def Schema.composed (properties required : List String) (members : List Members) : Members := [
  (.str "properties",
    .map (properties.map fun name => (.str name, .map [(.str "type", .str "string")]))),
  (.str "required", .list (required.map .str)),
  (.str "allOf", .list (members.map .map))]

namespace Schema

def base : Members := composed ["kind"] [] []

def named : Members := composed ["name"] [] [link "Base"]

def aged : Members := composed ["age"] ["age", "kind"] [link "Base"]

def tagged : Members := composed ["tag"] ["name"] []

/-- The schema of a pet, with a member in its place and two references that lead to one base. -/
def pet : Members := composed ["id"] [] [link "Named", tagged, link "Aged"]

end Schema

/-- The components of a document with pets. -/
def Spec.petSchemas : Members := [
  (.str "Pet", .map Schema.pet), (.str "Aged", .map Schema.aged),
  (.str "Named", .map Schema.named), (.str "Base", .map Schema.base)]

namespace Model

theorem compositionMembers_composed (properties required : List String) (members : List Members) :
    compositionMembers (Schema.composed properties required members) = members := by
  show (members.map Value.map).filterMap mapping? ++ [] = members
  rw [List.append_nil, List.filterMap_map]
  exact List.filterMap_some

theorem regular_composed {properties required : List String} {members : List Members}
    (h : ∀ member ∈ members, ∀ v ∈ Members.get? member "$ref",
      ∃ reference, v = .str reference ∧ Spec.NamesComponent reference) :
    Regular (Schema.composed properties required members) where
  concrete := rfl
  properties v hv := by
    cases hv
    exact ⟨_, rfl⟩
  required v hv := by
    cases hv
    refine ⟨_, rfl, fun n hn => ?_⟩
    obtain ⟨s, -, rfl⟩ := List.mem_map.mp hn
    rfl
  compositions keyword hk v hv := by
    simp only [Schema.compositionKeywords, List.mem_cons, List.not_mem_nil, or_false] at hk
    rcases hk with rfl | rfl | rfl
    · cases hv
      refine ⟨_, rfl, fun item hitem => ?_⟩
      obtain ⟨member, -, rfl⟩ := List.mem_map.mp hitem
      exact ⟨member, rfl⟩
    · cases hv
    · cases hv
  references := by
    rw [compositionMembers_composed]
    exact h

/-- The schemas of a pet. -/
def petNodes : List Members :=
  [Schema.pet, Schema.named, Schema.base, Schema.tagged, Schema.aged]

/-- The base is visited once, where the named schema leads to it. -/
theorem preorder_pet : Preorder (.ofSchemas Spec.petSchemas) "Pet" Schema.pet petNodes := by
  -- the schemas of each walk are written as a schema, what it leads to, and what comes behind
  have hbase : Walk (.ofSchemas Spec.petSchemas) ["Pet", "Named"] [Schema.link "Base"]
      ([Schema.base] ++ []) ["Pet", "Named", "Base"] :=
    .component rfl (by decide) rfl (.done _) (.done _)
  have hagain : Walk (.ofSchemas Spec.petSchemas) ["Pet", "Named", "Base", "Aged"]
      [Schema.link "Base"] [] ["Pet", "Named", "Base", "Aged"] :=
    .again rfl (by decide) (.done _)
  have haged : Walk (.ofSchemas Spec.petSchemas) ["Pet", "Named", "Base"] [Schema.link "Aged"]
      ([Schema.aged] ++ []) ["Pet", "Named", "Base", "Aged"] :=
    .component rfl (by decide) rfl hagain (.done _)
  have htagged : Walk (.ofSchemas Spec.petSchemas) ["Pet", "Named", "Base"]
      [Schema.tagged, Schema.link "Aged"] ([Schema.tagged] ++ [Schema.aged])
      ["Pet", "Named", "Base", "Aged"] :=
    .inline rfl (.done _) haged
  have hall : Walk (.ofSchemas Spec.petSchemas) ["Pet"] (compositionMembers Schema.pet)
      ([Schema.named, Schema.base] ++ [Schema.tagged, Schema.aged])
      ["Pet", "Named", "Base", "Aged"] :=
    .component rfl (by decide) rfl hbase htagged
  exact ⟨_, _, hall, rfl⟩

theorem regular_of_mem_petNodes {s : Members} (h : s ∈ petNodes) : Regular s := by
  have hlink (name : String) (hname : '/' ∉ name.toList) :
      ∀ v ∈ Members.get? (Schema.link name) "$ref",
        ∃ reference, v = .str reference ∧ Spec.NamesComponent reference := by
    intro v hv
    cases hv
    exact ⟨_, rfl, name.toList, hname, String.toList_append⟩
  simp only [petNodes, List.mem_cons, List.not_mem_nil, or_false] at h
  rcases h with rfl | rfl | rfl | rfl | rfl
  · refine regular_composed ?_
    simp only [List.forall_mem_cons]
    exact ⟨hlink _ (by decide), nofun, hlink _ (by decide), nofun⟩
  · exact regular_composed (List.forall_mem_singleton.mpr (hlink _ (by decide)))
  · exact regular_composed nofun
  · exact regular_composed nofun
  · exact regular_composed (List.forall_mem_singleton.mpr (hlink _ (by decide)))

/-- The schemas of a pet lead to each other only. -/
theorem mem_petNodes_of_contributes {s : Members}
    (h : Contributes (.ofSchemas Spec.petSchemas) Schema.pet s) : s ∈ petNodes := by
  induction h with
  | refl => exact List.mem_cons_self
  | @tail between last _ hj ih =>
      obtain ⟨member, hm, hmean⟩ := hj
      have hmeanings : ∀ node ∈ petNodes, ∃ targets : List Members,
          (compositionMembers node).map (meaning? (.ofSchemas Spec.petSchemas)) = targets.map some
            ∧ targets ⊆ petNodes := by
        simp only [petNodes, List.forall_mem_cons]
        refine ⟨⟨[Schema.named, Schema.tagged, Schema.aged], rfl, by simp⟩,
          ⟨[Schema.base], rfl, by simp⟩, ⟨[], rfl, by simp⟩, ⟨[], rfl, by simp⟩,
          ⟨[Schema.base], rfl, by simp⟩, nofun⟩
      obtain ⟨targets, heq, hsub⟩ := hmeanings between ih
      have hin : some last ∈ targets.map some := heq ▸ hmean ▸ List.mem_map_of_mem hm
      obtain ⟨target, ht, htarget⟩ := List.mem_map.mp hin
      exact Option.some.inj htarget ▸ hsub ht

/-- A pet is collected from its five schemas. -/
theorem collected_along_preorder_pet :
    Preorder (.ofSchemas Spec.petSchemas) "Pet" Schema.pet petNodes
      ∧ CollectedFrom (.ofTarget .python []) (.ofSchemas Spec.petSchemas) "Pet" Schema.pet
        petNodes := by
  have hproper : (Spec.ofSchemas Spec.petSchemas).IsProper := by
    show Value.isProper _ = true
    decide
  obtain ⟨nodes, hnodes, hcollected⟩ := collected_along_preorder (.ofTarget .python [])
    (Spec.ofValue_document (by decide +kernel)) hproper (.inl rfl)
    ⟨Spec.petSchemas, rfl, List.mem_cons_self⟩
    fun s hs => regular_of_mem_petNodes (mem_petNodes_of_contributes hs)
  exact ⟨preorder_pet, (hnodes petNodes).mp preorder_pet ▸ hcollected⟩

end Model

end ApiScaffold
