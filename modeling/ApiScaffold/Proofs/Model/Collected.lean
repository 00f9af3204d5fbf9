import ApiScaffold.Proofs.Model.Depth
import ApiScaffold.Proofs.Model.Preorder

/-!
# What the flattening of a component collects

The flattening of a component goes through its preorder, and it comes to its end unless a property
is declared twice on the way or the compositions are circular.

The preorder knows no depth and no state, and the flattening has both. `ComesTo` says that something
comes to a result with enough depth, and `Collects` what that result is where it was to go through
certain schemas. Both are closed under taking one part of the schemas after another
(`ComesTo.bind`), so that the walk can be followed by induction on its construction:

* `comesTo_flatten` and `comesTo_call` go from a schema to the turns of its members;
* `Standing` says where such turns stand: which components are on the way, and which have been
  visited;
* `Walk.goesThrough`: the turns of members go through the schemas to which the members lead.
-/

namespace ApiScaffold

namespace Model

open Attempt

variable {spec : Spec} {model origin : String} {schema member target top : Members}
  {g g' : Gathered}

/-! ## What a regular schema lists -/

/-- What is under a key, if it can only be a list. -/
theorem elementsUnder_eq {key : String}
    (h : ∀ v ∈ Members.get? schema key, ∃ items, v = .list items) :
    elementsUnder schema key = .ok (itemsOf schema key) := by
  unfold elementsUnder nonEmpty? itemsOf
  cases hg : Members.get? schema key with
  | none => rfl
  | some v =>
      obtain ⟨items, rfl⟩ := h v hg
      cases items <;> rfl

theorem Regular.entriesUnder_eq (h : Regular schema) :
    ∃ own, entriesUnder schema "properties" = .ok own ∧ ownNames schema = own.map Prod.fst := by
  have hmap := h.properties
  unfold entriesUnder nonEmpty? ownNames
  cases hg : Members.get? schema "properties" with
  | none => exact ⟨[], rfl, rfl⟩
  | some v =>
      obtain ⟨own, rfl⟩ := hmap v hg
      refine ⟨own, ?_, rfl⟩
      cases own <;> rfl

/-- Mappings, taken out of values and put back. -/
theorem map_filterMap_mapping? {items : List Value}
    (h : ∀ item ∈ items, ∃ member, item = .map member) :
    (items.filterMap mapping?).map .map = items := by
  induction items with
  | nil => rfl
  | cons item rest ih =>
      rw [List.forall_mem_cons] at h
      obtain ⟨member, rfl⟩ := h.1
      exact congrArg (Value.map member :: ·) (ih h.2)

/-- The members that a keyword lists are the mappings under it. -/
theorem membersUnder_eq {keyword : String}
    (h : ∀ v ∈ Members.get? schema keyword,
      ∃ items, v = .list items ∧ ∀ item ∈ items, ∃ member, item = .map member) :
    ∃ ms, membersUnder schema keyword = .ok ms
      ∧ ms.map Member.value = ((itemsOf schema keyword).filterMap mapping?).map .map := by
  have hitems : ∀ item ∈ itemsOf schema keyword, ∃ member, item = .map member :=
    forall_mem_itemsOf h
  have helements := elementsUnder_eq fun v hv => (h v hv).imp fun _ hi => hi.1
  refine ⟨_, bind_eq_ok.mpr ⟨_, helements, rfl⟩, ?_⟩
  rw [map_filterMap_mapping? hitems, List.map_map]
  exact List.zipIdx_map_fst 0 _

/-- A regular schema lists the members of its compositions. -/
theorem Regular.listed_eq (h : Regular schema) : ∃ ms : List Member,
    listed schema = ms.map .ok
      ∧ ms.map Member.value = (compositionMembers schema).map .map := by
  have hunder := h.compositions
  unfold listed compositionMembers
  generalize Schema.compositionKeywords = keywords at hunder ⊢
  induction keywords with
  | nil => exact ⟨[], rfl, rfl⟩
  | cons keyword rest ih =>
      rw [List.forall_mem_cons] at hunder
      obtain ⟨first, hfirst, hvalue⟩ := membersUnder_eq hunder.1
      obtain ⟨ms, hms, hvalues⟩ := ih hunder.2
      refine ⟨first ++ ms, ?_, ?_⟩
      · rw [List.flatMap_cons, hms, hfirst, List.map_append]
      · rw [List.flatMap_cons, List.map_append, List.map_append, hvalue, hvalues]

/-! ## What has been collected -/

/-- The names of the properties that are declared. -/
def Gathered.names (g : Gathered) : List Value := g.properties.map Declared.name

/-- What the flattening comes to where it was to go through schemas, with what it had before and
with the components that are to be visited then. -/
inductive Collects (spec : Spec) (top : Members) (model : String) (g : Gathered)
    (nodes : List Members) (after : List String) : Attempt Gathered → Prop
  | gathered {g' : Gathered} (hn : g'.names = g.names ++ nodes.flatMap ownNames)
      (hr : g'.required = g.required ++ nodes.flatMap ownRequired)
      (hv : model :: g'.flattened = after) (hd : Differ g'.names) :
      Collects spec top model g nodes after (.ok g')
  | twice {name : Value} {first second : String}
      (hd : ¬Differ (g.names ++ nodes.flatMap ownNames)) :
      Collects spec top model g nodes after
        (.error (.build (.str model) (.propertyTwice name first second)))
  | circular {component : String} (hc : IsCircular spec top) :
      Collects spec top model g nodes after
        (.error (.build (.str model) (.circularComposition component)))

variable {nodes first rest : List Members} {between after : List String}
  {r : Attempt Gathered}

/-- Only the names and what is required count of what there was before. -/
theorem Collects.congr {g₀ : Gathered} (h : Collects spec top model g₀ nodes after r)
    (hn : g₀.names = g.names) (hr : g₀.required = g.required) :
    Collects spec top model g nodes after r := by
  cases h with
  | gathered hn' hr' hv hd => exact .gathered (hn ▸ hn') (hr ▸ hr') hv hd
  | twice hd => exact .twice (hn ▸ hd)
  | circular hc => exact .circular hc

theorem Collects.of_ok (h : Collects spec top model g nodes after (.ok g')) :
    model :: g'.flattened = after ∧ Differ g'.names := by
  cases h with
  | gathered _ _ hv hd => exact ⟨hv, hd⟩

/-- One part of the schemas after another. -/
theorem Collects.bind {k : Gathered → Attempt Gathered}
    (h : Collects spec top model g first between r)
    (hk : ∀ g', r = .ok g' → Collects spec top model g' rest after (k g')) :
    Collects spec top model g (first ++ rest) after (r >>= k) := by
  cases h with
  | @gathered g' hn hr hv hd =>
      show Collects spec top model g (first ++ rest) after (k g')
      have hrest := hk g' rfl
      generalize k g' = result at hrest ⊢
      cases hrest with
      | gathered hn' hr' hv' hd' =>
          refine .gathered ?_ ?_ hv' hd'
          · rw [hn', hn, List.flatMap_append, List.append_assoc]
          · rw [hr', hr, List.flatMap_append, List.append_assoc]
      | twice hd' =>
          rw [hn, List.append_assoc, ← List.flatMap_append] at hd'
          exact .twice hd'
      | circular hc => exact .circular hc
  | twice hd =>
      refine .twice fun hall => hd (hall.sublist ?_)
      rw [List.flatMap_append, ← List.append_assoc]
      exact List.sublist_append_left _ _
  | circular hc => exact .circular hc

/-- With enough depth something comes to one result, which is as it is said. -/
def ComesTo (f : Nat → Attempt Gathered) (P : Attempt Gathered → Prop) : Prop :=
  ∃ result least, P result ∧ ∀ depth, least ≤ depth → f depth = result

namespace ComesTo

variable {f f' : Nat → Attempt Gathered} {P Q : Attempt Gathered → Prop}

theorem const (h : P r) : ComesTo (fun _ => r) P := ⟨r, 0, h, fun _ _ => rfl⟩

theorem imp (h : ComesTo f P) (hpq : ∀ r, P r → Q r) : ComesTo f Q := by
  obtain ⟨result, least, hp, heq⟩ := h
  exact ⟨result, least, hpq _ hp, heq⟩

theorem congr (h : ComesTo f P) (heq : ∀ depth, f' depth = f depth) : ComesTo f' P := by
  obtain ⟨result, least, hp, hf⟩ := h
  exact ⟨result, least, hp, fun depth hd => (heq depth).trans (hf depth hd)⟩

theorem succ (h : ComesTo (fun depth => f (depth + 1)) P) : ComesTo f P := by
  obtain ⟨result, least, hp, hf⟩ := h
  refine ⟨result, least + 1, hp, fun depth hd => ?_⟩
  obtain ⟨n, rfl⟩ := Nat.exists_eq_add_of_le' hd
  rw [← Nat.add_assoc]
  exact hf (n + least) (Nat.le_add_left _ _)

/-- One part of the schemas after another, with enough depth for both. -/
theorem bind {k : Nat → Gathered → Attempt Gathered}
    (h : ComesTo f (Collects spec top model g first between))
    (hk : ∀ g', model :: g'.flattened = between → Differ g'.names →
      ComesTo (fun depth => k depth g') (Collects spec top model g' rest after)) :
    ComesTo (fun depth => f depth >>= k depth)
      (Collects spec top model g (first ++ rest) after) := by
  obtain ⟨result, least, hp, hf⟩ := h
  cases result with
  | error failure =>
      refine ⟨.error failure, least, hp.bind (k := fun _ => .error failure) nofun, ?_⟩
      intro depth hdepth
      dsimp only
      rw [hf depth hdepth]
      rfl
  | ok g' =>
      obtain ⟨hv, hd⟩ := hp.of_ok
      obtain ⟨last, more, hq, hg⟩ := hk g' hv hd
      have hboth := hp.bind (k := fun _ => last) fun _ h => Except.ok.inj h ▸ hq
      refine ⟨last, max least more, hboth, fun depth hdepth => ?_⟩
      dsimp only
      rw [hf depth (Nat.le_trans (Nat.le_max_left _ _) hdepth)]
      exact hg depth (Nat.le_trans (Nat.le_max_right _ _) hdepth)

end ComesTo

/-! ## One schema -/

/-- Properties are declared behind those before, unless one of them has a name that is declared. -/
theorem declareAll_cases (own : Members) (declared : List Declared)
    (hd : Differ (declared.map Declared.name)) :
    (∃ result, declareAll model origin own declared = .ok result
        ∧ result.map Declared.name = declared.map Declared.name ++ own.map Prod.fst
        ∧ Differ (result.map Declared.name))
      ∨ ¬Differ (declared.map Declared.name ++ own.map Prod.fst)
        ∧ ∃ name first second, declareAll model origin own declared
          = .error (.build (.str model) (.propertyTwice name first second)) := by
  induction own generalizing declared with
  | nil => exact .inl ⟨declared, rfl, (List.append_nil _).symm, hd⟩
  | cons entry rest ih =>
      obtain ⟨name, schema⟩ := entry
      rw [declareAll]
      cases hfind : declared.find? fun d => d.name.keyEq name with
      | some first =>
          refine .inr ⟨fun hall => ?_, name, first.origin, origin, rfl⟩
          have hkey : first.name.keyEq name = true := by
            simpa using List.find?_some hfind
          have hin : first.name ∈ declared.map Declared.name :=
            List.mem_map_of_mem (List.mem_of_find?_eq_some hfind)
          have hne := (List.pairwise_append.mp hall).2.2 _ hin name List.mem_cons_self
          exact Bool.false_ne_true (hne.symm.trans hkey)
      | none =>
          have hnew : Differ (declared.map Declared.name ++ [name]) := by
            refine List.pairwise_append.mpr ⟨hd, List.pairwise_singleton _ _, fun a ha b hb => ?_⟩
            obtain ⟨d, hin, rfl⟩ := List.mem_map.mp ha
            rw [List.mem_singleton.mp hb]
            exact Bool.eq_false_iff.mpr (List.find?_eq_none.mp hfind d hin)
          have hrest := ih (declared ++ [{ origin, name, schema : Declared }])
          rw [List.map_append, List.append_assoc] at hrest
          exact hrest hnew

/-- A regular schema declares its own properties and adds what it requires. -/
theorem Regular.collects_declareOwn (h : Regular schema) (hd : Differ g.names) :
    Collects spec top model g [schema] (model :: g.flattened)
      (declareOwn model origin schema g) := by
  obtain ⟨own, hown, hnames⟩ := h.entriesUnder_eq
  have hrequired := elementsUnder_eq fun v hv => (h.required v hv).imp fun _ hi => hi.1
  have hkeys : (itemsOf schema "required").all Value.isKey = true :=
    List.all_eq_true.mpr (forall_mem_itemsOf h.required)
  have hflat : [schema].flatMap ownNames = own.map Prod.fst := by
    rw [List.flatMap_singleton, hnames]
  have hdeclare : declareOwn model origin schema g
      = (declareAll model origin own g.properties >>= fun properties =>
        .ok { g with properties, required := g.required ++ ownRequired schema }) := by
    unfold declareOwn
    rw [hown]
    show (declareAll model origin own g.properties >>= fun _ => _) = _
    refine bind_congr fun properties => ?_
    rw [hrequired]
    exact if_pos hkeys
  rw [hdeclare]
  rcases declareAll_cases own g.properties hd with ⟨result, hok, hresult, hdiffer⟩
    | ⟨hsame, name, first, second, herror⟩
  · rw [hok]
    refine .gathered ?_ ?_ rfl hdiffer
    · rw [hflat]
      exact hresult
    · rw [List.flatMap_singleton]
  · rw [herror]
    refine .twice ?_
    rw [hflat]
    exact hsame

/-! ## Turns -/

/-- A reference to a schema that is none leads there. -/
theorem deref_of_reference {reference : String}
    (href : Members.get? member "$ref" = some (.str reference))
    (ht : spec.resolve reference = .ok target) (hc : Members.get? target "$ref" = none) :
    spec.deref member = .ok target := by
  have htarget (hops : Nat) (seen : List String) :
      Spec.derefFrom spec.document hops seen target = .ok target := by
    cases hops <;> rw [Spec.derefFrom, hc]
  have hresolve : Spec.resolveIn spec.document reference = .ok target := ht
  rw [Spec.deref, Members.has, href, Option.isSome_some, if_pos rfl, Spec.chainBound,
    Spec.derefFrom, href]
  simp only [List.contains_nil, Bool.false_eq_true, if_false, hresolve, htarget]

theorem deref_of_inline (href : Members.get? member "$ref" = none) :
    spec.deref member = .ok member := by
  rw [Spec.deref, Members.has, href]
  rfl

variable {visiting visited : List String} {m : Member} {reference : String}

theorem turn_of_inline (hv : m.value = .map member)
    (href : Members.get? member "$ref" = none) :
    turn spec model origin visiting m g
      = .call (origin ++ "." ++ m.keyword ++ "[" ++ toString m.index ++ "]") visiting member g := by
  have hnone : Spec.schemaTarget? member = none := by rw [Spec.schemaTarget?, href]
  simp only [turn, hv, hnone, deref_of_inline href]

/-- The turn of a member that refers to a component. -/
theorem turn_of_reference (hv : m.value = .map member)
    (href : Members.get? member "$ref" = some (.str reference))
    (hn : Spec.NamesComponent reference) (hd : spec.deref member = .ok target) :
    turn spec model origin visiting m g
      = let component := Pointer.lastKey reference
        if component ∈ visiting then
          .stop (.build (.str model) (.circularComposition component))
        else if component ∈ g.flattened then .pass (g.noted model origin component)
        else .call component (visiting ++ [component]) target
          ((g.noted model origin component).enter component) := by
  have htarget : Spec.schemaTarget? member = some (Pointer.lastKey reference) := by
    simp only [Spec.schemaTarget?, href, hn.schemaNameOf?]
  simp only [turn, hv, htarget, hd, List.contains_iff_mem, Gathered.noted_flattened]

/-- What a reference to a component points at is the component. -/
theorem hasComponent_of_resolve (hn : Spec.NamesComponent reference)
    (ht : spec.resolve reference = .ok target) :
    spec.HasComponent (Pointer.lastKey reference) (.map target) := by
  obtain ⟨schemas, hs, hget⟩ := hn.resolve ht
  exact ⟨schemas, hs, Members.mem_of_get? hget⟩

/-- Components are on the way to a schema: they have been visited, and lead to it. -/
structure OnWay (spec : Spec) (top : Members) (model : String) (visiting visited : List String)
    (schema : Members) : Prop where
  start : model ∈ visiting
  visited : visiting ⊆ visited
  leads : ∀ c ∈ visiting, ∃ t, spec.HasComponent c (.map t) ∧ Contributes spec top t
    ∧ Contributes spec t schema

namespace OnWay

theorem mono (h : OnWay spec top model visiting visited schema) (hv : visited ⊆ after) :
    OnWay spec top model visiting after schema :=
  ⟨h.start, List.Subset.trans h.visited hv, h.leads⟩

theorem inline (h : OnWay spec top model visiting visited schema) (hj : Joins spec schema target) :
    OnWay spec top model visiting visited target where
  start := h.start
  visited := h.visited
  leads c hc := by
    obtain ⟨t, ht, htop, hs⟩ := h.leads c hc
    exact ⟨t, ht, htop, hs.tail hj⟩

theorem component (h : OnWay spec top model visiting visited schema)
    (hs : Contributes spec top schema) (hj : Joins spec schema target) {c : String}
    (hc : spec.HasComponent c (.map target)) :
    OnWay spec top model (visiting ++ [c]) (visited ++ [c]) target where
  start := List.mem_append_left _ h.start
  visited := List.append_subset.mpr ⟨List.Subset.trans h.visited (List.subset_append_left _ _),
    List.subset_append_right _ _⟩
  leads d hd := by
    rcases List.mem_append.mp hd with hd | hd
    · exact (h.inline hj).leads d hd
    · rw [List.mem_singleton.mp hd]
      exact ⟨target, hc, hs.tail hj, .refl⟩

/-- A component on the way that a schema is composed of leads to itself. -/
theorem isCircular (h : OnWay spec top model visiting visited schema) (hp : spec.IsProper)
    (hj : Joins spec schema target) {c : String} (hc : spec.HasComponent c (.map target))
    (hv : c ∈ visiting) : IsCircular spec top := by
  obtain ⟨t, ht, htop, hs⟩ := h.leads c hv
  obtain rfl : t = target := Value.map.inj (ht.unique hp hc)
  exact ⟨t, htop, Relation.TransGen.tail' hs hj⟩

end OnWay

@[simp] theorem Gathered.noted_required (component : String) (g : Gathered) :
    (g.noted model origin component).required = g.required := by
  unfold noted note
  split
  · split <;> rfl
  · rfl

/-! ## The walk -/

/-- Where the turns of a schema's members stand: components are on the way to it, and others have
been visited and flattened. -/
structure Standing (spec : Spec) (top : Members) (model : String) (visiting visited : List String)
    (schema : Members) (g : Gathered) : Prop where
  contributes : Contributes spec top schema
  way : OnWay spec top model visiting visited schema
  flattened : model :: g.flattened = visited
  differ : Differ g.names

/-- The turns of members of a schema go through schemas, wherever they stand. -/
def GoesThrough (spec : Spec) (top : Members) (model : String) (visited : List String)
    (members nodes : List Members) (after : List String) : Prop :=
  ∀ {schema : Members} {origin : String} {visiting : List String} {g : Gathered}
    {ms : List Member}, Standing spec top model visiting visited schema g →
    (∀ x ∈ members, x ∈ compositionMembers schema) →
    ms.map Member.value = members.map .map →
    ComesTo (fun depth => takeTurns spec model (flatten spec model depth) origin visiting
      (ms.map .ok) g) (Collects spec top model g nodes after)

variable {inner : List Members}

/-- To flatten a schema is to go through it and through what its members lead to. -/
theorem comesTo_flatten (hc : Composed spec top)
    (hat : Standing spec top model visiting visited schema g)
    (hin : GoesThrough spec top model visited (compositionMembers schema) nodes after) :
    ComesTo (fun depth => flatten spec model depth origin visiting schema g)
      (Collects spec top model g (schema :: nodes) after) := by
  have hregular := hc.regular schema hat.contributes
  obtain ⟨ms, hlisted, hvalues⟩ := hregular.listed_eq
  refine ComesTo.succ ?_
  have hown : ComesTo (fun _ => declareOwn model origin schema g)
      (Collects spec top model g [schema] visited) :=
    .const (hat.flattened ▸ hregular.collects_declareOwn hat.differ)
  refine (hown.bind fun own hflattened hdiffer => ?_).congr fun depth => by
    rw [flatten_succ, hlisted]
  exact hin ⟨hat.contributes, hat.way, hflattened, hdiffer⟩ (fun _ hx => hx) hvalues

/-- A turn that calls for a schema goes through it and through what its members lead to, and the
turns after it go on from there. -/
theorem comesTo_call {start : String} {way further : List String} {g₀ : Gathered}
    {ms : List Member} (hc : Composed spec top)
    (hturn : turn spec model origin visiting m g = .call start way target g₀)
    (hn : g₀.names = g.names) (hr : g₀.required = g.required)
    (hat : Standing spec top model way further target g₀)
    (hin : GoesThrough spec top model further (compositionMembers target) inner between)
    (hrest : ∀ g', model :: g'.flattened = between → Differ g'.names →
      ComesTo (fun depth => takeTurns spec model (flatten spec model depth) origin visiting
        (ms.map .ok) g') (Collects spec top model g' rest after)) :
    ComesTo (fun depth => takeTurns spec model (flatten spec model depth) origin visiting
      ((m :: ms).map .ok) g) (Collects spec top model g (target :: inner ++ rest) after) := by
  have hcall : ComesTo (fun depth => flatten spec model depth start way target g₀)
      (Collects spec top model g (target :: inner) between) :=
    (comesTo_flatten hc hat hin).imp fun _ hcollects => hcollects.congr hn hr
  refine (hcall.bind hrest).congr fun depth => ?_
  rw [List.map_cons, takeTurns_cons_ok, hturn]
  rfl

namespace GoesThrough

variable {members : List Members}

theorem done : GoesThrough spec top model visited [] [] visited := by
  intro schema origin visiting g ms hat _ hvalues
  obtain rfl : ms = [] := List.map_eq_nil_iff.mp hvalues
  exact .const (.gathered (List.append_nil _).symm (List.append_nil _).symm hat.flattened
    hat.differ)

/-- A component that has been visited passes, unless it is on the way. -/
theorem again (hc : Composed spec top)
    (href : Members.get? member "$ref" = some (.str reference))
    (hv : Pointer.lastKey reference ∈ visited)
    (hrest : GoesThrough spec top model visited members nodes after) :
    GoesThrough spec top model visited (member :: members) nodes after := by
  intro schema origin visiting g ms hat hm hvalues
  obtain ⟨m, ms, rfl, hvalue, hvalues⟩ := List.map_eq_cons_iff.mp hvalues
  rw [List.forall_mem_cons] at hm
  cases hc.part hat.contributes hm.1 with
  | inline href' => cases href.symm.trans href'
  | @component _ target href' hn ht hj =>
      cases href.symm.trans href'
      have hderef := deref_of_reference href ht (hc.regular _ (hat.contributes.tail hj)).concrete
      have hturn := @turn_of_reference spec model origin member target g visiting m reference
        hvalue href hn hderef
      by_cases hon : Pointer.lastKey reference ∈ visiting
      · -- the component is on the way, so it is composed of itself
        have hcircular : IsCircular spec top :=
          hat.way.isCircular hc.proper hj (hasComponent_of_resolve hn ht) hon
        have hstop := @Collects.circular spec top model g nodes after (Pointer.lastKey reference)
          hcircular
        refine (ComesTo.const hstop).congr fun depth => ?_
        rw [List.map_cons, takeTurns_cons_ok, hturn]
        simp only [hon, if_true]
        rfl
      · -- the component is not on the way, so it has been flattened
        have hflat : Pointer.lastKey reference ∈ g.flattened := by
          rw [← hat.flattened] at hv
          exact (List.mem_cons.mp hv).resolve_left fun heq => hon (heq ▸ hat.way.start)
        have hnames : (g.noted model origin (Pointer.lastKey reference)).names = g.names := by
          rw [Gathered.names, Gathered.noted_properties, Gathered.names]
        have hgo := @hrest schema origin visiting (g.noted model origin (Pointer.lastKey reference))
          ms ⟨hat.contributes, hat.way, by simpa using hat.flattened, hnames ▸ hat.differ⟩ hm.2
          hvalues
        refine (hgo.imp fun _ hr => hr.congr hnames (by simp)).congr fun depth => ?_
        rw [List.map_cons, takeTurns_cons_ok, hturn]
        simp only [hon, hflat, if_true, if_false]
        rfl

/-- A component that has not been visited is gone through. -/
theorem component (hc : Composed spec top)
    (href : Members.get? member "$ref" = some (.str reference))
    (hv : Pointer.lastKey reference ∉ visited) (ht : spec.resolve reference = .ok target)
    (hsub : visited ⊆ between)
    (hin : GoesThrough spec top model (visited ++ [Pointer.lastKey reference])
      (compositionMembers target) inner between)
    (hrest : GoesThrough spec top model between members rest after) :
    GoesThrough spec top model visited (member :: members) (target :: inner ++ rest) after := by
  intro schema origin visiting g ms hat hm hvalues
  obtain ⟨m, ms, rfl, hvalue, hvalues⟩ := List.map_eq_cons_iff.mp hvalues
  rw [List.forall_mem_cons] at hm
  cases hc.part hat.contributes hm.1 with
  | inline href' => cases href.symm.trans href'
  | component href' hn ht' hj =>
      cases href.symm.trans href'
      cases ht.symm.trans ht'
      have hderef := deref_of_reference href ht (hc.regular _ (hat.contributes.tail hj)).concrete
      have hturn := @turn_of_reference spec model origin member target g visiting m reference
        hvalue href hn hderef
      have hon : Pointer.lastKey reference ∉ visiting := fun h => hv (hat.way.visited h)
      have hflat : Pointer.lastKey reference ∉ g.flattened := fun h =>
        hv (hat.flattened ▸ List.mem_cons_of_mem _ h)
      simp only [hon, hflat, if_false] at hturn
      have hnames : ((g.noted model origin (Pointer.lastKey reference)).enter
          (Pointer.lastKey reference)).names = g.names := by
        rw [Gathered.names, Gathered.enter, Gathered.noted_properties, Gathered.names]
      refine comesTo_call hc hturn hnames (by simp [Gathered.enter])
        ⟨hat.contributes.tail hj,
          hat.way.component hat.contributes hj (hasComponent_of_resolve hn ht), ?_,
          hnames ▸ hat.differ⟩ hin fun g' hflattened hdiffer =>
        hrest ⟨hat.contributes, hat.way.mono hsub, hflattened, hdiffer⟩ hm.2 hvalues
      rw [← hat.flattened, Gathered.enter, Gathered.noted_flattened, List.cons_append]

/-- A schema that stands in its place is gone through. -/
theorem inline (hc : Composed spec top) (href : Members.get? member "$ref" = none)
    (hsub : visited ⊆ between)
    (hin : GoesThrough spec top model visited (compositionMembers member) inner between)
    (hrest : GoesThrough spec top model between members rest after) :
    GoesThrough spec top model visited (member :: members) (member :: inner ++ rest) after := by
  intro schema origin visiting g ms hat hm hvalues
  obtain ⟨m, ms, rfl, hvalue, hvalues⟩ := List.map_eq_cons_iff.mp hvalues
  rw [List.forall_mem_cons] at hm
  cases hc.part hat.contributes hm.1 with
  | component href' => cases href.symm.trans href'
  | inline _ hj =>
      exact comesTo_call hc (turn_of_inline hvalue href) rfl rfl
        ⟨hat.contributes.tail hj, hat.way.inline hj, hat.flattened, hat.differ⟩ hin
        fun g' hflattened hdiffer =>
          hrest ⟨hat.contributes, hat.way.mono hsub, hflattened, hdiffer⟩ hm.2 hvalues

end GoesThrough

/-- The turns of members go through the schemas to which the members lead. -/
theorem Walk.goesThrough {members : List Members} (h : Walk spec visited members nodes after)
    (hc : Composed spec top) : GoesThrough spec top model visited members nodes after := by
  induction h with
  | done => exact GoesThrough.done
  | again href hv _ ih => exact GoesThrough.again hc href hv ih
  | component href hv ht hin _ ihin ihrest =>
      exact GoesThrough.component hc href hv ht
        (List.Subset.trans (List.subset_append_left _ _) hin.subset) ihin ihrest
  | inline href hin _ ihin ihrest => exact GoesThrough.inline hc href hin.subset ihin ihrest

end Model

end ApiScaffold
