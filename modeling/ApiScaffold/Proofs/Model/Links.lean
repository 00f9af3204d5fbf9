import ApiScaffold.Proofs.Model.Site
import ApiScaffold.Proofs.Target.Names

/-!
# The components that a model is composed of

The components that a model says it is composed of are noted where the members of the schema itself
have their turns: any other schema starts at a component that is on the way, or at a place that is
written with a point and brackets, and neither is the name of the model (`KeepsLinks`). So they are
the components to which the members refer, each once and in the order of the members (`links`).

The parent is read off the first member by inheritance alone, so another member by inheritance may
be the first that refers to a component. `parent_isFirst_iff` says when it is not; dogs, which have
their own properties in front and have no parent, are the case where it is.
-/

namespace ApiScaffold

namespace Model

open Attempt

/-- The components to which the members of the compositions of a schema refer. -/
def links (schema : Members) : List String :=
  (compositionMembers schema).filterMap Spec.schemaTarget?

/-- The component to which an item of a composition refers. -/
def linkOf? (item : Value) : Option String := (mapping? item).bind Spec.schemaTarget?

/-- The components to which the members by inheritance refer. -/
def inherited (schema : Members) : List String := (itemsOf schema "allOf").filterMap linkOf?

/-- What a model tells of the components around it. -/
structure HasLinks (spec : Spec) (schema : Members) (m : Model) : Prop where
  composedOf : m.composedOf = (links schema).eraseDups
  distinct : m.composedOf.Nodup
  references : m.composedOf ⊆ m.references
  components : ∀ c ∈ m.composedOf, ∃ target, spec.HasComponent c (.map target)
  /-- The first component by inheritance is the first of all. -/
  first : ∀ c ∈ (inherited schema).head?, m.composedOf.head? = some c
  /-- The parent is the component to which the first member by inheritance refers, if it does. -/
  parent : m.parent = (itemsOf schema "allOf").head?.bind linkOf?

variable {spec accepted : Spec} {model origin name : String} {schema target member : Members}
  {g g' : Gathered} {visiting : List String} {m : Member} {depth : Nat}
  {follow : String → List String → Members → Gathered → Attempt Gathered}

/-! ## Below the schema of the model -/

/-- What is called for starts at a component that is put on the way, or at a place. -/
theorem start_of_call {start : String} {way : List String}
    (h : turn spec model origin visiting m g = .call start way target g') :
    (start ∈ way ∧ start ∉ visiting) ∨ '.' ∈ start.toList ∧ '[' ∈ start.toList := by
  unfold turn at h
  split at h
  next reference =>
    split at h
    next component =>
      split at h
      next => cases h
      next hvisiting =>
        dsimp only at h
        split at h
        next => cases h
        next =>
          split at h
          next => cases h
          next =>
            cases h
            exact .inl ⟨List.mem_append_right _ (List.mem_singleton_self _), by simpa using hvisiting⟩
    next =>
      split at h
      next => cases h
      next =>
        cases h
        exact .inr ⟨by simp [String.toList_append], by simp [String.toList_append]⟩
  next => cases h

/-- The schemas below the one of the model note no components. -/
def KeepsLinks (model : String)
    (follow : String → List String → Members → Gathered → Attempt Gathered) : Prop :=
  ∀ start way target g g', start ≠ model → model ∈ way → follow start way target g = .ok g' →
    g'.composedOf = g.composedOf

theorem composedOf_of_declareOwn (h : declareOwn model origin schema g = .ok g') :
    g'.composedOf = g.composedOf := by
  obtain ⟨own, -, h⟩ := bind_eq_ok.mp h
  obtain ⟨properties, -, h⟩ := bind_eq_ok.mp h
  obtain ⟨required, -, h⟩ := bind_eq_ok.mp h
  split at h
  · cases h
    rfl
  · cases h

/-- What is gathered by a turn has the components that the turn notes. -/
theorem KeepsLinks.run (hf : KeepsLinks model follow)
    (hname : '.' ∉ model.toList ∨ '[' ∉ model.toList) (hmodel : model ∈ visiting)
    (h : (turn spec model origin visiting m g).run follow = .ok g') :
    ∃ reference, m.value = .map reference
      ∧ ((∃ c, Spec.schemaTarget? reference = some c ∧ c ∉ visiting
          ∧ g'.composedOf = (g.noted model origin c).composedOf)
        ∨ Spec.schemaTarget? reference = none ∧ g'.composedOf = g.composedOf) := by
  rcases run_ok h with hturn | ⟨start, way, target, between, hturn, hcall⟩
  · obtain ⟨reference, c, hv, hc, hout, -, rfl⟩ := pass_cases hturn
    exact ⟨reference, hv, .inl ⟨c, hc, hout, rfl⟩⟩
  · have hstart : start ≠ model := by
      rintro rfl
      rcases start_of_call hturn with ⟨-, hout⟩ | ⟨hpoint, hbracket⟩
      · exact hout hmodel
      · exact hname.elim (· hpoint) (· hbracket)
    obtain ⟨reference, hv, -, ⟨c, hc, hout, -, rfl, rfl⟩ | ⟨hnone, rfl, rfl⟩⟩ := call_cases hturn
    · have hkept := hf _ _ _ _ _ hstart (List.mem_append_left _ hmodel) hcall
      exact ⟨reference, hv, .inl ⟨c, hc, hout, hkept⟩⟩
    · exact ⟨reference, hv, .inr ⟨hnone, hf _ _ _ _ _ hstart hmodel hcall⟩⟩

theorem keepsLinks_flatten (hname : '.' ∉ model.toList ∨ '[' ∉ model.toList) :
    KeepsLinks model (flatten spec model depth) := by
  induction depth with
  | zero => exact fun _ _ _ _ _ _ _ h => by cases h
  | succ depth ih =>
      intro start way target g g' hstart hmodel h
      rw [flatten_succ] at h
      obtain ⟨own, hown, h⟩ := bind_eq_ok.mp h
      refine (rel_of_takeTurns (R := fun g g' => g'.composedOf = g.composedOf) (fun _ => rfl)
        (fun _ _ _ h₁ h₂ => h₂.trans h₁) (fun m _ g g' hrun => ?_) h).trans
        (composedOf_of_declareOwn hown)
      obtain ⟨reference, -, ⟨c, -, -, hg'⟩ | ⟨-, hg'⟩⟩ := ih.run hname hmodel hrun
      · rwa [Gathered.noted, if_neg hstart] at hg'
      · exact hg'

/-! ## The schema of the model -/

/-- A component is noted behind those before, unless it is among them. -/
theorem composedOf_note {names : List String} {c : String}
    (h : g.composedOf = Target.distinct names) :
    (g.note c).composedOf = Target.distinct (names ++ [c]) := by
  rw [Target.distinct_concat, Gathered.note, h]
  split
  · exact h
  · rfl

/-- The turns of the schema of the model note the components to which its members refer. -/
theorem composedOf_of_takeTurns (hf : KeepsLinks model follow)
    (hname : '.' ∉ model.toList ∨ '[' ∉ model.toList) (hmodel : model ∈ visiting)
    {members : List (Attempt Member)} {names : List String}
    (hg : g.composedOf = Target.distinct names)
    (h : takeTurns spec model follow model visiting members g = .ok g') :
    ∃ references : List Members, (∃ ms : List Member, members = ms.map .ok
        ∧ ms.map Member.value = references.map .map)
      ∧ (∀ c ∈ references.filterMap Spec.schemaTarget?, c ∉ visiting)
      ∧ g'.composedOf = Target.distinct (names ++ references.filterMap Spec.schemaTarget?) := by
  induction members generalizing g names with
  | nil =>
      cases h
      exact ⟨[], ⟨[], rfl, rfl⟩, by simp, by simpa using hg⟩
  | cons first rest ih =>
      cases first with
      | error failure => cases h
      | ok m =>
          rw [takeTurns_cons_ok] at h
          obtain ⟨between, hrun, h⟩ := bind_eq_ok.mp h
          obtain ⟨reference, hv, hcases⟩ := hf.run hname hmodel hrun
          have hcons {ms : List Member} {references : List Members}
              (hms : rest = ms.map .ok ∧ ms.map Member.value = references.map .map) :
              ∃ ms : List Member, Except.ok m :: rest = ms.map .ok
                ∧ ms.map Member.value = (reference :: references).map .map :=
            ⟨m :: ms, by rw [List.map_cons, ← hms.1],
              by rw [List.map_cons, List.map_cons, hv, hms.2]⟩
          rcases hcases with ⟨c, hc, hout, hbetween⟩ | ⟨hnone, hbetween⟩
          · rw [Gathered.noted, if_pos rfl] at hbetween
            obtain ⟨references, ⟨ms, hms⟩, hnot, hg'⟩ :=
              ih (hbetween.trans (composedOf_note hg)) h
            refine ⟨reference :: references, hcons hms, ?_, ?_⟩
            · rw [List.filterMap_cons_some hc]
              exact List.forall_mem_cons.mpr ⟨hout, hnot⟩
            · rw [hg', List.filterMap_cons_some hc, List.append_assoc]
              rfl
          · obtain ⟨references, ⟨ms, hms⟩, hnot, hg'⟩ := ih (hbetween.trans hg) h
            refine ⟨reference :: references, hcons hms, ?_, ?_⟩
            · rwa [List.filterMap_cons_none hnone]
            · rwa [List.filterMap_cons_none hnone]

/-- Where a keyword yields mappings only, they are the items of a list. -/
theorem itemsOf_of_elementsUnder {keyword : String} {members : List Members}
    (hp : (Value.map schema).isProper = true)
    (h : elementsUnder schema keyword = .ok (members.map .map)) :
    (itemsOf schema keyword).filterMap mapping? = members := by
  have hmaps : (members.map Value.map).filterMap mapping? = members := by
    rw [List.filterMap_map]
    exact List.filterMap_some
  cases members with
  | nil =>
      -- a list that is not empty would yield its items
      unfold itemsOf
      split
      next items hget =>
        rw [elementsUnder, nonEmpty?, hget] at h
        cases items with
        | nil => rfl
        | cons item items => cases h
      next => rfl
  | cons first rest =>
      obtain ⟨v, hget, helements⟩ := elementsUnder_ok h (List.cons_ne_nil _ _)
      obtain ⟨rfl, -⟩ := Value.isProper_of_elements (Value.isProper_of_get? hp hget) helements
        List.mem_cons_self
      rw [itemsOf, hget]
      exact hmaps

/-- A schema all of whose members are mappings lists the members of its compositions. -/
theorem compositionMembers_of_listed {references : List Members} {ms : List Member}
    (hp : (Value.map schema).isProper = true) (hlisted : listed schema = ms.map .ok)
    (hvalues : ms.map Member.value = references.map .map) :
    compositionMembers schema = references := by
  unfold listed at hlisted
  unfold compositionMembers
  generalize Schema.compositionKeywords = keywords at hlisted ⊢
  induction keywords generalizing ms references with
  | nil =>
      obtain rfl := List.map_eq_nil_iff.mp hlisted.symm
      exact (List.map_eq_nil_iff.mp hvalues.symm).symm
  | cons keyword rest ih =>
      rw [List.flatMap_cons] at hlisted
      obtain ⟨here, behind, rfl, hhere, hbehind⟩ := List.map_eq_append_iff.mp hlisted.symm
      rw [List.map_append] at hvalues
      obtain ⟨first, others, rfl, hfirst, hothers⟩ := List.map_eq_append_iff.mp hvalues.symm
      rw [List.flatMap_cons, ih hothers.symm hbehind.symm]
      refine congrArg (· ++ others) ?_
      cases hm : membersUnder schema keyword with
      | error failure =>
          rw [hm] at hhere
          obtain ⟨m, _, -, hm, -⟩ := List.map_eq_cons_iff.mp hhere
          cases hm
      | ok members =>
          rw [hm] at hhere
          obtain rfl : here = members :=
            List.map_injective_iff.mpr (fun _ _ => Except.ok.inj) hhere
          obtain ⟨vs, hvs, hzip⟩ := bind_eq_ok.mp hm
          refine itemsOf_of_elementsUnder hp ?_
          rw [hvs, hfirst, ← Except.ok.inj hzip, List.map_map]
          exact congrArg Except.ok (List.zipIdx_map_fst 0 vs).symm

theorem mem_componentReferences_of_schemaTarget? {c : String}
    (h : Spec.schemaTarget? member = some c) :
    c ∈ Schema.componentReferences (.map member) := by
  unfold Spec.schemaTarget? at h
  split at h
  next reference href =>
    rw [Schema.componentReferences, href]
    refine List.mem_append_left _ ?_
    dsimp only
    rw [h]
    exact List.mem_singleton_self c
  next => cases h

/-- The components by inheritance are the first. -/
theorem links_eq_append (schema : Members) : ∃ others, links schema = inherited schema ++ others := by
  refine ⟨(["oneOf", "anyOf"].flatMap fun keyword =>
    (itemsOf schema keyword).filterMap mapping?).filterMap Spec.schemaTarget?, ?_⟩
  rw [links, compositionMembers, Schema.compositionKeywords, List.flatMap_cons, List.filterMap_append,
    List.filterMap_filterMap]
  rfl

theorem head?_eraseDups (names : List String) : names.eraseDups.head? = names.head? := by
  cases names with
  | nil => rfl
  | cons name rest => rw [List.eraseDups_cons]; rfl

theorem parentOf_eq (schema : Members) :
    parentOf schema = (itemsOf schema "allOf").head?.bind linkOf? := by
  unfold parentOf itemsOf
  cases Members.get? schema "allOf" with
  | none => rfl
  | some v =>
      cases v with
      | list items =>
          cases items with
          | nil => rfl
          | cons first rest => cases first <;> rfl
      | _ => rfl

/-- What the first item is mapped to is the first of the mapped ones, unless another item is. -/
theorem bind_head?_eq_iff {α β : Type} (f : α → Option β) (xs : List α) :
    xs.head?.bind f = (xs.filterMap f).head?
      ↔ xs.filterMap f = [] ∨ (xs.head?.bind f).isSome = true := by
  cases xs with
  | nil => simp
  | cons x xs =>
      rw [List.head?_cons, Option.bind_some]
      cases hx : f x with
      | none =>
          rw [List.filterMap_cons_none hx, Eq.comm, List.head?_eq_none_iff]
          simp
      | some b =>
          rw [List.filterMap_cons_some hx]
          simp

/-! ## Models of components -/

/-- What a record has gathered in the turns of its schema are the components to which its members
refer; itself is none of them. -/
theorem composedOf_of_flatten (hp : (Value.map schema).isProper = true)
    (hname : '.' ∉ model.toList ∨ '[' ∉ model.toList)
    (h : flatten spec model (depth + 1) model [model] schema {} = .ok g) :
    g.composedOf = (links schema).eraseDups ∧ model ∉ links schema := by
  rw [flatten_succ] at h
  obtain ⟨own, hown, h⟩ := bind_eq_ok.mp h
  obtain ⟨references, ⟨ms, hlisted, hvalues⟩, hnot, hg⟩ :=
    composedOf_of_takeTurns (keepsLinks_flatten hname) hname (List.mem_singleton_self model)
      (show own.composedOf = Target.distinct [] from composedOf_of_declareOwn hown) h
  obtain rfl := compositionMembers_of_listed hp hlisted hvalues
  refine ⟨?_, fun hin => hnot model hin (List.mem_singleton_self model)⟩
  rw [hg, List.nil_append, Target.distinct_eq_eraseDups]
  rfl

/-- A model that is no enumeration is a record. -/
theorem exists_recordFrom {g : Generator} {m : Model}
    (h : ofSchema g spec (.str name) (.map schema) = .ok m) (henum : m.isEnum = false) :
    ∃ gathered built, RecordFrom g spec name schema gathered built m := by
  obtain ⟨_, _, htext, hschema, hm | hm⟩ := ofSchema_ok h
  · obtain ⟨type, hm⟩ := buildEnum_ok hm
    rw [hm.assembled] at henum
    cases henum
  · cases htext
    cases hschema
    exact buildRecord_ok hm

/-- A record tells of the components to which its members refer. -/
theorem RecordFrom.hasLinks {g : Generator} {gathered : Gathered}
    {built : List (Property × List String)} {m : Model}
    (hm : RecordFrom g spec name schema gathered built m) (hp : spec.IsProper)
    (hr : spec.ReachesComponents) (hc : spec.CitesComponents)
    (hn : spec.HasComponent name (.map schema)) (hname : '.' ∉ name.toList ∨ '[' ∉ name.toList) :
    HasLinks spec schema m := by
  have hnests : spec.document.Nests (.map schema) := .follow ((Spec.follow_component_iff hp).mpr hn)
  obtain ⟨hlinks, hself⟩ := composedOf_of_flatten (hnests.isProper hp) hname hm.flattened
  have hcomposed : m.composedOf = (links schema).eraseDups := by rw [hm.assembled]; exact hlinks
  have hlink {c : String} (hin : c ∈ m.composedOf) : c ∈ links schema :=
    List.mem_eraseDups.mp (hcomposed ▸ hin)
  refine ⟨hcomposed, ?_, fun c hin => ?_, fun c hin => ?_, fun c hfirst => ?_, ?_⟩
  · rw [hcomposed, ← Target.distinct_eq_eraseDups]
    exact Target.nodup_distinct _
  · obtain ⟨member, hmember, htarget⟩ := List.mem_filterMap.mp (hlink hin)
    have hne : c ≠ name := by
      rintro rfl
      exact hself (hlink hin)
    rw [hm.assembled]
    exact Target.mem_sortedSet.mpr (List.mem_filter.mpr
      ⟨Schema.componentReferences_of_nests (nests_of_mem_compositionMembers hmember)
        (mem_componentReferences_of_schemaTarget? htarget), by simpa using hne⟩)
  · obtain ⟨member, hmember, htarget⟩ := List.mem_filterMap.mp (hlink hin)
    obtain ⟨reference, href, hstarts, rfl⟩ := Spec.schemaTarget?_eq_some.mp htarget
    have hmnests := hnests.trans (nests_of_mem_compositionMembers hmember)
    have hnames := hc member reference hmnests href hstarts
    obtain ⟨target, ht⟩ := hr _ hmnests _ href reference rfl hnames
    exact ⟨target, hasComponent_of_resolve hnames ht⟩
  · obtain ⟨others, hothers⟩ := links_eq_append schema
    obtain ⟨rest, hrest⟩ := List.head?_eq_some_iff.mp hfirst
    rw [hcomposed, head?_eraseDups, hothers, hrest]
    rfl
  · rw [hm.assembled]
    exact parentOf_eq schema

/-- A record tells of the components to which its members refer, and it tells the first component by
inheritance as its parent exactly if the first member by inheritance refers to it, or there is none.
-/
theorem parent_isFirst_iff {document : Value} {source : String} {g : Generator} {m : Model}
    (ha : Spec.ofValue document source = .ok accepted) (hp : accepted.IsProper)
    (hs : spec = accepted ∨ (g.preprocess accepted).result = .ok spec)
    (hc : spec.CitesComponents) (hn : spec.HasComponent name (.map schema))
    (hname : '.' ∉ name.toList ∨ '[' ∉ name.toList)
    (h : ofSchema g spec (.str name) (.map schema) = .ok m) (henum : m.isEnum = false) :
    HasLinks spec schema m
      ∧ (m.parent = (inherited schema).head? ↔ inherited schema = []
        ∨ ∃ first, (itemsOf schema "allOf").head? = some (.map first)
          ∧ (Spec.schemaTarget? first).isSome = true) := by
  obtain ⟨hproper, hreaches⟩ : spec.IsProper ∧ spec.ReachesComponents := by
    have hreaches := Spec.reachesComponents_of_ofValue ha
    rcases hs with rfl | hs
    · exact ⟨hp, hreaches⟩
    · obtain ⟨rfl, -⟩ := Generator.preprocess_ok hs
      exact ⟨Generator.isProper_normalized hp g.target, hreaches.normalized g.target⟩
  obtain ⟨gathered, built, hm⟩ := exists_recordFrom h henum
  have hlinks := hm.hasLinks hproper hreaches hc hn hname
  refine ⟨hlinks, ?_⟩
  rw [hlinks.parent, inherited, bind_head?_eq_iff]
  refine or_congr_right ?_
  cases (itemsOf schema "allOf").head? with
  | none => simp
  | some item => cases item <;> simp [linkOf?, mapping?]

end Model

/-- The schema of dogs, which are animals; what they have themselves stands in front. -/
def Schema.dog : Members :=
  composed [] [] [single "barks" [(.str "type", .str "boolean")], link "Animal"]

/-- The schema of puppies, which are dogs, and any animals at that. -/
def Schema.puppy : Members := [
  (.str "allOf", .list [.map (link "Dog")]),
  (.str "anyOf", .list [.map (link "Animal"), .map (link "Dog")])]

def Spec.dogSchemas : Members := [
  (.str "Puppy", .map Schema.puppy), (.str "Dog", .map Schema.dog),
  (.str "Animal", .map (Schema.single "name" [(.str "type", .str "string")]))]

namespace Spec

theorem ofValue_dogSchemas :
    ofValue (ofSchemas dogSchemas).document "<memory>" = .ok (ofSchemas dogSchemas) :=
  ofValue_document (by decide +kernel)

theorem isProper_dogSchemas : (ofSchemas dogSchemas).IsProper := by
  show Value.isProper _ = true
  decide

theorem citesComponents_dogSchemas : (ofSchemas dogSchemas).CitesComponents := by
  intro members reference hn href _
  have hall : (ofSchemas dogSchemas).document.EachRef fun v => v.asStr? ∈
      ["Animal", "Dog"].map fun name => some ("#/components/schemas/" ++ name) := by
    decide +kernel
  have hin := hall _ hn _ href
  simp only [Value.asStr?, List.map_cons, List.map_nil, List.mem_cons, Option.some.injEq,
    List.not_mem_nil, or_false] at hin
  rcases hin with rfl | rfl
  · exact ⟨"Animal".toList, by decide, by decide⟩
  · exact ⟨"Dog".toList, by decide, by decide⟩

end Spec

namespace Model

/-- Puppies are dogs first; animals, which are in already with dogs, are noted behind. -/
theorem parent_isFirst_iff_puppy : ∃ m,
    ofSchema (.ofTarget .python []) (.ofSchemas Spec.dogSchemas) (.str "Puppy") (.map Schema.puppy)
        = .ok m
      ∧ m.composedOf = ["Dog", "Animal"] ∧ m.composedOf ⊆ m.references ∧ m.parent = some "Dog" := by
  have hbuilt : ((ofSchema (.ofTarget .python []) (.ofSchemas Spec.dogSchemas) (.str "Puppy")
      (.map Schema.puppy)).toOption.map Model.isEnum) = some false := by
    decide +kernel
  obtain ⟨m, h, henum⟩ := Attempt.exists_of_toOption_map hbuilt
  obtain ⟨hlinks, hparent⟩ := parent_isFirst_iff Spec.ofValue_dogSchemas Spec.isProper_dogSchemas
    (.inl rfl) Spec.citesComponents_dogSchemas ⟨Spec.dogSchemas, rfl, by simp [Spec.dogSchemas]⟩
    (.inl (by decide)) h henum
  refine ⟨m, h, ?_, hlinks.references, (hparent.mpr (.inr ⟨_, rfl, by decide +kernel⟩)).trans ?_⟩
  · rw [hlinks.composedOf]
    decide +kernel
  · decide +kernel

/-- Dogs are composed of animals only, by inheritance, and have no parent. -/
theorem parent_misses_animal :
    Spec.ofValue (Spec.ofSchemas Spec.dogSchemas).document "<memory>" = .ok (.ofSchemas Spec.dogSchemas)
      ∧ (Spec.ofSchemas Spec.dogSchemas).CitesComponents
      ∧ (Spec.ofSchemas Spec.dogSchemas).HasComponent "Dog" (.map Schema.dog)
      ∧ inherited Schema.dog = ["Animal"]
      ∧ ∃ m, ofSchema (.ofTarget .python []) (.ofSchemas Spec.dogSchemas) (.str "Dog")
            (.map Schema.dog) = .ok m
          ∧ m.isEnum = false ∧ m.composedOf = ["Animal"] ∧ m.parent = none := by
  have hbuilt : ((ofSchema (.ofTarget .python []) (.ofSchemas Spec.dogSchemas) (.str "Dog")
      (.map Schema.dog)).toOption.map fun m => (m.isEnum, m.composedOf, m.parent))
      = some (false, ["Animal"], none) := by
    decide +kernel
  obtain ⟨m, h, heq⟩ := Attempt.exists_of_toOption_map hbuilt
  obtain ⟨henum, hcomposed, hparent⟩ : _ ∧ _ ∧ _ := by simpa only [Prod.mk.injEq] using heq
  exact ⟨Spec.ofValue_dogSchemas, Spec.citesComponents_dogSchemas,
    ⟨Spec.dogSchemas, rfl, by simp [Spec.dogSchemas]⟩, by decide +kernel, m, h, henum, hcomposed,
    hparent⟩

end Model

end ApiScaffold
