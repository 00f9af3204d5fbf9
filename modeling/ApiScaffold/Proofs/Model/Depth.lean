import ApiScaffold.Proofs.Model.Gathered
import ApiScaffold.Proofs.Schema.Mention
import Mathlib.Data.List.Nodup
import Mathlib.Data.List.Perm.Subperm

/-!
# How deep a flattening goes

The depth to which compositions are followed is no bound on what they come to. Once the way through
the compositions of a schema comes to a schema again, no component is new to it and no property is:
it ends within the schemas that there are, or it goes round. So more depth changes nothing.

* `Finished` and `Passed`: schemas that are flattened through and members that have had their turn.
  They add nothing when they are met again (`Finished.within`, `within_of_passed`).
* `Way` and `Circle`: the schemas on the way to one, each of which awaits the next, and those that
  go round. No depth is enough for a flattening that goes round (`Circle.ne_ok`).
* `Settled.depth_lt`: below a way without repetitions each step down leaves fewer schemas, by
  induction on those that are left.
* `flatten_depthBound`: with the depth that its document allows, a flattening comes to what it comes
  to with any greater depth.
-/

namespace ApiScaffold

namespace Model

open Attempt

variable {spec : Spec} {model origin : String} {visiting way : List String}
  {schema target top : Members} {g h before : Gathered} {depth : Nat}

/-! ## Schemas of a document -/

/-- A schema stands in the document or in the schema at the top. -/
def Stands (spec : Spec) (top schema : Members) : Prop :=
  spec.document.Nests (.map schema) ∨ (Value.map top).Nests (.map schema)

theorem nests_of_hasMember {member : Members} (hs : (Value.map schema).isProper = true)
    (hm : HasMember schema member) : (Value.map schema).Nests (.map member) := by
  obtain ⟨keyword, v, vs, hget, he, hin, -⟩ := hm
  obtain ⟨rfl, -⟩ := Value.isProper_of_elements (Value.isProper_of_get? hs hget) he hin
  exact (Value.Nests.get? hget).trans (.item hin (.refl _))

/-- Following references ends where it starts, or in the document. -/
theorem nests_of_derefs {members : Members} (h : spec.Derefs members target) :
    target = members ∨ spec.document.Nests (.map target) := by
  induction h with
  | done _ => exact .inl rfl
  | step _ hr _ ih =>
      rcases ih with rfl | hn
      · exact .inr (Spec.nests_of_resolve hr)
      · exact .inr hn

/-- A member of a schema of the document leads to a schema of the document. -/
theorem Stands.composes (hd : spec.IsProper) (ht : (Value.map top).isProper = true)
    (hs : Stands spec top schema) (hc : Composes spec schema target) : Stands spec top target := by
  obtain ⟨member, hm, hderefs⟩ := hc
  rcases nests_of_derefs hderefs with rfl | hn
  · exact hs.imp (fun hn => hn.trans (nests_of_hasMember (hn.isProper hd) hm))
      fun hn => hn.trans (nests_of_hasMember (hn.isProper ht) hm)
  · exact .inl hn

/-- Different schemas of a document are not more than its values. -/
theorem length_le_of_stands {schemas : List Members} (hn : schemas.Nodup)
    (hs : ∀ s ∈ schemas, Stands spec top s) :
    schemas.length ≤ spec.document.nodeCount + (Value.map top).nodeCount := by
  have hsub : schemas.map Value.map ⊆ spec.document.parts ++ (Value.map top).parts := by
    intro v hv
    obtain ⟨s, hin, rfl⟩ := List.mem_map.mp hv
    rw [List.mem_append, Value.mem_parts, Value.mem_parts]
    exact hs s hin
  have hnodup : (schemas.map Value.map).Nodup :=
    List.Nodup.map (fun _ _ h => Value.map.inj h) hn
  have hle := (List.subperm_of_subset hnodup hsub).length_le
  rwa [List.length_map, List.length_append, Value.length_parts, Value.length_parts] at hle

/-! ## What is finished -/

/-- A schema is flattened through: its own properties are declared, the components among its members
are flattened, and what the other members lead to is flattened through. -/
inductive Finished (spec : Spec) (g : Gathered) : Members → Prop
  | intro {schema : Members} (own : g.Covers schema)
      (components : ∀ member reference component, .ok member ∈ listed schema →
        member.value = .map reference → Spec.schemaTarget? reference = some component →
        component ∈ g.flattened)
      (others : ∀ member reference target, .ok member ∈ listed schema →
        member.value = .map reference → Spec.schemaTarget? reference = none →
        spec.deref reference = .ok target → Finished spec g target) : Finished spec g schema

/-- A member has had its turn: if it refers to a component, that is flattened, and else what it
leads to is flattened through. -/
structure Passed (spec : Spec) (g : Gathered) (member : Member) : Prop where
  component : ∀ reference component, member.value = .map reference →
    Spec.schemaTarget? reference = some component → component ∈ g.flattened
  other : ∀ reference target, member.value = .map reference →
    Spec.schemaTarget? reference = none → spec.deref reference = .ok target → Finished spec g target

variable {member : Member} {members : List (Attempt Member)}
  {follow : String → List String → Members → Gathered → Attempt Gathered}

theorem finished_iff : Finished spec g schema ↔
    g.Covers schema ∧ ∀ member, .ok member ∈ listed schema → Passed spec g member := by
  constructor
  · rintro ⟨own, components, others⟩
    exact ⟨own, fun member hm =>
      ⟨fun reference component => components member reference component hm,
        fun reference target => others member reference target hm⟩⟩
  · rintro ⟨own, members⟩
    exact ⟨own,
      fun member reference component hm => (members member hm).component reference component,
      fun member reference target hm => (members member hm).other reference target⟩

theorem Finished.mono (hs : Finished spec g schema) (hgh : g.Within h) :
    Finished spec h schema := by
  induction hs with
  | intro own components _ ih =>
      exact .intro (own.mono hgh)
        (fun member reference component hm hv hc =>
          hgh.flattened (components member reference component hm hv hc)) ih

theorem Passed.mono (hm : Passed spec g member) (hgh : g.Within h) : Passed spec h member :=
  ⟨fun reference component hv hc => hgh.flattened (hm.component reference component hv hc),
    fun reference target hv hn hd => (hm.other reference target hv hn hd).mono hgh⟩

theorem Passed.of_value {reference : Members} (hv : member.value = .map reference)
    (hc : ∀ component, Spec.schemaTarget? reference = some component → component ∈ g.flattened)
    (ho : ∀ target, Spec.schemaTarget? reference = none → spec.deref reference = .ok target →
      Finished spec g target) : Passed spec g member where
  component reference' component hv' := by
    rw [hv] at hv'
    cases hv'
    exact hc component
  other reference' target hv' := by
    rw [hv] at hv'
    cases hv'
    exact ho target

/-- Members whose turns are taken have passed. -/
theorem passed_of_takeTurns
    (hw : ∀ origin visiting target g h, follow origin visiting target g = .ok h → g.Within h)
    (hf : ∀ origin visiting target g h, follow origin visiting target g = .ok h →
      Finished spec h target)
    (ht : takeTurns spec model follow origin visiting members g = .ok h) :
    ∀ member, .ok member ∈ members → Passed spec h member := by
  induction members generalizing g with
  | nil => exact fun _ hin => by cases hin
  | cons first rest ih =>
      cases first with
      | error failure => cases ht
      | ok first =>
          rw [takeTurns_cons_ok] at ht
          obtain ⟨next, hrun, ht⟩ := bind_eq_ok.mp ht
          intro member hin
          rcases List.mem_cons.mp hin with heq | hin
          · -- what has passed after its own turn has passed after all later turns
            cases heq
            refine Passed.mono ?_ (within_of_takeTurns hw ht)
            rcases run_ok hrun with hturn | ⟨start, way, target, other, hturn, hcall⟩
            · obtain ⟨reference, component, hv, hc, -, hin, -⟩ := pass_cases hturn
              refine .of_value hv (fun other ho => ?_) fun target hn _ => ?_
              · rw [hc] at ho
                cases ho
                exact (alike_of_pass hturn).1.flattened hin
              · rw [hc] at hn
                cases hn
            · obtain ⟨reference, hv, hd, hcases⟩ := call_cases hturn
              refine .of_value hv (fun component' hc' => ?_) fun target' _ hd' => ?_
              · rcases hcases with ⟨component, hc, -, -, -, rfl⟩ | ⟨hn, -⟩
                · rw [hc] at hc'
                  cases hc'
                  exact (hw _ _ _ _ _ hcall).flattened (Gathered.mem_enter _ _)
                · rw [hn] at hc'
                  cases hc'
              · rw [hd] at hd'
                cases hd'
                exact hf _ _ _ _ _ hcall
          · exact ih ht member hin

/-- A schema that is flattened is flattened through. -/
theorem finished_of_flatten (hf : flatten spec model depth origin visiting schema g = .ok h) :
    Finished spec h schema := by
  induction depth generalizing origin visiting schema g h with
  | zero => cases hf
  | succ depth ih =>
      rw [flatten_succ] at hf
      obtain ⟨own, hown, ht⟩ := bind_eq_ok.mp hf
      refine finished_iff.mpr ⟨(covers_of_declareOwn hown).mono
        (within_of_takeTurns (fun _ _ _ _ _ => within_of_flatten) ht), ?_⟩
      exact passed_of_takeTurns (fun _ _ _ _ _ => within_of_flatten) (fun _ _ _ _ _ => ih) ht

/-- A member that has passed calls for no component. -/
theorem Passed.call_cases {start : String} (hp : Passed spec before member)
    (hg : before.Within g)
    (ht : turn spec model origin visiting member g = .call start way target h) :
    way = visiting ∧ h = g ∧ Finished spec before target := by
  obtain ⟨reference, hv, hd, ⟨component, hc, -, hnot, -⟩ | ⟨hn, rfl, rfl⟩⟩ := Model.call_cases ht
  · exact absurd (hg.flattened (hp.component reference component hv hc)) hnot
  · exact ⟨rfl, rfl, hp.other reference target hv hn hd⟩

/-- Members that have passed add nothing. -/
theorem within_of_passed
    (hf : ∀ origin visiting target g h, Finished spec before target → before.Within g →
      follow origin visiting target g = .ok h → h.Within g)
    (hp : ∀ member, .ok member ∈ members → Passed spec before member) (hg : before.Within g)
    (hw : ∀ origin visiting target g h, follow origin visiting target g = .ok h → g.Within h)
    (ht : takeTurns spec model follow origin visiting members g = .ok h) : h.Within g := by
  induction members generalizing g with
  | nil =>
      cases ht
      exact .refl _
  | cons first rest ih =>
      cases first with
      | error failure => cases ht
      | ok member =>
          rw [takeTurns_cons_ok] at ht
          obtain ⟨next, hrun, ht⟩ := bind_eq_ok.mp ht
          have hnext : g.Alike next := by
            rcases run_ok hrun with hturn | ⟨start, way, target, other, hturn, hcall⟩
            · exact alike_of_pass hturn
            · obtain ⟨-, rfl, hfinished⟩ := (hp member List.mem_cons_self).call_cases hg hturn
              exact ⟨hw _ _ _ _ _ hcall, hf _ _ _ _ _ hfinished hg hcall⟩
          exact (ih (fun member hin => hp member (List.mem_cons_of_mem _ hin)) (hg.trans hnext.1)
            ht).trans hnext.2

/-- A schema that is flattened through adds nothing. -/
theorem Finished.within (hs : Finished spec before schema) (hg : before.Within g)
    (hf : flatten spec model depth origin visiting schema g = .ok h) : h.Within g := by
  induction depth generalizing origin visiting schema g h with
  | zero => cases hf
  | succ depth ih =>
      rw [flatten_succ] at hf
      obtain ⟨own, hown, ht⟩ := bind_eq_ok.mp hf
      obtain ⟨hcovers, hpassed⟩ := finished_iff.mp hs
      have hwithin := within_of_passed (fun _ _ _ _ _ hs hg hf => ih hs hg hf) hpassed
        (hg.trans (within_of_declareOwn hown)) (fun _ _ _ _ _ => within_of_flatten) ht
      exact hwithin.trans ((hcovers.mono hg).within hown)

/-- Members that have passed leave what is declared and flattened as it is. -/
theorem alike_of_passed (hp : ∀ member, .ok member ∈ members → Passed spec before member)
    (hg : before.Alike g)
    (ht : takeTurns spec model (flatten spec model depth) origin visiting members g = .ok h) :
    before.Alike h :=
  hg.trans ⟨within_of_takeTurns (fun _ _ _ _ _ => within_of_flatten) ht,
    within_of_passed (fun _ _ _ _ _ hs hg hf => hs.within hg hf) hp hg.1
      (fun _ _ _ _ _ => within_of_flatten) ht⟩

/-! ## The way to a schema -/

/-- The turn of a member of a schema has come, which is to flatten another schema; the members
before it have passed. If the member refers to a component, that is on the way. -/
inductive Awaits (spec : Spec) (visiting : List String) (g : Gathered) (schema target : Members) :
    Prop
  | intro {before after : List (Attempt Member)} {member : Member} {reference : Members}
      (own : g.Covers schema) (hl : listed schema = before ++ .ok member :: after)
      (passed : ∀ earlier, .ok earlier ∈ before → Passed spec g earlier)
      (hv : member.value = .map reference) (hd : spec.deref reference = .ok target)
      (hc : ∀ component, Spec.schemaTarget? reference = some component → component ∈ visiting)

/-- The schemas on the way to one, the last first, each of which awaits the next. -/
inductive Way (spec : Spec) (visiting : List String) (g : Gathered) : List Members → Members → Prop
  | start (schema : Members) : Way spec visiting g [] schema
  | step {passed : List Members} {schema target : Members} (h : Way spec visiting g passed schema)
      (ha : Awaits spec visiting g schema target) : Way spec visiting g (schema :: passed) target

variable {passed : List Members} {further : List String}

theorem Awaits.mono (ha : Awaits spec visiting g schema target) (hv : visiting ⊆ further)
    (hgh : g.Within h) : Awaits spec further h schema target := by
  obtain ⟨own, hl, passed, hval, hd, hc⟩ := ha
  exact .intro (own.mono hgh) hl (fun earlier hin => (passed earlier hin).mono hgh) hval hd
    fun component hcomponent => hv (hc component hcomponent)

theorem Way.mono (hw : Way spec visiting g passed schema) (hv : visiting ⊆ further)
    (hgh : g.Within h) : Way spec further h passed schema := by
  induction hw with
  | start schema => exact .start schema
  | step _ ha ih => exact .step ih (ha.mono hv hgh)

/-- A schema whose turns have come to a call awaits what is called for. -/
theorem Calls.awaits {start : String}
    (hc : Calls spec model depth origin visiting schema g start way target h) :
    Awaits spec way h schema target := by
  obtain ⟨hown, hlisted, hturns, hturn⟩ := hc
  obtain ⟨reference, hv, hd, hcases⟩ := call_cases hturn
  have hwithin := within_of_call hturn
  have hbetween := within_of_takeTurns (fun _ _ _ _ _ => within_of_flatten) hturns
  have hpassed := passed_of_takeTurns (fun _ _ _ _ _ => within_of_flatten)
    (fun _ _ _ _ _ => finished_of_flatten) hturns
  refine .intro ((covers_of_declareOwn hown).mono (hbetween.trans hwithin)) hlisted
    (fun earlier hin => (hpassed earlier hin).mono hwithin) hv hd fun other ho => ?_
  rcases hcases with ⟨component, hcomponent, -, -, rfl, -⟩ | ⟨hnone, -⟩
  · rw [hcomponent] at ho
    cases ho
    simp
  · rw [hnone] at ho
    cases ho

/-- Schemas each of which awaits one of them. -/
def Circle (spec : Spec) (visiting : List String) (g : Gathered) (loop : List Members) : Prop :=
  ∀ schema ∈ loop, ∃ next ∈ loop, Awaits spec visiting g schema next

/-- A way that comes to a schema on it goes round. -/
theorem Way.circle (hw : Way spec visiting g passed schema) (hin : schema ∈ passed) :
    Circle spec visiting g passed := by
  have hnext : ∀ s ∈ passed, ∃ next, (next = schema ∨ next ∈ passed)
      ∧ Awaits spec visiting g s next := by
    clear hin
    induction hw with
    | start schema => simp
    | @step passed schema target _ ha ih =>
        intro s hs
        rcases List.mem_cons.mp hs with rfl | hs
        · exact ⟨target, .inl rfl, ha⟩
        · obtain ⟨next, rfl | hnext, ha'⟩ := ih s hs
          · exact ⟨next, .inr List.mem_cons_self, ha'⟩
          · exact ⟨next, .inr (List.mem_cons_of_mem _ hnext), ha'⟩
  intro s hs
  obtain ⟨next, rfl | hnext, ha⟩ := hnext s hs
  · exact ⟨next, hin, ha⟩
  · exact ⟨next, hnext, ha⟩

/-! ## Going round -/

section Awaited

variable {reference : Members} {earlier later : List (Attempt Member)}
  (hv : member.value = .map reference) (hd : spec.deref reference = .ok target)
  (hc : ∀ component, Spec.schemaTarget? reference = some component → component ∈ visiting)

include hv hd hc

/-- The member that a schema awaits calls for what is awaited, and changes nothing before. -/
theorem call_of_awaited {start : String} {other : Members}
    (ht : turn spec model origin visiting member g = .call start way other h) :
    way = visiting ∧ other = target ∧ h = g := by
  obtain ⟨reference', hv', hd', hcases⟩ := call_cases ht
  rw [hv] at hv'
  cases hv'
  rw [hd] at hd'
  cases hd'
  rcases hcases with ⟨component, hcomponent, hnot, -⟩ | ⟨-, rfl, rfl⟩
  · exact absurd (hc component hcomponent) hnot
  · exact ⟨rfl, rfl, rfl⟩

/-- No turns come to a result among which is that of a member whose target has none. -/
theorem takeTurns_ne_ok (hnot : ∀ start g h, follow start visiting target g ≠ .ok h) :
    takeTurns spec model follow origin visiting (earlier ++ .ok member :: later) g ≠ .ok h := by
  intro ht
  rw [takeTurns_append] at ht
  obtain ⟨between, -, ht⟩ := bind_eq_ok.mp ht
  rw [takeTurns_cons_ok] at ht
  obtain ⟨after, hrun, -⟩ := bind_eq_ok.mp ht
  rcases run_ok hrun with hturn | ⟨start, way, other, next, hturn, hcall⟩
  · obtain ⟨reference', component, hv', hcomponent, hfresh, -⟩ := pass_cases hturn
    rw [hv] at hv'
    cases hv'
    exact hfresh (hc component hcomponent)
  · obtain ⟨rfl, rfl, rfl⟩ := call_of_awaited hv hd hc hturn
    exact hnot _ _ _ hcall

end Awaited

/-- A flattening that goes round never comes to a result. -/
theorem Circle.ne_ok {loop : List Members} (hl : Circle spec visiting before loop)
    (hs : schema ∈ loop) : flatten spec model depth origin visiting schema g ≠ .ok h := by
  induction depth generalizing origin schema g h with
  | zero => exact fun hf => by cases hf
  | succ depth ih =>
      intro hf
      rw [flatten_succ] at hf
      obtain ⟨own, -, ht⟩ := bind_eq_ok.mp hf
      obtain ⟨next, hnext, -, hlisted, -, hv, hd, hc⟩ := hl schema hs
      rw [hlisted] at ht
      exact takeTurns_ne_ok hv hd hc (fun _ _ _ => ih hnext) ht

/-- A schema is flattened through, or the way goes round by it. -/
def Settled (spec : Spec) (g : Gathered) (loop : List Members) (schema : Members) : Prop :=
  Finished spec g schema ∨ schema ∈ loop

/-- More depth than this is all that a schema needs where just this is declared and flattened. -/
def Needs (spec : Spec) (model : String) (visiting : List String) (g : Gathered) (schema : Members)
    (depth : Nat) : Prop :=
  ∃ origin h, g.Alike h ∧ Ends (flatten spec model (depth + 1) origin visiting schema h)
    ∧ ¬Ends (flatten spec model depth origin visiting schema h)

/-- A schema needs no two depths. -/
theorem Needs.not_lt {more : Nat} (hd : Needs spec model visiting g schema depth)
    (hm : Needs spec model visiting g schema more) : ¬depth < more := by
  obtain ⟨origin, h, hgh, hends, -⟩ := hd
  obtain ⟨start, k, hgk, -, hnot⟩ := hm
  intro hlt
  have hmore : Ends (flatten spec model more origin visiting schema h) := by
    rwa [flatten_eq_of_le (Nat.succ_le_of_lt hlt) hends]
  exact hnot ((flatten_similar (hgh.symm.trans hgk)).ends.mp hmore)

/-- Two ways to split a list: at one item, at an item of the first part of the other, or behind the
item of the other. -/
theorem split_cases {α : Type} {before before' after after' : List α} {x y : α}
    (h : before ++ x :: after = before' ++ y :: after') :
    (before = before' ∧ x = y) ∨ (before ⊆ before' ∧ x ∈ before')
      ∨ ∃ between, before = before' ++ y :: between := by
  rcases List.append_eq_append_iff.mp h with ⟨rest, rfl, hrest⟩ | ⟨rest, rfl, hrest⟩
  · cases rest with
    | nil => exact .inl ⟨(List.append_nil _).symm, (List.cons.inj hrest).1⟩
    | cons z rest =>
        obtain ⟨rfl, -⟩ := List.cons.inj hrest
        exact .inr (.inl ⟨List.subset_append_left _ _, by simp⟩)
  · cases rest with
    | nil => exact .inl ⟨List.append_nil _, (List.cons.inj hrest).1.symm⟩
    | cons z rest =>
        obtain ⟨rfl, -⟩ := List.cons.inj hrest
        exact .inr (.inr ⟨rest, rfl⟩)

theorem Settled.covers {loop : List Members} (hl : Circle spec visiting g loop)
    (hs : Settled spec g loop schema) : g.Covers schema := by
  rcases hs with hs | hs
  · exact (finished_iff.mp hs).1
  · obtain ⟨_, -, own, -⟩ := hl schema hs
    exact own

/-- The members of a settled schema whose turns come have passed, or the last of them is awaited:
those behind an awaited member have no turn. -/
theorem Settled.faced {loop : List Members} {own between : Gathered}
    {earlier later : List (Attempt Member)} (hl : Circle spec visiting g loop)
    (hs : Settled spec g loop schema) (hlisted : listed schema = earlier ++ .ok member :: later)
    (hturns : takeTurns spec model (flatten spec model depth) origin visiting earlier own
      = .ok between) :
    (∀ other, .ok other ∈ earlier → Passed spec g other)
      ∧ (Passed spec g member ∨ ∃ reference, member.value = .map reference
        ∧ (∃ target ∈ loop, spec.deref reference = .ok target)
        ∧ ∀ component, Spec.schemaTarget? reference = some component → component ∈ visiting) := by
  rcases hs with hs | hs
  · have hall := (finished_iff.mp hs).2
    rw [hlisted] at hall
    exact ⟨fun other hin => hall other (List.mem_append_left _ hin),
      .inl (hall member (List.mem_append_right _ List.mem_cons_self))⟩
  · obtain ⟨next, hnext, -, hawaits, hpassed, hv, hd, hc⟩ := hl schema hs
    rcases split_cases (hlisted.symm.trans hawaits) with ⟨rfl, heq⟩ | ⟨hsub, hin⟩ | ⟨rest, rfl⟩
    · cases heq
      exact ⟨hpassed, .inr ⟨_, hv, ⟨next, hnext, hd⟩, hc⟩⟩
    · exact ⟨fun other ho => hpassed other (hsub ho), .inl (hpassed member hin)⟩
    · -- the member which is awaited has no result, so the turn is not behind its
      exact absurd hturns (takeTurns_ne_ok hv hd hc fun _ _ _ => hl.ne_ok hnext)

theorem Settled.alike_of_declareOwn {loop : List Members} {own : Gathered}
    (hl : Circle spec visiting g loop) (hs : Settled spec g loop schema) (hgh : g.Alike before)
    (hown : declareOwn model origin schema before = .ok own) : g.Alike own :=
  hgh.trans ⟨within_of_declareOwn hown, ((hs.covers hl).mono hgh.1).within hown⟩

/-- What a settled schema calls for is settled, and it is called for on the same way and where the
same is declared and flattened. -/
theorem Settled.call {loop : List Members} {start : String} (hl : Circle spec visiting g loop)
    (hs : Settled spec g loop schema) (hgh : g.Alike before)
    (hcall : Calls spec model depth origin visiting schema before start way target h) :
    way = visiting ∧ g.Alike h ∧ Settled spec g loop target := by
  obtain @⟨own, between, earlier, later, member, hown, hlisted, hturns, hturn⟩ := hcall
  obtain ⟨hpassed, hmember⟩ := hs.faced hl hlisted hturns
  have hbetween := alike_of_passed hpassed (hs.alike_of_declareOwn hl hgh hown) hturns
  rcases hmember with hmember | ⟨reference, hv, ⟨next, hnext, hd⟩, hc⟩
  · obtain ⟨rfl, rfl, hf⟩ := hmember.call_cases hbetween.1 hturn
    exact ⟨rfl, hbetween, .inl hf⟩
  · obtain ⟨rfl, rfl, rfl⟩ := call_of_awaited hv hd hc hturn
    exact ⟨rfl, hbetween, .inr hnext⟩

/-- What a settled schema needs is needed for a settled schema that it leads to, and one less. -/
theorem Settled.step {loop : List Members} (hl : Circle spec visiting g loop)
    (hs : Settled spec g loop schema) (hn : Needs spec model visiting g schema (depth + 1)) :
    ∃ target, Settled spec g loop target ∧ Composes spec schema target
      ∧ Needs spec model visiting g target depth := by
  obtain ⟨origin, h, hgh, hmore, hless⟩ := hn
  obtain ⟨start, way, target, g', hcall, hends, hnot⟩ := exists_call hmore hless
  obtain ⟨rfl, hgg', hsettled⟩ := hs.call hl hgh hcall
  exact ⟨target, hsettled, hcall.composes, start, g', hgg', hends, hnot⟩

/-- What a settled schema needs is less than there are values: on the way down each schema needs
less than the one before, so they all differ. -/
theorem Settled.depth_lt {loop : List Members} (hd : spec.IsProper)
    (ht : (Value.map top).isProper = true) (hl : Circle spec visiting g loop)
    (hs : Settled spec g loop schema) (hstands : Stands spec top schema)
    (hn : Needs spec model visiting g schema depth) :
    depth < spec.document.nodeCount + (Value.map top).nodeCount := by
  have hdown : ∃ schemas : List Members, schemas.Nodup ∧ schemas.length = depth + 1
      ∧ ∀ s ∈ schemas, Stands spec top s
        ∧ ∃ less ≤ depth, Needs spec model visiting g s less := by
    induction depth generalizing schema with
    | zero =>
        refine ⟨[schema], List.nodup_singleton _, rfl, fun s hin => ?_⟩
        rw [List.mem_singleton.mp hin]
        exact ⟨hstands, 0, Nat.le_refl 0, hn⟩
    | succ depth ih =>
        obtain ⟨target, hsettled, hcomposes, hneeds⟩ := hs.step hl hn
        obtain ⟨schemas, hnodup, hlength, hall⟩ :=
          ih hsettled (hstands.composes hd ht hcomposes) hneeds
        refine ⟨schema :: schemas, List.nodup_cons.mpr ⟨fun hin => ?_, hnodup⟩, by simp [hlength],
          fun s hin => ?_⟩
        · obtain ⟨-, less, hless, hneeds⟩ := hall schema hin
          exact hneeds.not_lt hn (Nat.lt_succ_of_le hless)
        · rcases List.mem_cons.mp hin with rfl | hin
          · exact ⟨hstands, depth + 1, Nat.le_refl _, hn⟩
          · obtain ⟨hstands, less, hless, hneeds⟩ := hall s hin
            exact ⟨hstands, less, Nat.le_succ_of_le hless, hneeds⟩
  obtain ⟨schemas, hnodup, hlength, hall⟩ := hdown
  have hle := length_le_of_stands hnodup fun s hin => (hall s hin).1
  omega

/-! ## The bound -/

/-- What a schema at the end of a way without repetitions needs, together with the way, is at most
twice the number of values: the way to a schema that is on it, and what is needed from there. -/
theorem Way.depth_lt (hd : spec.IsProper) (ht : (Value.map top).isProper = true)
    (hw : Way spec visiting g passed schema) (hnodup : passed.Nodup)
    (hstands : ∀ s ∈ schema :: passed, Stands spec top s)
    (hends : Ends (flatten spec model (depth + 1) origin visiting schema g))
    (hnot : ¬Ends (flatten spec model depth origin visiting schema g)) :
    depth + passed.length < 2 * (spec.document.nodeCount + (Value.map top).nodeCount) := by
  have hpassed := length_le_of_stands hnodup fun s hin => hstands s (List.mem_cons_of_mem _ hin)
  induction depth generalizing origin visiting passed schema g with
  | zero =>
      have hpos : 0 < (Value.map top).nodeCount := by
        rw [Value.nodeCount]
        omega
      omega
  | succ depth ih =>
      by_cases hin : schema ∈ passed
      · -- the way is closed here, and what is needed from here on is bounded by itself
        have hlt := Settled.depth_lt hd ht (hw.circle hin) (.inr hin)
          (hstands schema List.mem_cons_self) ⟨origin, g, .refl g, hends, hnot⟩
        omega
      · -- the way goes on to what is called for, with one depth less and one schema more
        obtain ⟨start, way, target, g', hcall, hends, hnot⟩ := exists_call hends hnot
        have hnodup' : (schema :: passed).Nodup := List.nodup_cons.mpr ⟨hin, hnodup⟩
        have htarget : Stands spec top target :=
          (hstands schema List.mem_cons_self).composes hd ht hcall.composes
        have hnext : ∀ s ∈ target :: schema :: passed, Stands spec top s :=
          List.forall_mem_cons.mpr ⟨htarget, hstands⟩
        have hlt := ih (.step (hw.mono hcall.subset hcall.within) hcall.awaits) hnodup' hnext hends
          hnot (length_le_of_stands hnodup' hstands)
        rw [List.length_cons] at hlt
        omega

/-- With the depth that its document allows, a flattening comes to what it comes to with any more.
-/
theorem flatten_depthBound (hd : spec.IsProper)
    (hs : (Value.map schema).isProper = true) (hdepth : depthBound spec schema ≤ depth) :
    flatten spec model depth origin visiting schema g
      = flatten spec model (depthBound spec schema) origin visiting schema g := by
  by_cases hends : Ends (flatten spec model (depthBound spec schema) origin visiting schema g)
  · exact flatten_eq_of_le hdepth hends
  · -- a first depth with which it ends would be a depth that it needs
    have hall : ¬Ends (flatten spec model depth origin visiting schema g) := by
      induction hdepth with
      | refl => exact hends
      | @step depth hle ih =>
          intro hmore
          have hstart : Way spec visiting g [] schema := .start schema
          have hlt := hstart.depth_lt hd hs List.nodup_nil
            (fun s hin => .inr (by rw [List.mem_singleton.mp hin]; exact .refl _)) hmore ih
          have hbound : depthBound spec schema ≤ depth := hle
          rw [depthBound] at hbound
          rw [List.length_nil] at hlt
          omega
    rw [eq_of_not_ends hall, eq_of_not_ends hends]

end Model

end ApiScaffold
