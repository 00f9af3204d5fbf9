import ApiScaffold.Proofs.Document.Key
import ApiScaffold.Proofs.Model.Fault
import ApiScaffold.Proofs.Model.Stage

/-!
# Going round

A flattening that comes to a schema on its way goes through the schemas from there on once more, and
everything that it meets has been met before. So it is refused as circular exactly if it comes to a
component on the way before it declares a property again; if it comes to neither it goes round
without end.

* `IsCircularity`: the failures that report a circle, of compositions or of references.
* `Bare`, `Idle` and `Caught`: a schema that declares no property, members whose turns come to
  nothing new, and such members with one behind them that is refused as circular.
* `Caught.refused`: turns of which one is refused as circular are so whatever else has been
  gathered.
* `Settled.caught`: where the way goes round and is refused as circular, the members of its schemas
  are caught.
-/

namespace ApiScaffold

/-- The failures that report a circle, of compositions or of references. -/
inductive IsCircularity : Failure → Prop
  | composition (subject : Value) (component : String) :
      IsCircularity (.build subject (.circularComposition component))
  | reference (reference : Value) : IsCircularity (.spec (.circularReference reference))

namespace Model

open Attempt

variable {spec : Spec} {model origin : String} {visiting flattened : List String}
  {schema : Members} {entries before after : List (Attempt Member)} {g h own between : Gathered}
  {depth : Nat} {failure : Failure}

/-! ## What is met again -/

/-- A schema that can be gone through again, since it declares no property; for what is not one key
with itself is none. -/
structure Bare (schema : Members) : Prop where
  properties : ∃ own, entriesUnder schema "properties" = .ok own
    ∧ ∀ entry ∈ own, entry.1.keyEq entry.1 = false
  required : ∃ names, elementsUnder schema "required" = .ok names
    ∧ names.all Value.isKey = true

/-- The turns of members come to nothing new: their components are flattened and not on the way, and
what the others lead to declares nothing and has such members. -/
inductive Idle (spec : Spec) (visiting flattened : List String) : List (Attempt Member) → Prop
  | nil : Idle spec visiting flattened []
  | component {member : Member} {reference : Members} {component : String}
      {rest : List (Attempt Member)} (hv : member.value = .map reference)
      (hc : Spec.schemaTarget? reference = some component) (hin : component ∈ flattened)
      (hnot : component ∉ visiting) (hrest : Idle spec visiting flattened rest) :
      Idle spec visiting flattened (.ok member :: rest)
  | inner {member : Member} {reference target : Members} {rest : List (Attempt Member)}
      (hv : member.value = .map reference) (hc : Spec.schemaTarget? reference = none)
      (hd : spec.deref reference = .ok target) (hb : Bare target)
      (hin : Idle spec visiting flattened (listed target))
      (hrest : Idle spec visiting flattened rest) :
      Idle spec visiting flattened (.ok member :: rest)

/-- Behind members whose turns come to nothing new, the turn of one is refused as circular: it is of
a component on the way, or its references circle, or what it leads to declares nothing and has such
members. -/
inductive Caught (spec : Spec) (visiting flattened : List String) : List (Attempt Member) → Prop
  | component {before after : List (Attempt Member)} {member : Member} {reference : Members}
      {component : String} (hb : Idle spec visiting flattened before)
      (hv : member.value = .map reference) (hc : Spec.schemaTarget? reference = some component)
      (hin : component ∈ visiting) :
      Caught spec visiting flattened (before ++ .ok member :: after)
  | reference {before after : List (Attempt Member)} {member : Member} {reference : Members}
      {value : Value} (hb : Idle spec visiting flattened before)
      (hv : member.value = .map reference) (hc : Spec.schemaTarget? reference = none)
      (hd : spec.deref reference = .error (.spec (.circularReference value))) :
      Caught spec visiting flattened (before ++ .ok member :: after)
  | inner {before after : List (Attempt Member)} {member : Member} {reference target : Members}
      (hb : Idle spec visiting flattened before) (hv : member.value = .map reference)
      (hc : Spec.schemaTarget? reference = none) (hd : spec.deref reference = .ok target)
      (hbare : Bare target) (hin : Caught spec visiting flattened (listed target)) :
      Caught spec visiting flattened (before ++ .ok member :: after)

/-! ## Turns that come to nothing new -/

theorem keyEq_eq_false_of_self {v w : Value} (h : v.keyEq v = false) : w.keyEq v = false := by
  rw [Bool.eq_false_iff, ne_eq, Value.keyEq_iff] at h ⊢
  rintro ⟨heq, hsome⟩
  exact h ⟨rfl, heq ▸ hsome⟩

theorem declareAll_of_self {own : Members} {declared : List Declared}
    (h : ∀ entry ∈ own, entry.1.keyEq entry.1 = false) :
    ∃ result, declareAll model origin own declared = .ok result := by
  induction own generalizing declared with
  | nil => exact ⟨declared, rfl⟩
  | cons entry rest ih =>
      obtain ⟨name, schema⟩ := entry
      obtain ⟨hname, hrest⟩ := List.forall_mem_cons.mp h
      have hnone : declared.find? (fun d => d.name.keyEq name) = none :=
        List.find?_eq_none.mpr fun d _ => by simp [keyEq_eq_false_of_self hname]
      rw [declareAll, hnone]
      exact ih hrest

theorem Bare.declareOwn (h : Bare schema) (model origin : String) (g : Gathered) :
    ∃ own, declareOwn model origin schema g = .ok own := by
  obtain ⟨⟨own, hown, hself⟩, names, hnames, hkeys⟩ := h
  obtain ⟨result, hresult⟩ := @declareAll_of_self model origin own g.properties hself
  refine ⟨{ g with properties := result, required := g.required ++ names },
    bind_eq_ok.mpr ⟨own, hown, bind_eq_ok.mpr ⟨result, hresult, bind_eq_ok.mpr ⟨names, hnames, ?_⟩⟩⟩⟩
  rw [if_pos hkeys]
  rfl

theorem turn_of_component {member : Member} {reference : Members} {component : String}
    (hv : member.value = .map reference) (hc : Spec.schemaTarget? reference = some component)
    (hin : component ∈ visiting) :
    turn spec model origin visiting member g
      = .stop (.build (.str model) (.circularComposition component)) := by
  simp only [turn, hv, hc, List.contains_iff_mem, hin, if_true]

theorem turn_of_flattened {member : Member} {reference : Members} {component : String}
    (hv : member.value = .map reference) (hc : Spec.schemaTarget? reference = some component)
    (hnot : component ∉ visiting) (hin : component ∈ g.flattened) :
    turn spec model origin visiting member g = .pass (g.noted model origin component) := by
  simp only [turn, hv, hc, List.contains_iff_mem, hnot, if_false, Gathered.noted_flattened, hin,
    if_true]

theorem turn_of_inner {member : Member} {reference target : Members}
    (hv : member.value = .map reference) (hc : Spec.schemaTarget? reference = none)
    (hd : spec.deref reference = .ok target) :
    turn spec model origin visiting member g
      = .call (origin ++ "." ++ member.keyword ++ "[" ++ toString member.index ++ "]") visiting target
        g := by
  simp only [turn, hv, hc, hd]

theorem flatten_of_declareOwn (hown : declareOwn model origin schema g = .ok own) (depth : Nat) :
    flatten spec model (depth + 1) origin visiting schema g
      = takeTurns spec model (flatten spec model depth) origin visiting (listed schema) own := by
  rw [flatten_succ, hown]
  rfl

/-- Turns that come to nothing new have a result, with enough depth. -/
theorem Idle.takeTurns (h : Idle spec visiting flattened entries) (model origin : String)
    (hg : flattened ⊆ g.flattened) :
    ∃ least after, flattened ⊆ after.flattened ∧ ∀ depth, least ≤ depth →
      takeTurns spec model (flatten spec model depth) origin visiting entries g = .ok after := by
  induction h generalizing origin g with
  | nil => exact ⟨0, g, hg, fun _ _ => rfl⟩
  | @component member reference component rest hv hc hin hnot _ ih =>
      obtain ⟨least, after, hafter, hall⟩ :=
        @ih (g.noted model origin component) origin (by rwa [Gathered.noted_flattened])
      refine ⟨least, after, hafter, fun depth hd => ?_⟩
      rw [takeTurns_cons_ok, turn_of_flattened hv hc hnot (hg hin)]
      exact hall depth hd
  | @inner member reference target rest hv hc hd hb _ _ ihin ihrest =>
      have hturn : turn spec model origin visiting member g = _ := turn_of_inner hv hc hd
      obtain ⟨own, hown⟩ := hb.declareOwn model
        (origin ++ "." ++ member.keyword ++ "[" ++ toString member.index ++ "]") g
      obtain ⟨least, between, hbetween, hinner⟩ := ihin _ ((declareOwn_eq_ok hown).1 ▸ hg)
      obtain ⟨more, after, hafter, hrest⟩ := ihrest origin hbetween
      -- enough for what the member leads to, which takes one more, and for the rest
      refine ⟨max least more + 1, after, hafter, fun depth hd => ?_⟩
      obtain ⟨depth, rfl⟩ := Nat.exists_eq_succ_of_ne_zero (Nat.ne_zero_of_lt hd)
      have hmax := Nat.le_of_succ_le_succ hd
      rw [takeTurns_cons_ok, hturn]
      show (flatten spec model (depth + 1) _ _ _ _ >>= _) = _
      rw [flatten_of_declareOwn hown, hinner depth (Nat.le_trans (Nat.le_max_left _ _) hmax)]
      exact hrest (depth + 1) (Nat.le_succ_of_le (Nat.le_trans (Nat.le_max_right _ _) hmax))

/-- With enough depth it is refused as circular, whatever else has been gathered. -/
def Refused (flattened : List String) (f : Nat → Gathered → Attempt Gathered) : Prop :=
  ∀ g : Gathered, flattened ⊆ g.flattened → ∃ failure, IsCircularity failure
    ∧ ∃ least, ∀ depth, least ≤ depth → f depth g = .error failure

/-- What is refused behind turns that come to nothing new is refused. -/
theorem Idle.refused {member : Member} (hb : Idle spec visiting flattened before)
    (hrun : Refused flattened fun depth g =>
      (turn spec model origin visiting member g).run (flatten spec model depth)) :
    Refused flattened fun depth =>
      Model.takeTurns spec model (flatten spec model depth) origin visiting
        (before ++ .ok member :: after) := by
  intro g hg
  obtain ⟨least, between, hbetween, hbefore⟩ := hb.takeTurns model origin hg
  obtain ⟨failure, hcircular, more, hstop⟩ := hrun between hbetween
  beta_reduce at hstop
  refine ⟨failure, hcircular, max least more, fun depth hd => ?_⟩
  show Model.takeTurns _ _ _ _ _ _ _ = _
  rw [takeTurns_append, hbefore depth (Nat.le_trans (Nat.le_max_left _ _) hd)]
  show Model.takeTurns _ _ _ _ _ (.ok member :: after) between = _
  rw [takeTurns_cons_ok, hstop depth (Nat.le_trans (Nat.le_max_right _ _) hd)]
  rfl

/-- A schema that declares nothing and has members of which one is refused is refused. -/
theorem Bare.refused (hb : Bare schema) (h : Refused flattened fun depth =>
    Model.takeTurns spec model (flatten spec model depth) origin visiting (listed schema)) :
    Refused flattened fun depth => flatten spec model depth origin visiting schema := by
  intro g hg
  obtain ⟨own, hown⟩ := hb.declareOwn model origin g
  obtain ⟨failure, hcircular, least, hstop⟩ := h own ((declareOwn_eq_ok hown).1 ▸ hg)
  refine ⟨failure, hcircular, least + 1, fun depth hd => ?_⟩
  obtain ⟨depth, rfl⟩ := Nat.exists_eq_succ_of_ne_zero (Nat.ne_zero_of_lt hd)
  exact (flatten_of_declareOwn hown depth).trans (hstop depth (Nat.le_of_succ_le_succ hd))

theorem refused_of_stop {member : Member} (hc : IsCircularity failure)
    (ht : ∀ g, turn spec model origin visiting member g = .stop failure) :
    Refused flattened fun depth g =>
      (turn spec model origin visiting member g).run (flatten spec model depth) :=
  fun g _ => ⟨failure, hc, 0, fun _ _ => by
    show (turn _ _ _ _ _ _).run _ = _
    rw [ht g]
    rfl⟩

/-- Turns of which one is refused as circular are so, with enough depth. -/
theorem Caught.refused (h : Caught spec visiting flattened entries) (model origin : String) :
    Refused flattened fun depth =>
      Model.takeTurns spec model (flatten spec model depth) origin visiting entries := by
  induction h generalizing origin with
  | @component _ _ member reference component hb hv hc hin =>
      exact hb.refused (refused_of_stop (.composition (.str model) component)
        fun g => turn_of_component hv hc hin)
  | @reference _ _ member reference value hb hv hc hd =>
      exact hb.refused (refused_of_stop (.reference value) fun g => by simp only [turn, hv, hc, hd])
  | inner hb hv hc hd hbare _ ih =>
      refine hb.refused fun g hg => ?_
      simp only [turn_of_inner hv hc hd, Turn.run]
      exact hbare.refused (ih _) g hg

/-! ## What has been gone through -/

/-- Properties can be declared that have no key in common with those before. -/
theorem fresh_of_declareAll {own : Members} {declared result : List Declared}
    (h : declareAll model origin own declared = .ok result) :
    ∀ entry ∈ own, declared.any (·.name.keyEq entry.1) = false := by
  induction own generalizing declared with
  | nil => simp
  | cons entry rest ih =>
      obtain ⟨name, schema⟩ := entry
      rw [declareAll] at h
      split at h
      next => cases h
      next hnone =>
        refine List.forall_mem_cons.mpr ⟨?_, fun entry hin => ?_⟩
        · rw [← List.isSome_find?, hnone]
          rfl
        · have hlater := ih h entry hin
          rw [List.any_append, Bool.or_eq_false_iff] at hlater
          exact hlater.1

/-- A schema that declares its properties although they are declared has none. -/
theorem bare_of_declareOwn (hc : h.Covers schema)
    (hown : declareOwn model origin schema h = .ok own) : Bare schema := by
  obtain ⟨entries, hentries, hown⟩ := bind_eq_ok.mp hown
  obtain ⟨properties, hproperties, hown⟩ := bind_eq_ok.mp hown
  obtain ⟨names, hnames, hown⟩ := bind_eq_ok.mp hown
  split at hown
  next hkeys =>
    refine ⟨⟨entries, hentries, fun entry hin => ?_⟩, names, hnames, hkeys⟩
    -- a name that is a key has been declared, and then it could not be declared again
    by_contra hself
    have hdeclared : h.declares entry.1 = true :=
      hc entries hentries entry.1 (List.any_eq_true.mpr ⟨entry, hin, by simpa using hself⟩)
    have hfresh : h.declares entry.1 = false := fresh_of_declareAll hproperties entry hin
    exact Bool.false_ne_true (hfresh.symm.trans hdeclared)
  next => cases hown

/-- Members that have passed and take their turns come to nothing new. -/
theorem idle_of_passed {depth : Nat}
    (hflat : ∀ start target k k', Finished spec g target → g.Alike k →
      flatten spec model depth start visiting target k = .ok k' →
        Bare target ∧ Idle spec visiting g.flattened (listed target))
    (hp : ∀ member, .ok member ∈ entries → Passed spec g member) (hgh : g.Alike h)
    (ht : takeTurns spec model (flatten spec model depth) origin visiting entries h
      = .ok between) : Idle spec visiting g.flattened entries := by
  induction entries generalizing h with
  | nil => exact .nil
  | cons entry rest ih =>
      cases entry with
      | error failure => cases ht
      | ok member =>
          obtain ⟨hmember, hrest⟩ : Passed spec g member ∧ ∀ member, .ok member ∈ rest →
            Passed spec g member :=
            ⟨hp member List.mem_cons_self, fun m hin => hp m (List.mem_cons_of_mem _ hin)⟩
          rw [takeTurns_cons_ok] at ht
          obtain ⟨next, hrun, hturns⟩ := bind_eq_ok.mp ht
          rcases run_ok hrun with hturn | ⟨start, way, target, k, hturn, hcall⟩
          · obtain ⟨reference, component, hv, hc, hnot, -, rfl⟩ := pass_cases hturn
            have hnext := hgh.trans (h.alike_noted model origin component)
            exact .component hv hc (hmember.component reference component hv hc) hnot
              (ih hrest hnext hturns)
          · obtain ⟨rfl, rfl, hfinished⟩ := hmember.call_cases hgh.1 hturn
            obtain ⟨hbare, hinner⟩ := hflat start target k next hfinished hgh hcall
            have hnext : g.Alike next :=
              hgh.trans ⟨within_of_flatten hcall, hfinished.within hgh.1 hcall⟩
            obtain ⟨reference, hv, hd, ⟨component, -, -, -, hway, -⟩ | ⟨hc, -⟩⟩ := call_cases hturn
            · -- the call is on the same way, so not for a component
              exact absurd hway (by simp)
            · exact .inner hv hc hd hbare hinner (ih hrest hnext hturns)

/-- A schema that has been flattened through and is flattened again declares nothing, and its
members come to nothing new. -/
theorem Finished.idle (hs : Finished spec g schema) (hgh : g.Alike h)
    (hf : flatten spec model depth origin visiting schema h = .ok between) :
    Bare schema ∧ Idle spec visiting g.flattened (listed schema) := by
  induction depth generalizing origin schema h between with
  | zero => cases hf
  | succ depth ih =>
      rw [flatten_succ] at hf
      obtain ⟨own, hown, ht⟩ := bind_eq_ok.mp hf
      obtain ⟨hcovers, hpassed⟩ := finished_iff.mp hs
      have hcovers := hcovers.mono hgh.1
      have hgown : g.Alike own :=
        hgh.trans ⟨within_of_declareOwn hown, hcovers.within hown⟩
      exact ⟨bare_of_declareOwn hcovers hown,
        idle_of_passed (fun _ _ _ _ hs hgh hf => ih hs hgh hf) hpassed hgown ht⟩

theorem eq_unsuitable_of_entriesUnder {key : String}
    (h : entriesUnder schema key = .error failure) : failure = .unsuitable := by
  unfold entriesUnder at h
  split at h
  next => cases h
  next v hv =>
    cases v <;> cases h <;> rfl

theorem eq_unsuitable_of_elementsUnder {key : String}
    (h : elementsUnder schema key = .error failure) : failure = .unsuitable := by
  unfold elementsUnder at h
  split at h
  · cases h
  · exact eq_unsuitable_of_require h

theorem eq_propertyTwice_of_declareAll {own : Members} {declared : List Declared}
    (h : declareAll model origin own declared = .error failure) :
    ∃ name first second, failure = .build (.str model) (.propertyTwice name first second) := by
  induction own generalizing declared with
  | nil => cases h
  | cons entry rest ih =>
      rw [declareAll] at h
      split at h
      next =>
        cases h
        exact ⟨_, _, _, rfl⟩
      next => exact ih h

/-- A schema that cannot declare its properties is not refused as circular. -/
theorem not_isCircularity_of_declareOwn
    (h : declareOwn model origin schema g = .error failure) : ¬IsCircularity failure := by
  intro hc
  rcases bind_eq_error.mp h with h | ⟨own, -, h⟩
  · cases eq_unsuitable_of_entriesUnder h ▸ hc
  rcases bind_eq_error.mp h with h | ⟨properties, -, h⟩
  · obtain ⟨name, first, second, rfl⟩ := eq_propertyTwice_of_declareAll h
    cases hc
  rcases bind_eq_error.mp h with h | ⟨names, -, h⟩
  · cases eq_unsuitable_of_elementsUnder h ▸ hc
  split at h
  · cases h
  · cases h
    cases hc

/-- Members that cannot be read are not refused as circular. -/
theorem not_isCircularity_of_listed (h : .error failure ∈ listed schema) :
    ¬IsCircularity failure := by
  intro hc
  obtain ⟨keyword, -, h⟩ := List.mem_flatMap.mp h
  split at h
  next members =>
    obtain ⟨member, -, heq⟩ := List.mem_map.mp h
    cases heq
  next first herror =>
    cases List.mem_singleton.mp h
    rcases bind_eq_error.mp herror with h | ⟨vs, -, h⟩
    · cases eq_unsuitable_of_elementsUnder h ▸ hc
    · cases h

/-- A turn that is refused as circular behind turns that come to nothing new. -/
theorem caught_of_stop {member : Member} (hb : Idle spec visiting flattened before)
    (hknown : ∀ reference component, member.value = .map reference →
      Spec.schemaTarget? reference = some component →
        component ∈ visiting ∨ component ∈ g.flattened)
    (ht : turn spec model origin visiting member g = .stop failure) (hf : IsCircularity failure) :
    Caught spec visiting flattened (before ++ .ok member :: after) := by
  cases hv : member.value with
  | map reference =>
      cases hc : Spec.schemaTarget? reference with
      | some component =>
          by_cases hin : component ∈ visiting
          · exact .component hb hv hc hin
          · have hflat := (hknown reference component hv hc).resolve_left hin
            rw [turn_of_flattened hv hc hin hflat] at ht
            cases ht
      | none =>
          cases hd : spec.deref reference with
          | ok target =>
              rw [turn_of_inner hv hc hd] at ht
              cases ht
          | error first =>
              simp only [turn, hv, hc, hd] at ht
              cases ht
              cases hf with
              | reference value => exact .reference hb hv hc hd
              | composition subject component =>
                  -- references are followed without faults of the building
                  exact ((Spec.faults_deref reference : Faults (fun _ _ => False) _) _ hd).elim
  | _ =>
      simp only [turn, hv] at ht
      cases ht
      cases hf

/-- Where the way goes round and is refused as circular, the members of its schemas are caught. -/
theorem Settled.caught {loop : List Members} (hl : Circle spec visiting g loop)
    (hs : Settled spec g loop schema) (hgh : g.Alike h)
    (hf : flatten spec model depth origin visiting schema h = .error failure)
    (hc : IsCircularity failure) :
    Bare schema ∧ Caught spec visiting g.flattened (listed schema) := by
  -- what fails is neither a declaration nor the reading of a member, so it is the turn of a member behind
  -- such as come to nothing new: it stops, or what it calls for fails with less depth
  induction depth generalizing origin schema h with
  | zero =>
      cases hf
      cases hc
  | succ depth ih =>
      rw [flatten_succ] at hf
      cases hown : declareOwn model origin schema h with
      | error first =>
          rw [hown] at hf
          cases hf
          exact absurd hc (not_isCircularity_of_declareOwn hown)
      | ok own =>
          rw [hown] at hf
          obtain ⟨before, entry, after, between, hlisted, hturns, hstep⟩ := exists_of_foldlM_error hf
          refine ⟨bare_of_declareOwn ((hs.covers hl).mono hgh.1) hown, hlisted ▸ ?_⟩
          cases entry with
          | error first =>
              cases hstep
              exact absurd hc (not_isCircularity_of_listed (by rw [hlisted]; simp))
          | ok member =>
              obtain ⟨hpassed, hmember⟩ := hs.faced hl hlisted hturns
              have hgown := hs.alike_of_declareOwn hl hgh hown
              have hbefore : Idle spec visiting g.flattened before :=
                idle_of_passed (fun _ _ _ _ hs hgh hf => hs.idle hgh hf) hpassed hgown hturns
              have hbetween := alike_of_passed hpassed hgown hturns
              replace hstep : (turn spec model origin visiting member between).run
                (flatten spec model depth) = .error failure := hstep
              cases ht : turn spec model origin visiting member between with
              | stop first =>
                  rw [ht] at hstep
                  cases hstep
                  refine caught_of_stop hbefore (fun reference component hv hcomponent => ?_) ht hc
                  rcases hmember with hmember | ⟨other, ho, -, hon⟩
                  · exact .inr (hbetween.1.flattened (hmember.component _ _ hv hcomponent))
                  · cases hv.symm.trans ho
                    exact .inl (hon component hcomponent)
              | pass next =>
                  rw [ht] at hstep
                  cases hstep
              | call start way target k =>
                  rw [ht] at hstep
                  obtain ⟨rfl, hk, htarget⟩ :=
                    hs.call hl hgh (.intro hown hlisted hturns ht)
                  obtain ⟨hbare, hinner⟩ := ih htarget hk hstep
                  obtain ⟨reference, hv, hd, ⟨component, -, -, -, hway, -⟩ | ⟨hnone, -⟩⟩ :=
                    call_cases ht
                  · exact absurd hway (by simp)
                  · exact .inner hbefore hv hnone hd hbare hinner

end Model

end ApiScaffold
