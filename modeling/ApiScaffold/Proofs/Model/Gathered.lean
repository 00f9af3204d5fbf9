import ApiScaffold.Proofs.Agreement
import ApiScaffold.Proofs.Model.Flatten

/-!
# What has been gathered

What is declared and flattened while a schema is flattened. It only grows, and with the schema and
the way to it alone it decides which depth is enough: with more depth a flattening that ends comes
to the same.

* `Gathered.Within` and `Gathered.Alike` compare two states by what is declared and flattened, and
  `Gathered.Covers` says that a schema has nothing to add.
* `within_of_flatten`: what is gathered stays gathered.
* `flatten_extends`: a flattening that ends is the same with more depth.
* `exists_call`: where a flattening ends with one more depth only, it comes to a call that does so
  too, which is the way down to a schema that needs all the depth there is.
* `flatten_similar`: whether a flattening has enough depth is a matter of what is declared and
  flattened.
-/

namespace ApiScaffold

namespace Model

open Attempt

/-! ## What has been gathered -/

/-- A name is declared that is one key with another. -/
def Gathered.declares (g : Gathered) (key : Value) : Bool := g.properties.any (·.name.keyEq key)

/-- What is declared and flattened is so later too. -/
structure Gathered.Within (g h : Gathered) : Prop where
  declared : ∀ key, g.declares key = true → h.declares key = true
  flattened : g.flattened ⊆ h.flattened

/-- The same is declared and flattened. -/
def Gathered.Alike (g h : Gathered) : Prop := g.Within h ∧ h.Within g

/-- The names that a schema declares itself are declared. -/
def Gathered.Covers (g : Gathered) (schema : Members) : Prop :=
  ∀ own, entriesUnder schema "properties" = .ok own →
    ∀ key, own.any (·.1.keyEq key) = true → g.declares key = true

namespace Gathered

variable {g h k : Gathered} {schema : Members}

theorem Within.refl (g : Gathered) : g.Within g := ⟨fun _ hk => hk, List.Subset.refl _⟩

theorem Within.trans (hgh : g.Within h) (hhk : h.Within k) : g.Within k :=
  ⟨fun key hk => hhk.declared key (hgh.declared key hk),
    List.Subset.trans hgh.flattened hhk.flattened⟩

theorem Alike.refl (g : Gathered) : g.Alike g := ⟨.refl g, .refl g⟩

theorem Alike.symm (hgh : g.Alike h) : h.Alike g := ⟨hgh.2, hgh.1⟩

theorem Alike.trans (hgh : g.Alike h) (hhk : h.Alike k) : g.Alike k :=
  ⟨hgh.1.trans hhk.1, hhk.2.trans hgh.2⟩

theorem Alike.declares (hgh : g.Alike h) (key : Value) : g.declares key = h.declares key :=
  Bool.eq_iff_iff.mpr ⟨hgh.1.declared key, hgh.2.declared key⟩

theorem Alike.contains (hgh : g.Alike h) (component : String) :
    g.flattened.contains component = h.flattened.contains component := by
  rw [Bool.eq_iff_iff, List.contains_iff_mem, List.contains_iff_mem]
  exact ⟨fun hc => hgh.1.flattened hc, fun hc => hgh.2.flattened hc⟩

theorem Covers.mono (hc : g.Covers schema) (hgh : g.Within h) : h.Covers schema :=
  fun own hown key hk => hgh.declared key (hc own hown key hk)

theorem alike_noted (model origin component : String) (g : Gathered) :
    g.Alike (g.noted model origin component) :=
  ⟨⟨fun key hk => by rwa [declares, noted_properties], by rw [noted_flattened]; exact .refl _⟩,
    fun key hk => by rwa [declares, noted_properties] at hk, by rw [noted_flattened]; exact .refl _⟩

theorem within_enter (g : Gathered) (component : String) : g.Within (g.enter component) :=
  ⟨fun _ hk => hk, List.subset_append_left _ _⟩

theorem Within.enter (hgh : g.Within h) (component : String) :
    (g.enter component).Within (h.enter component) :=
  ⟨hgh.declared, List.append_subset.mpr
    ⟨List.Subset.trans hgh.flattened (List.subset_append_left _ _),
      List.subset_append_right _ _⟩⟩

theorem mem_enter (g : Gathered) (component : String) :
    component ∈ (g.enter component).flattened :=
  List.mem_append_right _ (List.mem_singleton_self _)

end Gathered

/-! ## Own properties -/

variable {model origin origin' : String} {schema : Members} {g h g' : Gathered}

/-- Where properties can be declared, their names are declared besides those before. -/
theorem declares_of_declareAll {own : Members} {declared result : List Declared}
    (h : declareAll model origin own declared = .ok result) (key : Value) :
    result.any (·.name.keyEq key)
      = (declared.any (·.name.keyEq key) || own.any (·.1.keyEq key)) := by
  induction own generalizing declared with
  | nil =>
      cases h
      simp
  | cons entry rest ih =>
      obtain ⟨name, schema⟩ := entry
      rw [declareAll] at h
      split at h
      next => cases h
      next => rw [ih h, List.any_append, List.any_cons, List.any_cons, List.any_nil, Bool.or_false,
          Bool.or_assoc]

theorem declareOwn_eq_ok (hg : declareOwn model origin schema g = .ok g') :
    g'.flattened = g.flattened ∧ ∃ own, entriesUnder schema "properties" = .ok own
      ∧ ∀ key, g'.declares key = (g.declares key || own.any (·.1.keyEq key)) := by
  obtain ⟨own, hown, hg⟩ := bind_eq_ok.mp hg
  obtain ⟨properties, hp, hg⟩ := bind_eq_ok.mp hg
  obtain ⟨required, -, hg⟩ := bind_eq_ok.mp hg
  split at hg
  · cases hg
    exact ⟨rfl, own, hown, declares_of_declareAll hp⟩
  · cases hg

theorem within_of_declareOwn (hg : declareOwn model origin schema g = .ok g') : g.Within g' := by
  obtain ⟨hflat, own, -, hdecl⟩ := declareOwn_eq_ok hg
  exact ⟨fun key hk => by rw [hdecl, hk, Bool.true_or], hflat ▸ List.Subset.refl _⟩

theorem covers_of_declareOwn (hg : declareOwn model origin schema g = .ok g') :
    g'.Covers schema := by
  obtain ⟨-, own, hown, hdecl⟩ := declareOwn_eq_ok hg
  intro own' hown' key hk
  rw [hown] at hown'
  cases hown'
  rw [hdecl, hk, Bool.or_true]

/-- A schema whose names are declared adds none. -/
theorem Gathered.Covers.within (hc : g.Covers schema)
    (hg : declareOwn model origin schema g = .ok g') : g'.Within g := by
  obtain ⟨hflat, own, hown, hdecl⟩ := declareOwn_eq_ok hg
  refine ⟨fun key hk => ?_, hflat ▸ List.Subset.refl _⟩
  rw [hdecl, Bool.or_eq_true] at hk
  exact hk.elim id (hc own hown key)

theorem declareAll_similar {own : Members} {declared declared' : List Declared}
    (h : ∀ key : Value, declared.any (·.name.keyEq key) = declared'.any (·.name.keyEq key)) :
    Similar (fun x y => ∀ key : Value, x.any (·.name.keyEq key) = y.any (·.name.keyEq key))
      (declareAll model origin own declared) (declareAll model origin' own declared') := by
  induction own generalizing declared declared' with
  | nil => exact .ok h
  | cons entry rest ih =>
      obtain ⟨name, schema⟩ := entry
      rw [declareAll, declareAll]
      have hfound := h name
      rw [← List.isSome_find?, ← List.isSome_find?] at hfound
      generalize declared.find? (fun d => d.name.keyEq name) = x at hfound ⊢
      generalize declared'.find? (fun d => d.name.keyEq name) = y at hfound ⊢
      cases x with
      | some first =>
          cases y with
          | some other => exact .error (by simp)
          | none => cases hfound
      | none =>
          cases y with
          | some other => cases hfound
          | none => exact ih fun key => by rw [List.any_append, List.any_append, h key]; rfl

theorem declareOwn_similar (hgh : g.Alike h) :
    Similar Gathered.Alike (declareOwn model origin schema g)
      (declareOwn model origin' schema h) := by
  unfold declareOwn
  refine .bind_same fun own => (declareAll_similar hgh.declares).bind fun x y hxy =>
    .bind_same fun required => ?_
  split
  · exact .ok ⟨⟨fun key hk => (hxy key).symm.trans hk, hgh.1.flattened⟩,
      fun key hk => (hxy key).trans hk, hgh.2.flattened⟩
  · exact .error .rfl

/-! ## Growth -/

variable {spec : Spec} {visiting : List String} {depth : Nat} {member : Member}
  {members : List (Attempt Member)}
  {follow follow' : String → List String → Members → Gathered → Attempt Gathered}

theorem alike_of_pass (ht : turn spec model origin visiting member g = .pass g') : g.Alike g' := by
  obtain ⟨-, component, -, -, -, -, rfl⟩ := pass_cases ht
  exact g.alike_noted model origin component

theorem within_of_call {start : String} {way : List String} {target : Members}
    (ht : turn spec model origin visiting member g = .call start way target g') : g.Within g' := by
  obtain ⟨-, -, -, ⟨component, -, -, -, -, rfl⟩ | ⟨-, -, rfl⟩⟩ := call_cases ht
  · exact (g.alike_noted model origin component).1.trans (Gathered.within_enter _ component)
  · exact .refl _

/-- What is gathered stays gathered. -/
theorem within_of_takeTurns
    (hf : ∀ origin visiting target g g', follow origin visiting target g = .ok g' → g.Within g')
    (h : takeTurns spec model follow origin visiting members g = .ok g') : g.Within g' := by
  refine rel_of_takeTurns .refl (fun _ _ _ => .trans) (fun member _ g g' hrun => ?_) h
  rcases run_ok hrun with hturn | ⟨start, way, target, other, hturn, hcall⟩
  · exact (alike_of_pass hturn).1
  · exact (within_of_call hturn).trans (hf _ _ _ _ _ hcall)

theorem within_of_flatten (h : flatten spec model depth origin visiting schema g = .ok g') :
    g.Within g' := by
  induction depth generalizing origin visiting schema g g' with
  | zero => cases h
  | succ depth ih =>
      rw [flatten_succ] at h
      obtain ⟨own, hown, h⟩ := bind_eq_ok.mp h
      exact (within_of_declareOwn hown).trans
        (within_of_takeTurns (fun _ _ _ _ _ hx => ih hx) h)

/-! ## More depth -/

/-- One way to go on comes to what another comes to, wherever the other ends. -/
def Extends (follow' follow : String → List String → Members → Gathered → Attempt Gathered) :
    Prop :=
  ∀ origin visiting target g, Ends (follow origin visiting target g) →
    follow' origin visiting target g = follow origin visiting target g

theorem Extends.run (hf : Extends follow' follow) {t : Turn} (ht : Ends (t.run follow)) :
    t.run follow' = t.run follow := by
  cases t with
  | call origin visiting target g => exact hf origin visiting target g ht
  | _ => rfl

/-- Turns that end are the same with more depth. -/
theorem Extends.turns (hf : Extends follow' follow)
    (h : Ends (takeTurns spec model follow origin visiting members g)) :
    takeTurns spec model follow' origin visiting members g
      = takeTurns spec model follow origin visiting members g := by
  induction members generalizing g with
  | nil => rfl
  | cons first rest ih =>
      cases first with
      | error failure => rfl
      | ok member =>
          rw [takeTurns_cons_ok] at h ⊢
          rw [takeTurns_cons_ok]
          have hrun := @Extends.run _ _ hf (turn spec model origin visiting member g)
          generalize (turn spec model origin visiting member g).run follow = x at h hrun ⊢
          generalize (turn spec model origin visiting member g).run follow' = y at hrun ⊢
          cases x with
          | error failure =>
              rw [hrun h]
              rfl
          | ok g' =>
              rw [hrun (ends_ok g')]
              exact ih h

/-- A turn that ends with more depth only calls for what ends with more depth only. -/
theorem call_of_not_ends {t : Turn} (h' : Ends (t.run follow')) (h : ¬Ends (t.run follow)) :
    ∃ start way target between, t = .call start way target between
      ∧ Ends (follow' start way target between) ∧ ¬Ends (follow start way target between) := by
  cases t with
  | stop failure => exact absurd h' h
  | pass next => exact absurd (ends_ok next) h
  | call start way target between => exact ⟨start, way, target, between, rfl, h', h⟩

/-- Where turns end with more depth only, one of them calls for what ends with more depth only, and
those before it pass. -/
theorem Extends.exists_call (hf : Extends follow' follow)
    (h' : Ends (takeTurns spec model follow' origin visiting members g))
    (h : ¬Ends (takeTurns spec model follow origin visiting members g)) :
    ∃ before member after between start way target g',
      members = before ++ .ok member :: after
        ∧ takeTurns spec model follow origin visiting before g = .ok between
        ∧ turn spec model origin visiting member between = .call start way target g'
        ∧ Ends (follow' start way target g') ∧ ¬Ends (follow start way target g') := by
  induction members generalizing g with
  | nil => exact absurd (ends_ok g) h
  | cons first rest ih =>
      cases first with
      | error failure => exact absurd h' h
      | ok member =>
          rw [takeTurns_cons_ok] at h h'
          by_cases hends : Ends ((turn spec model origin visiting member g).run follow)
          · -- a turn that ends comes to the same, so what is missing is missing behind it
            rw [hf.run hends] at h'
            cases hrun : (turn spec model origin visiting member g).run follow with
            | error failure =>
                rw [hrun] at h h'
                exact absurd h' h
            | ok next =>
                rw [hrun] at h h'
                obtain ⟨before, last, after, between, start, way, target, g', rfl, hb, hrest⟩ :=
                  ih h' h
                refine ⟨.ok member :: before, last, after, between, start, way, target, g', rfl, ?_,
                  hrest⟩
                rw [takeTurns_cons_ok, hrun]
                exact hb
          · have hends' : Ends ((turn spec model origin visiting member g).run follow') := by
              intro hout
              rw [hout] at h'
              exact h' rfl
            obtain ⟨start, way, target, between, hturn, hcall⟩ := call_of_not_ends hends' hends
            exact ⟨[], member, rest, g, start, way, target, between, rfl, rfl, hturn, hcall⟩

/-- A flattening that ends is the same with more depth. -/
theorem flatten_extends : Extends (flatten spec model (depth + 1)) (flatten spec model depth) := by
  induction depth with
  | zero => exact fun _ _ _ _ h => absurd rfl h
  | succ depth ih =>
      intro origin visiting schema g h
      rw [flatten_succ] at h
      rw [flatten_succ, flatten_succ]
      cases hown : declareOwn model origin schema g with
      | error failure => rfl
      | ok own =>
          rw [hown] at h
          exact ih.turns h

theorem flatten_eq_of_le {deeper : Nat} (hd : depth ≤ deeper)
    (h : Ends (flatten spec model depth origin visiting schema g)) :
    flatten spec model deeper origin visiting schema g
      = flatten spec model depth origin visiting schema g := by
  induction hd with
  | refl => rfl
  | step _ ih => rw [flatten_extends _ _ _ _ (ih ▸ h), ih]

/-- A flattening comes to a call: the schema declares its own properties, the members before one
have their turns, and that member calls for the flattening of another schema. -/
inductive Calls (spec : Spec) (model : String) (depth : Nat) (origin : String)
    (visiting : List String) (schema : Members) (g : Gathered) (start : String) (way : List String)
    (target : Members) (g' : Gathered) : Prop
  | intro {own between : Gathered} {before after : List (Attempt Member)} {member : Member}
      (hown : declareOwn model origin schema g = .ok own)
      (hlisted : listed schema = before ++ .ok member :: after)
      (hturns : takeTurns spec model (flatten spec model depth) origin visiting before own
        = .ok between)
      (hturn : turn spec model origin visiting member between = .call start way target g')

/-- Where a flattening ends with one more depth only, it comes to a call that ends with one more
depth only. -/
theorem exists_call
    (h' : Ends (flatten spec model (depth + 2) origin visiting schema g))
    (h : ¬Ends (flatten spec model (depth + 1) origin visiting schema g)) :
    ∃ start way target g', Calls spec model depth origin visiting schema g start way target g'
      ∧ Ends (flatten spec model (depth + 1) start way target g')
      ∧ ¬Ends (flatten spec model depth start way target g') := by
  rw [flatten_succ] at h h'
  cases hown : declareOwn model origin schema g with
  | error failure =>
      rw [hown] at h h'
      exact absurd h' h
  | ok own =>
      rw [hown] at h h'
      obtain ⟨before, member, after, between, start, way, target, g', hlisted, hturns, hturn,
        hrest⟩ := flatten_extends.exists_call h' h
      exact ⟨start, way, target, g', ⟨hown, hlisted, hturns, hturn⟩, hrest⟩

section Calls

variable {start : String} {way : List String} {target : Members}

theorem Calls.within (hc : Calls spec model depth origin visiting schema g start way target g') :
    g.Within g' := by
  obtain ⟨hown, -, hturns, hturn⟩ := hc
  exact (within_of_declareOwn hown).trans
    ((within_of_takeTurns (fun _ _ _ _ _ => within_of_flatten) hturns).trans (within_of_call hturn))

/-- The way to a schema that is called for goes on from where it is called for. -/
theorem Calls.subset (hc : Calls spec model depth origin visiting schema g start way target g') :
    visiting ⊆ way := by
  obtain ⟨-, -, -, hturn⟩ := hc
  obtain ⟨-, -, -, ⟨component, -, -, -, rfl, -⟩ | ⟨-, rfl, -⟩⟩ := call_cases hturn
  · exact List.subset_append_left _ _
  · exact List.Subset.refl _

/-- A schema that is called for is one that the compositions lead to. -/
theorem Calls.composes (hc : Calls spec model depth origin visiting schema g start way target g') :
    Composes spec schema target := by
  obtain ⟨-, hlisted, -, hturn⟩ := hc
  obtain ⟨reference, hv, hd, -⟩ := call_cases hturn
  exact ⟨reference, mem_listed (hlisted ▸ List.mem_append_right _ List.mem_cons_self) hv,
    Spec.derefs_of_deref hd⟩

end Calls

/-! ## Other states -/

theorem run_similar (hgh : g.Alike h)
    (hf : ∀ start start' way target x y, Gathered.Alike x y →
      Similar Gathered.Alike (follow start way target x) (follow start' way target y)) :
    Similar Gathered.Alike ((turn spec model origin visiting member g).run follow)
      ((turn spec model origin' visiting member h).run follow) := by
  unfold turn
  split
  next reference hv =>
    split
    next component hc =>
      split
      next => exact .error .rfl
      next =>
        have hnoted : (g.noted model origin component).Alike (h.noted model origin' component) :=
          (g.alike_noted model origin component).symm.trans
            (hgh.trans (h.alike_noted model origin' component))
        dsimp only
        rw [hnoted.contains]
        split
        next => exact .ok hnoted
        next =>
          cases spec.deref reference with
          | error failure => exact .error .rfl
          | ok target => exact hf _ _ _ _ _ _ ⟨hnoted.1.enter component, hnoted.2.enter component⟩
    next =>
      cases spec.deref reference with
      | error failure => exact .error .rfl
      | ok target => exact hf _ _ _ _ _ _ hgh
  next => exact .error .rfl

/-- Whether a flattening has enough depth is a matter of what is declared and flattened already, and
not of where it starts. -/
theorem flatten_similar (hgh : g.Alike h) :
    Similar Gathered.Alike (flatten spec model depth origin visiting schema g)
      (flatten spec model depth origin' visiting schema h) := by
  induction depth generalizing origin origin' visiting schema g h with
  | zero => exact .error .rfl
  | succ depth ih =>
      rw [flatten_succ, flatten_succ]
      refine (declareOwn_similar hgh).bind fun x y hxy => ?_
      unfold takeTurns
      refine Similar.foldlM _ (fun member x y hxy => ?_) hxy
      exact Similar.bind_same fun member => run_similar hxy fun _ _ _ _ _ _ hxy => ih hxy

end Model

end ApiScaffold
