import ApiScaffold.Proofs.Generator.Order
import ApiScaffold.Proofs.Model.Alike
import ApiScaffold.Proofs.Operation.Alike
import ApiScaffold.Proofs.Run.Components
import ApiScaffold.Proofs.Run.Stages

/-!
# Runs over documents that read alike

Where references lead to mappings that read alike, and components, operations and description are
read alike (`Spec.ReadAlike`), a run comes to one draft (`Draft.make_alike`).

Each stage takes one lemma: the components, the check of their references, the endpoints, the
material and the plan. What a run does after its draft does not look at the document, and what it
does before is to bring it into its normal form (`prepare_cases`), so `generate_of_make_eq` needs no
more than one draft for both normal forms.
-/

namespace ApiScaffold

open Attempt

variable {P : String → Prop} {a b : Spec} {g : Generator}

namespace Component

theorem ofSchema_same (h : a.Mirrors P b) (name : Value) {schema : Value} (hs : schema.CitesOnly P)
    (hg : Model.GathersSame a b schema) : ofSchema g a name schema = ofSchema g b name schema := by
  rw [ofSchema, ofSchema, Model.ofSchema_same h name hs hg]

theorem all_same (h : a.Mirrors P b) (hc : a.CitesOnly P)
    (hg : ∀ schemas, a.schemas = .ok (.map schemas) → ∀ m ∈ schemas, Model.GathersSame a b m.2)
    (he : entries a = entries b) : all g a = all g b := by
  unfold all
  rw [← he]
  cases hs : entries a with
  | error failure => rw [Logged.lift_error_bind, Logged.lift_error_bind]
  | ok sorted =>
      obtain ⟨schemas, hschemas, hmem⟩ := entries_ok hs
      rw [Logged.lift_ok, pure_bind, pure_bind]
      refine mapM_eq_of_forall₂ (R := fun x y => x = y ∧ x ∈ sorted)
        (List.forall₂_same.mpr fun x hx => ⟨rfl, hx⟩) ?_
      rintro ⟨name, schema⟩ _ ⟨rfl, hin⟩
      have hm := (hmem _).mp hin
      exact ofSchema_same h name ((hc.schemas hschemas).of_map hm).2 (hg _ hschemas _ hm)

theorem checked_same (h : a.Mirrors P b) (hc : a.CitesOnly P)
    (hg : ∀ schemas, a.schemas = .ok (.map schemas) → ∀ m ∈ schemas, Model.GathersSame a b m.2)
    (he : entries a = entries b) : checked g a = checked g b := by
  rw [checked, checked, all_same h hc hg he]

end Component

namespace Endpoint

theorem ofSlot_same (h : a.Mirrors P b) {slot other : Spec.Slot} (hs : slot.Alike P other) :
    ofSlot g a slot = ofSlot g b other := by
  rw [ofSlot, ofSlot, Operation.ofSlot_same h slot.path slot.method hs.cites_operation
    hs.cites_item (hs.same_item "parameters"), hs.path, hs.method, hs.operation]

/-- Documents with operations that read alike come to the same endpoints. -/
theorem all_same (h : a.Mirrors P b)
    (hs : List.Forall₂ (Spec.Slot.Alike P) a.slots.1 b.slots.1 ∧ a.slots.2 = b.slots.2) :
    all g a = all g b := by
  unfold all
  generalize a.slots = x at hs ⊢
  generalize b.slots = y at hs ⊢
  obtain ⟨slots, stop⟩ := x
  obtain ⟨others, _⟩ := y
  obtain ⟨hslots, rfl⟩ := hs
  dsimp only at hslots ⊢
  rw [mapM_eq_of_forall₂ hslots fun _ _ => ofSlot_same h]

end Endpoint

theorem Material.scope_same {m n : Material} (hi : m.spec.info = n.spec.info)
    (hb : m.spec.basePath = n.spec.basePath) (hm : m.models = n.models) (hg : m.groups = n.groups)
    (t : Target) (s : Settings) : m.scope t s = n.scope t s := by
  have htitle : m.spec.title = n.spec.title := congrArg (Value.member · _ _) hi
  have hdescription : m.spec.description = n.spec.description :=
    congrArg (Value.member · _ _) hi
  have hversion : m.spec.version = n.spec.version := by
    rw [Spec.version, Spec.version, hi]
  rw [scope, scope, htitle, hversion, hb, hdescription, hm, hg]

theorem Task.plan_same {m n : Material} (hm : m.models = n.models) (hg : m.groups = n.groups)
    (hs : ∀ s, m.scope g.target s = n.scope g.target s) : Task.plan g m = Task.plan g n := by
  have hall : ∀ s base, Task.all g.target s g.supportingFiles base m
      = Task.all g.target s g.supportingFiles base n := by
    intro s base
    rw [Task.all, Task.all, hm, hg]
  simp only [Task.plan, hs, hall]

/-- What a run reads of two documents, besides what references lead to, is alike. -/
structure Spec.ReadAlike (P : String → Prop) (a b : Spec) : Prop where
  source : a.source = b.source
  info : a.info = b.info
  basePath : a.basePath = b.basePath
  entries : Component.entries a = Component.entries b
  slots : List.Forall₂ (Slot.Alike P) a.slots.1 b.slots.1 ∧ a.slots.2 = b.slots.2

/-- Documents that read alike come to one draft. -/
theorem Draft.make_alike (h : a.Mirrors P b) (hc : a.CitesOnly P)
    (hg : ∀ schemas, a.schemas = .ok (.map schemas) → ∀ m ∈ schemas, Model.GathersSame a b m.2)
    (hr : a.ReadAlike P b) (settings : Settings) (overrides : List Template.Override)
    (rules : Attempt IgnoreRules) :
    make g settings a overrides rules = make g settings b overrides rules := by
  have hplan : ∀ models operations groups,
      Task.plan g { spec := a, models, operations, groups }
        = Task.plan g { spec := b, models, operations, groups } :=
    fun models operations groups => Task.plan_same rfl rfl
      (@Material.scope_same ⟨a, models, operations, groups⟩ ⟨b, models, operations, groups⟩
        hr.info hr.basePath rfl rfl g.target)
  simp only [make, makeBy, gather, bind_assoc, pure_bind, Component.checked_same h hc hg hr.entries,
    Endpoint.all_same h hr.slots, hplan, hr.source]

namespace Generator

/-- The way to the building does with a document no more than to bring it into its normal form. -/
theorem prepare_cases (g : Generator) :
    (∃ moved log failure, ∀ spec,
        g.prepare spec = { generator := moved, result := .error failure, log })
      ∨ ∃ moved log settings, ∀ spec, g.prepare spec
          = { generator := moved, result := .ok (settings, normalized g.target spec), log } := by
  unfold prepare Step.andThen
  cases hp : g.processOptions.result with
  | error failure => exact .inl ⟨_, _, _, fun _ => rfl⟩
  | ok settings =>
      rw [(processOptions_ok hp).2]
      exact .inr ⟨g.building settings, g.processOptions.log ++ [], settings, fun _ => rfl⟩

/-- Documents whose normal forms have the same drafts have the same runs. -/
theorem generate_of_make_eq {g : Generator} {a b : Spec} {overrides : List Template.Override}
    {sink : Sink}
    (h : ∀ moved settings, Draft.make moved settings (normalized g.target a) overrides sink.rules
      = Draft.make moved settings (normalized g.target b) overrides sink.rules) :
    g.generate a overrides sink = g.generate b overrides sink := by
  unfold generate generateBy
  rcases prepare_cases g with ⟨moved, log, failure, hprepare⟩ | ⟨moved, log, settings, hprepare⟩
  · rw [hprepare, hprepare]
  · have hmake := h moved settings
    unfold Draft.make at hmake
    rw [hprepare, hprepare]
    dsimp only
    rw [hmake]

end Generator

end ApiScaffold
