import ApiScaffold.Proofs.Model.Turn
import Mathlib.Logic.Relation

/-!
# Where declarations are gathered

The flattening of a schema gathers its declarations in the schema itself and in the schemas that its
compositions lead to.

`Visits` are the schemas that compositions lead to, without regard to order, depth or what has been
visited. `GatheredFrom` compares what is gathered with what there was before: whatever is new stands
in a visited schema. It is reflexive and transitive, so each turn of a member adds to it
(`run_gathers`), and by induction on the depth a whole flattening does (`flatten_ok`).
-/

namespace ApiScaffold.Model

/-- The schemas that the compositions of a schema lead to, itself included. -/
def Visits (spec : Spec) : Members → Members → Prop := Relation.ReflTransGen (Composes spec)

/-- A schema has a property of its own. -/
def Declares (schema : Members) (d : Declared) : Prop :=
  ∃ own, Members.get? schema "properties" = some (.map own) ∧ (d.name, d.schema) ∈ own

/-- What was gathered from a schema, beyond what there was before. -/
structure GatheredFrom (spec : Spec) (schema : Members) (before g : Gathered) : Prop where
  properties : ∀ d ∈ g.properties,
    d ∈ before.properties ∨ ∃ s, Visits spec schema s ∧ Declares s d
  composedOf : ∀ c ∈ g.composedOf, c ∈ before.composedOf
    ∨ ∃ s member, Visits spec schema s ∧ HasMember s member ∧ Spec.schemaTarget? member = some c

variable {spec : Spec} {schema : Members} {before between g : Gathered}

theorem GatheredFrom.refl : GatheredFrom spec schema g g :=
  ⟨fun _ hd => .inl hd, fun _ hc => .inl hc⟩

theorem GatheredFrom.trans (h₁ : GatheredFrom spec schema before between)
    (h₂ : GatheredFrom spec schema between g) : GatheredFrom spec schema before g where
  properties d hd := by
    rcases h₂.properties d hd with hd | hd
    · exact h₁.properties d hd
    · exact .inr hd
  composedOf c hc := by
    rcases h₂.composedOf c hc with hc | hc
    · exact h₁.composedOf c hc
    · exact .inr hc

/-- What was gathered from a member was gathered from the schema. -/
theorem GatheredFrom.of_composes {target : Members} (hs : Composes spec schema target)
    (h : GatheredFrom spec target before g) : GatheredFrom spec schema before g where
  properties d hd := by
    rcases h.properties d hd with hd | ⟨s, hv, hdecl⟩
    · exact .inl hd
    · exact .inr ⟨s, .head hs hv, hdecl⟩
  composedOf c hc := by
    rcases h.composedOf c hc with hc | ⟨s, member, hv, hm, ht⟩
    · exact .inl hc
    · exact .inr ⟨s, member, .head hs hv, hm, ht⟩

theorem declareAll_ok {model origin : String} {own : Members} {declared result : List Declared}
    (h : declareAll model origin own declared = .ok result) :
    ∀ d ∈ result, d ∈ declared ∨ (d.name, d.schema) ∈ own := by
  induction own generalizing declared with
  | nil =>
      cases h
      exact fun d hd => .inl hd
  | cons entry rest ih =>
      obtain ⟨name, schema⟩ := entry
      rw [declareAll] at h
      split at h
      next => cases h
      next =>
        intro d hd
        rcases ih h d hd with hd | hd
        · rcases List.mem_append.mp hd with hd | hd
          · exact .inl hd
          · rw [List.mem_singleton.mp hd]
            exact .inr List.mem_cons_self
        · exact .inr (List.mem_cons_of_mem _ hd)

theorem entriesUnder_ok {members own : Members} {key : String}
    (h : entriesUnder members key = .ok own) (hn : own ≠ []) :
    Members.get? members key = some (.map own) := by
  unfold entriesUnder at h
  split at h
  next =>
    cases h
    exact absurd rfl hn
  next v hv =>
    rw [nonEmpty?_eq_some hv]
    cases v <;> cases h
    rfl

theorem entriesUnder_of_get? {members own : Members} {key : String}
    (h : Members.get? members key = some (.map own)) : entriesUnder members key = .ok own := by
  unfold entriesUnder nonEmpty?
  rw [h]
  cases own <;> rfl

theorem declareOwn_ok {model origin : String}
    (h : declareOwn model origin schema before = .ok g) : GatheredFrom spec schema before g := by
  obtain ⟨own, hown, h⟩ := Attempt.bind_eq_ok.mp h
  obtain ⟨properties, hp, h⟩ := Attempt.bind_eq_ok.mp h
  obtain ⟨required, -, h⟩ := Attempt.bind_eq_ok.mp h
  split at h
  · cases h
    refine ⟨fun d hd => ?_, fun c hc => .inl hc⟩
    rcases declareAll_ok hp d hd with hd | hd
    · exact .inl hd
    · exact .inr ⟨schema, .refl, own, entriesUnder_ok hown (List.ne_nil_of_mem hd), hd⟩
  · cases h

theorem noted_ok {model origin component : String} {member : Members} (hm : HasMember schema member)
    (hc : Spec.schemaTarget? member = some component) :
    GatheredFrom spec schema g (g.noted model origin component) := by
  refine ⟨fun d hd => .inl (by simpa using hd), fun c hin => ?_⟩
  unfold Gathered.noted Gathered.note at hin
  split at hin
  · split at hin
    · exact .inl hin
    · rcases List.mem_append.mp hin with hin | hin
      · exact .inl hin
      · rw [List.mem_singleton.mp hin]
        exact .inr ⟨schema, member, .refl, hm, hc⟩
  · exact .inl hin

/-- The turn of a member gathers what it notes, and what is gathered from what it calls for. -/
theorem run_gathers {model origin : String} {visiting : List String} {member : Member}
    {follow : String → List String → Members → Gathered → Attempt Gathered}
    (hf : ∀ start way target g g', follow start way target g = .ok g' →
      GatheredFrom spec target g g')
    (hm : .ok member ∈ listed schema)
    (h : (turn spec model origin visiting member before).run follow = .ok g) :
    GatheredFrom spec schema before g := by
  rcases run_ok h with hturn | ⟨start, way, target, between, hturn, hcall⟩
  · obtain ⟨reference, component, hv, hc, -, -, rfl⟩ := pass_cases hturn
    exact noted_ok (mem_listed hm hv) hc
  · obtain ⟨reference, hv, hd, hcases⟩ := call_cases hturn
    have hmember := mem_listed hm hv
    have hg := (hf _ _ _ _ _ hcall).of_composes ⟨reference, hmember, Spec.derefs_of_deref hd⟩
    rcases hcases with ⟨component, hc, -, -, -, rfl⟩ | ⟨-, -, rfl⟩
    · exact (noted_ok hmember hc).trans ⟨hg.properties, hg.composedOf⟩
    · exact hg

/-- Flattening gathers from the schemas that the compositions of a schema lead to. -/
theorem flatten_ok {model : String} {depth : Nat} {origin : String} {visiting : List String}
    (h : flatten spec model depth origin visiting schema before = .ok g) :
    GatheredFrom spec schema before g := by
  induction depth generalizing origin visiting schema before g with
  | zero => cases h
  | succ depth ih =>
      rw [flatten_succ] at h
      obtain ⟨own, hown, h⟩ := Attempt.bind_eq_ok.mp h
      refine (declareOwn_ok hown).trans ?_
      exact rel_of_takeTurns (fun _ => .refl) (fun _ _ _ => .trans)
        (fun member hm _ _ => run_gathers (fun _ _ _ _ _ => ih) hm) h

end ApiScaffold.Model
