import ApiScaffold.Proofs.Document.Chain
import ApiScaffold.Proofs.Schema.Alike
import Mathlib.Logic.Relation

/-!
# Aliases in place of their references

A reference to an alias that does not lead back to itself has the type that the alias has where it
is written out (`resolve_referTo`), and both are followed to one mapping (`deref_referTo`); this for
any reference, however the aliases and references behind it lead to each other.

The search for a type knows which references were seen on the way and how many hops are left, and
both differ between a reference and what it stands for. `Spec.SeenAlike` says that the references
that one leads to were seen on both ways or on neither, which is all that matters
(`typeOfReference_congr`); and a reference that does not lead to itself is none of those that it
leads to (`of_acyclic`).
-/

namespace ApiScaffold

variable {spec : Spec} {g : Generator} {all seen seen' : List String} {hops hops' : Nat}
  {reference first : String}

/-- A mapping that is no more than a reference. -/
def Schema.referTo (reference : String) : Members := [(.str "$ref", .str reference)]

/-- A reference leads to another: the type of the alias that it points at may come from the other,
or it points at a mapping that is a reference itself. -/
def Spec.Leads (spec : Spec) (reference next : String) : Prop :=
  ∃ schema, spec.resolve reference = .ok schema
    ∧ (Schema.isAlias schema = .ok true ∧ Schema.Refers (.map schema) next
      ∨ Members.get? schema "$ref" = some (.str next))

/-- What the type of a value may come from stands in it. -/
theorem Schema.nests_of_refers {v : Value} (h : Refers v reference) :
    ∃ members, v.Nests (.map members) ∧ Members.get? members "$ref" = some (.str reference) := by
  induction h with
  | direct href => exact ⟨_, .refl _, href⟩
  | member hc hm _ ih =>
      obtain ⟨members, hn, href⟩ := ih
      have hget := (mem_of_composition? hc).2
      exact ⟨members, (Value.Nests.get? hget).trans (.item hm hn), href⟩
  | items hi _ ih =>
      obtain ⟨members, hn, href⟩ := ih
      exact ⟨members, (Value.Nests.get? hi).trans hn, href⟩
  | values ha _ ih =>
      obtain ⟨members, hn, href⟩ := ih
      exact ⟨members, (Value.Nests.get? ha).trans hn, href⟩

/-- What a reference leads to stands in the document. -/
theorem Spec.Leads.mem_citations {next : String} (h : spec.Leads reference next) :
    next ∈ spec.citations := by
  obtain ⟨schema, hs, ⟨-, hr⟩ | hr⟩ := h
  · obtain ⟨members, hn, href⟩ := Schema.nests_of_refers hr
    exact Spec.mem_citations ((nests_of_resolve hs).trans hn) href
  · exact Spec.mem_citations (nests_of_resolve hs) hr

/-- All references that one leads to have been seen on one way, or all of them on neither. -/
def Spec.SeenAlike (spec : Spec) (seen seen' : List String) (reference : String) : Prop :=
  ∀ last, Relation.ReflTransGen spec.Leads reference last → (last ∈ seen ↔ last ∈ seen')

namespace Spec.SeenAlike

theorem self (h : spec.SeenAlike seen seen' reference) : reference ∈ seen ↔ reference ∈ seen' :=
  h reference .refl

theorem step {next : String} (h : spec.SeenAlike seen seen' reference)
    (hl : spec.Leads reference next) :
    spec.SeenAlike (reference :: seen) (reference :: seen') next := by
  intro last hlast
  rw [List.mem_cons, List.mem_cons, h last (.head hl hlast)]

/-- A reference that does not lead to itself is none of those that it leads to. -/
theorem of_acyclic {next : String} (hl : spec.Leads reference next)
    (ha : ¬Relation.TransGen spec.Leads reference reference) :
    spec.SeenAlike [reference] [] next := by
  intro last hlast
  refine iff_of_false (fun hin => ?_) List.not_mem_nil
  rw [List.mem_singleton.mp hin] at hlast
  exact ha (.head' hl hlast)

end Spec.SeenAlike

/-- With the hops that a document allows there is room for its references and one more. -/
theorem Room.of_chainBound_le (h : Spec.chainBound spec.document ≤ hops) (first : String) :
    Room (first :: spec.citations) hops [] :=
  .start (Nat.lt_of_lt_of_le (Nat.succ_lt_succ spec.length_citations_lt) h)

namespace Schema

/-- The type of a reference depends on what was seen on the way to it, but on the references only
that it leads to, and on the hops that are left not at all. -/
theorem typeOfReference_congr (h : Room (first :: spec.citations) hops seen)
    (h' : Room (first :: spec.citations) hops' seen') (hk : reference ∈ first :: spec.citations)
    (hs : spec.SeenAlike seen seen' reference) :
    typeOfReference g spec hops seen reference = typeOfReference g spec hops' seen' reference := by
  induction hops generalizing seen seen' hops' reference with
  | zero => exact absurd h.pos (Nat.lt_irrefl 0)
  | succ hops ih =>
      cases hops' with
      | zero => exact absurd h'.pos (Nat.lt_irrefl 0)
      | succ hops' =>
          rw [typeOfReference, typeOfReference, typeOfTarget, typeOfTarget]
          refine Attempt.agree_eq.mp (.bind_same fun schema hr => .bind_same fun inlined ha =>
            Attempt.agree_eq.mpr ?_)
          -- only an alias is followed, and only where it was not seen
          cases inlined with
          | false => rfl
          | true =>
              by_cases hin : reference ∈ seen
              · simp [hin, hs.self.mp hin]
              · have hin' : reference ∉ seen' := fun he => hin (hs.self.mpr he)
                have htype : typeWith g (typeOfReference g spec hops (reference :: seen))
                      (.map schema)
                    = typeWith g (typeOfReference g spec hops' (reference :: seen'))
                      (.map schema) := by
                  refine typeWith_congr fun next hnext => ?_
                  have hl : spec.Leads reference next := ⟨schema, hr, .inl ⟨ha, hnext⟩⟩
                  exact ih (h.step hin hk) (h'.step hin' hk)
                    (List.mem_cons_of_mem _ hl.mem_citations) (hs.step hl)
                simp [hin, hin', htype]

variable {schema : Members}

/-- A reference to an alias that does not lead to itself has the type of the alias. -/
theorem resolve_referTo (hr : spec.resolve reference = .ok schema)
    (ha : isAlias schema = .ok true) (hc : ¬Relation.TransGen spec.Leads reference reference) :
    resolve g (some spec) (.map (referTo reference)) = resolve g (some spec) (.map schema) := by
  have hroom := Room.of_chainBound_le (Nat.le_refl (Spec.chainBound spec.document)) reference
  rw [resolve, resolve, typeWith_reference (show Members.get? (referTo reference) "$ref"
    = some (.str reference) from rfl)]
  unfold Spec.chainBound at hroom ⊢
  rw [typeOfReference, typeOfTarget, hr]
  -- behind the reference it has been seen and a hop is gone; neither counts for what the alias leads to
  have htype : typeWith g (typeOfReference g spec spec.document.nodeCount [reference]) (.map schema)
      = typeWith g (typeOfReference g spec (spec.document.nodeCount + 1) []) (.map schema) := by
    refine typeWith_congr fun next hnext => ?_
    have hl : spec.Leads reference next := ⟨schema, hr, .inl ⟨ha, hnext⟩⟩
    exact typeOfReference_congr (hroom.step List.not_mem_nil List.mem_cons_self) hroom
      (List.mem_cons_of_mem _ hl.mem_citations) (.of_acyclic hl hc)
  simp only [Bind.bind, Except.bind, ha, if_true, List.contains_nil, Bool.false_eq_true, if_false,
    htype]

end Schema

namespace Spec

variable {members target : Members}

/-- Nor do hops count where references are followed. -/
theorem derefFrom_congr (h : Room (first :: spec.citations) hops seen)
    (h' : Room (first :: spec.citations) hops' seen')
    (hk : ∀ r, Members.get? members "$ref" = some (.str r) →
      r ∈ first :: spec.citations ∧ spec.SeenAlike seen seen' r) :
    derefFrom spec.document hops seen members = derefFrom spec.document hops' seen' members := by
  induction hops generalizing seen seen' hops' members with
  | zero => exact absurd h.pos (Nat.lt_irrefl 0)
  | succ hops ih =>
      cases hops' with
      | zero => exact absurd h'.pos (Nat.lt_irrefl 0)
      | succ hops' =>
          rw [derefFrom, derefFrom]
          cases href : Members.get? members "$ref" with
          | none => rfl
          | some v =>
              cases v with
              | str r =>
                  obtain ⟨hmem, hs⟩ := hk r href
                  by_cases hin : r ∈ seen
                  · simp [hin, hs.self.mp hin]
                  · have hin' : r ∉ seen' := fun he => hin (hs.self.mpr he)
                    simp only [List.contains_iff_mem, hin, hin', if_false]
                    cases hr : resolveIn spec.document r with
                    | error failure => rfl
                    | ok next =>
                        refine ih (h.step hin hmem) (h'.step hin' hmem) fun q hq => ?_
                        have hl : spec.Leads r q := ⟨next, hr, .inr hq⟩
                        exact ⟨List.mem_cons_of_mem _ hl.mem_citations, hs.step hl⟩
              | _ => rfl

/-- A reference that does not lead to itself is followed to where the mapping is followed to at
which it points. -/
theorem deref_referTo (hr : spec.resolve reference = .ok target)
    (hc : ¬Relation.TransGen spec.Leads reference reference) :
    spec.deref (Schema.referTo reference) = spec.deref target := by
  have hroom := Room.of_chainBound_le (Nat.le_refl (Spec.chainBound spec.document)) reference
  rw [deref_eq_derefFrom, deref_eq_derefFrom]
  have hstep : derefFrom spec.document (chainBound spec.document) [] (Schema.referTo reference)
      = derefFrom spec.document spec.document.nodeCount [reference] target := by
    have hin : resolveIn spec.document reference = .ok target := hr
    rw [chainBound, derefFrom]
    simp [Schema.referTo, Members.get?, hin]
  rw [hstep]
  unfold chainBound at hroom ⊢
  refine derefFrom_congr (hroom.step List.not_mem_nil List.mem_cons_self) hroom fun q hq => ?_
  have hl : spec.Leads reference q := ⟨target, hr, .inr hq⟩
  exact ⟨List.mem_cons_of_mem _ hl.mem_citations, .of_acyclic hl hc⟩

end Spec

end ApiScaffold
