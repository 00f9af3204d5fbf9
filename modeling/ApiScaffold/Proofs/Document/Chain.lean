import ApiScaffold.Proofs.Document.Nested
import Mathlib.Data.List.Perm.Subperm

/-!
# Chains of references

A reference may point at a mapping that is a reference again. Following such a chain is given as
many hops as the document has values. The references of the document are fewer
(`length_citations_lt`), and none is followed twice, so the following ends for what it says: at a
mapping that is no reference, where a reference points at no mapping, or where it comes to a
reference again; never for want of hops.

* `Room` is the invariant: more hops are left than references that have not been followed.
* `derefFrom_cases` and `deref_cases` say what following comes to, with the chain as evidence.
* `deref_eq_ok` and `Derefs.unique`: it comes to the one mapping to which references lead.
-/

namespace ApiScaffold

/-- The hops that are left are more than the references of a list that have not been followed. -/
structure Room (all : List String) (hops : Nat) (seen : List String) : Prop where
  nodup : seen.Nodup
  known : seen ⊆ all
  enough : all.length < hops + seen.length

namespace Room

variable {all : List String} {hops : Nat} {seen : List String}

theorem start (h : all.length < hops) : Room all hops [] :=
  ⟨List.nodup_nil, List.nil_subset _, by simpa using h⟩

/-- Different references of a list are not more than the list, so there is a hop left. -/
theorem pos (h : Room all hops seen) : 0 < hops := by
  have hle : seen.length ≤ all.length :=
    (List.subperm_of_subset h.nodup h.known).length_le
  have henough := h.enough
  omega

theorem step {reference : String} (h : Room all (hops + 1) seen) (hn : reference ∉ seen)
    (hk : reference ∈ all) : Room all hops (reference :: seen) where
  nodup := List.nodup_cons.mpr ⟨hn, h.nodup⟩
  known := List.cons_subset.mpr ⟨hk, h.known⟩
  enough := by
    have henough := h.enough
    rw [List.length_cons]
    omega

end Room

namespace Spec

variable {spec : Spec} {members next target last : Members} {reference : String}
  {refs seen : List String} {hops : Nat}

/-- The references of a document, in the order of the walk. -/
def citations (spec : Spec) : List String :=
  spec.document.parts.filterMap fun v => (v.get? "$ref").bind Value.asStr?

theorem mem_citations {w : Value} (hw : spec.document.Nests w)
    (hr : w.get? "$ref" = some (.str reference)) : reference ∈ spec.citations :=
  List.mem_filterMap.mpr ⟨w, Value.mem_parts.mpr hw, by rw [hr]; rfl⟩

/-- A document has more values than references: the root is none, or its reference is a value. -/
theorem length_citations_lt (spec : Spec) :
    spec.citations.length < spec.document.nodeCount := by
  rw [← Value.length_parts, citations, List.length_filterMap_lt_length_iff_exists]
  cases hr : (spec.document.get? "$ref").bind Value.asStr? with
  | none => exact ⟨spec.document, Value.self_mem_parts _, hr⟩
  | some reference =>
      obtain ⟨v, hv, hs⟩ := Option.bind_eq_some_iff.mp hr
      cases v with
      | str s => exact ⟨.str s, Value.mem_parts.mpr (.get? hv), rfl⟩
      | _ => cases hs

/-! ## Chains -/

/-- References lead from members, one after the other, to others. -/
inductive Chain (spec : Spec) : Members → List String → Members → Prop
  | nil (members : Members) : Chain spec members [] members
  | cons {members next last : Members} {reference : String} {refs : List String}
      (h : Members.get? members "$ref" = some (.str reference))
      (hr : spec.resolve reference = .ok next) (hc : Chain spec next refs last) :
      Chain spec members (reference :: refs) last

/-- The chain of references from members comes to one of them again. -/
def Circles (spec : Spec) (members : Members) : Prop :=
  ∃ refs last, spec.Chain members refs last ∧ ¬refs.Nodup

namespace Chain

theorem snoc (h : spec.Chain members refs last)
    (href : Members.get? last "$ref" = some (.str reference))
    (hr : spec.resolve reference = .ok next) : spec.Chain members (refs ++ [reference]) next := by
  induction h with
  | nil _ => exact .cons href hr (.nil _)
  | cons h hr' _ ih => exact .cons h hr' (ih href)

theorem points_of_mem (h : spec.Chain members refs last) (hm : reference ∈ refs) :
    ∃ next, spec.resolve reference = .ok next := by
  induction h with
  | nil _ => cases hm
  | cons _ hr _ ih =>
      rcases List.mem_cons.mp hm with rfl | hm
      · exact ⟨_, hr⟩
      · exact ih hm

/-- There is one chain from members: any other is a part of one that ends. -/
theorem prefix_of_end {others : List String} {other : Members} (h : spec.Chain members refs last)
    (hend : Members.get? last "$ref" = none) (ho : spec.Chain members others other) :
    others <+: refs := by
  induction h generalizing others with
  | nil _ =>
      cases ho with
      | nil _ => exact List.prefix_rfl
      | cons href _ _ =>
          rw [hend] at href
          cases href
  | cons href hr _ ih =>
      cases ho with
      | nil _ => exact List.nil_prefix
      | cons href' hr' ho =>
          -- both chains go by the one reference of the mapping to where it points
          rw [href] at href'
          cases href'
          rw [hr] at hr'
          cases hr'
          exact List.cons_prefix_cons.mpr ⟨rfl, ih hend ho⟩

end Chain

/-! ## Following references -/

/-- What stands under the key of references is a text that points at a mapping of the document. -/
def Points (spec : Spec) (v : Value) : Prop :=
  ∃ reference target, v = .str reference ∧ spec.resolve reference = .ok target

instance (spec : Spec) (v : Value) : Decidable (spec.Points v) :=
  match v with
  | .str reference =>
    match h : spec.resolve reference with
    | .ok target => isTrue ⟨reference, target, rfl, h⟩
    | .error _ => isFalse fun ⟨_, _, hv, ht⟩ => by cases hv; rw [h] at ht; cases ht
  | .null | .bool _ | .int _ | .float _ | .bytes _ | .date _ | .moment _ | .list _ | .pair _ _
  | .set _ | .map _ | .again _ => isFalse nofun

/-- Each reference that a walk over the document comes to points at a mapping of it. -/
def Resolves (spec : Spec) : Prop := spec.document.EachRef spec.Points

/-- Following references with room for all of them ends where there is none, or where one has been
seen before. The mapping at which it starts need not stand in the document. -/
theorem derefFrom_cases {all : List String} (hs : spec.Resolves) (hall : spec.citations ⊆ all)
    (hpoints : ∀ v ∈ Members.get? members "$ref", spec.Points v)
    (hknown : ∀ r, Members.get? members "$ref" = some (.str r) → r ∈ all)
    (hroom : Room all hops seen) :
    (∃ refs last, derefFrom spec.document hops seen members = .ok last
        ∧ spec.Chain members refs last ∧ Members.get? last "$ref" = none
        ∧ refs.Nodup ∧ ∀ r ∈ refs, r ∉ seen)
      ∨ ∃ refs last r, derefFrom spec.document hops seen members
          = .error (.spec (.circularReference (.str r)))
        ∧ spec.Chain members refs last ∧ Members.get? last "$ref" = some (.str r)
        ∧ (r ∈ refs ∨ r ∈ seen) := by
  induction hops generalizing seen members with
  | zero => exact absurd hroom.pos (Nat.lt_irrefl 0)
  | succ hops ih =>
      rw [derefFrom]
      cases href : Members.get? members "$ref" with
      | none => exact .inl ⟨[], members, rfl, .nil _, href, List.nodup_nil, by simp⟩
      | some v =>
          obtain ⟨r, next, rfl, hr⟩ := hpoints v href
          have hnext := nests_of_resolve hr
          have hin : resolveIn spec.document r = .ok next := hr
          simp only [hin]
          by_cases hseen : r ∈ seen
          · refine .inr ⟨[], members, r, ?_, .nil _, href, .inr hseen⟩
            rw [if_pos (List.contains_iff_mem.mpr hseen)]
          · rw [if_neg (by simpa using hseen)]
            -- a new reference takes a hop and is one more of those that are known
            have hstep := hroom.step hseen (hknown r href)
            rcases ih (hs _ hnext) (fun q hq => hall (mem_citations hnext hq)) hstep with
              ⟨refs, last, hd, hc, hend, hnodup, hnew⟩ | ⟨refs, last, q, hd, hc, hq, hagain⟩
            · refine .inl ⟨r :: refs, last, hd, .cons href hr hc, hend, ?_, ?_⟩
              · exact List.nodup_cons.mpr
                  ⟨fun h => hnew r h List.mem_cons_self, hnodup⟩
              · intro q hq hqs
                rcases List.mem_cons.mp hq with rfl | hq
                · exact hseen hqs
                · exact hnew q hq (List.mem_cons_of_mem _ hqs)
            · refine .inr ⟨r :: refs, last, q, hd, .cons href hr hc, hq, ?_⟩
              simp only [List.mem_cons] at hagain ⊢
              tauto

theorem deref_eq_derefFrom (spec : Spec) (members : Members) :
    spec.deref members = derefFrom spec.document (chainBound spec.document) [] members := by
  unfold deref
  split
  · rfl
  next hnone =>
    have hget : Members.get? members "$ref" = none := by simpa [Members.has] using hnone
    rw [derefFrom, hget]

/-- From a mapping whose own reference points at one, if it has any, references are followed to the
end of their chain, or to the first that comes again. -/
theorem deref_cases (hs : spec.Resolves)
    (hpoints : ∀ v ∈ Members.get? members "$ref", spec.Points v) :
    (∃ refs last, spec.deref members = .ok last ∧ spec.Chain members refs last
        ∧ Members.get? last "$ref" = none ∧ ¬spec.Circles members)
      ∨ ∃ r, spec.deref members = .error (.spec (.circularReference (.str r)))
        ∧ spec.Circles members := by
  -- the chain begins with the reference of the mapping, and all others stand in the document
  let own := ((Members.get? members "$ref").bind Value.asStr?).toList
  have hbound : (own ++ spec.citations).length < chainBound spec.document := by
    have hown : own.length ≤ 1 := Option.length_toList_le
    have hlt := spec.length_citations_lt
    rw [List.length_append, chainBound]
    omega
  have hknown : ∀ r, Members.get? members "$ref" = some (.str r) → r ∈ own ++ spec.citations :=
    fun r hr => List.mem_append_left _ (by simp [own, hr, Value.asStr?])
  rw [deref_eq_derefFrom]
  rcases derefFrom_cases hs (List.subset_append_right _ _) hpoints hknown (.start hbound) with
    ⟨refs, last, hd, hc, hend, hnodup, -⟩ | ⟨refs, last, r, hd, hc, hr, hagain⟩
  · refine .inl ⟨refs, last, hd, hc, hend, ?_⟩
    rintro ⟨others, other, ho, hrepeats⟩
    exact hrepeats (hnodup.sublist (hc.prefix_of_end hend ho).sublist)
  · refine .inr ⟨r, hd, ?_⟩
    have hin : r ∈ refs := hagain.resolve_right (by simp)
    -- the reference was followed before, so it can be followed once more
    obtain ⟨next, hnext⟩ := hc.points_of_mem hin
    exact ⟨refs ++ [r], next, hc.snoc hr hnext, by simp [List.nodup_append, hin]⟩

/-! ## Chains with an end -/

namespace Chain

variable {target : Members}

/-- Behind a reference of a chain the rest of the chain begins where the reference points. -/
theorem after_mem (h : spec.Chain members refs target) (hm : reference ∈ refs)
    (hr : spec.resolve reference = .ok next) :
    ∃ after, spec.Chain next after target ∧ after.length < refs.length := by
  induction h with
  | nil _ => cases hm
  | cons _ hnext hc ih =>
      rcases List.mem_cons.mp hm with rfl | hm
      · rw [hr] at hnext
        cases hnext
        exact ⟨_, hc, Nat.lt_succ_self _⟩
      · obtain ⟨after, hafter, hlt⟩ := ih hm
        exact ⟨after, hafter, Nat.lt_succ_of_lt hlt⟩

/-- A chain with an end comes to no reference twice. -/
theorem nodup_of_end (h : spec.Chain members refs target)
    (hend : Members.get? target "$ref" = none) : refs.Nodup := by
  induction h with
  | nil _ => exact List.nodup_nil
  | cons _ hr hc ih =>
      refine List.nodup_cons.mpr ⟨fun hin => ?_, ih hend⟩
      -- behind its second occurrence the reference would have the chain that it has behind its first
      obtain ⟨after, hafter, hlt⟩ := hc.after_mem hin hr
      exact absurd (hafter.prefix_of_end hend hc).length_le (Nat.not_le.mpr hlt)

/-- All references of a chain but its first stand in the document. -/
theorem mem_citations (h : spec.Chain members refs target) (hm : spec.document.Nests (.map members)) :
    refs ⊆ spec.citations := by
  induction h with
  | nil _ => exact List.nil_subset _
  | cons href hr _ ih =>
      exact List.cons_subset.mpr ⟨Spec.mem_citations hm href, ih (nests_of_resolve hr)⟩

/-- References are followed to the end of a chain if there are hops for it and none was seen. -/
theorem derefFrom_eq {hops : Nat} {seen : List String} (h : spec.Chain members refs target)
    (hend : Members.get? target "$ref" = none) (hn : refs.Nodup) (hs : ∀ r ∈ refs, r ∉ seen)
    (hle : refs.length ≤ hops) : derefFrom spec.document hops seen members = .ok target := by
  induction h generalizing hops seen with
  | nil _ =>
      unfold derefFrom
      rw [hend]
  | @cons _ _ _ r rest href hr hc ih =>
      obtain ⟨hnot, hn⟩ := List.nodup_cons.mp hn
      cases hops with
      | zero => cases hle
      | succ hops =>
          have hin : resolveIn spec.document r = .ok _ := hr
          have hfresh : r ∉ seen := hs r List.mem_cons_self
          rw [derefFrom, href]
          simp only [hin, List.contains_iff_mem, hfresh, if_false]
          refine ih hend hn (fun q hq => ?_) (Nat.le_of_succ_le_succ hle)
          simp only [List.mem_cons, not_or]
          exact ⟨fun he => hnot (he ▸ hq), hs q (List.mem_cons_of_mem _ hq)⟩

/-- References are followed to the end of their chain. -/
theorem deref_eq (h : spec.Chain members refs target)
    (hend : Members.get? target "$ref" = none) : spec.deref members = .ok target := by
  rw [deref_eq_derefFrom]
  have hnodup := h.nodup_of_end hend
  refine h.derefFrom_eq hend hnodup (fun _ _ => List.not_mem_nil) ?_
  cases h with
  | nil _ => exact Nat.zero_le _
  | @cons _ _ _ r rest _ hr hc =>
      have hrest : rest.length ≤ spec.citations.length :=
        (List.subperm_of_subset (List.nodup_cons.mp hnodup).2
          (hc.mem_citations (nests_of_resolve hr))).length_le
      have hlt := spec.length_citations_lt
      rw [List.length_cons, chainBound]
      omega

end Chain

theorem exists_chain_iff {target : Members} :
    (∃ refs, spec.Chain members refs target) ∧ Members.get? target "$ref" = none
      ↔ spec.Derefs members target := by
  constructor
  · rintro ⟨⟨refs, hc⟩, hend⟩
    induction hc with
    | nil _ => exact .done hend
    | cons href hr _ ih => exact .step href hr (ih hend)
  · intro h
    induction h with
    | done hend => exact ⟨⟨[], .nil _⟩, hend⟩
    | step href hr _ ih =>
        obtain ⟨⟨refs, hc⟩, hend⟩ := ih
        exact ⟨⟨_, .cons href hr hc⟩, hend⟩

/-- References are followed to where they lead. -/
theorem deref_eq_ok {target : Members} :
    spec.deref members = .ok target ↔ spec.Derefs members target := by
  refine ⟨derefs_of_deref, fun h => ?_⟩
  obtain ⟨⟨refs, hc⟩, hend⟩ := exists_chain_iff.mpr h
  exact hc.deref_eq hend

/-- References lead to one mapping. -/
theorem Derefs.unique {target target' : Members} (h : spec.Derefs members target)
    (h' : spec.Derefs members target') : target = target' :=
  Except.ok.inj ((deref_eq_ok.mpr h).symm.trans (deref_eq_ok.mpr h'))

end Spec

end ApiScaffold
