import ApiScaffold.Proofs.Document.Citation
import ApiScaffold.Proofs.Document.Contained
import ApiScaffold.Proofs.Document.Rearranged

/-!
# Mappings with the same keys

A copy of a mapping and a mapping of which one member was changed have the keys of the first, in its
order, and values that come from its values one by one (`Members.Alongside`). What is shown here is
that such a mapping has a property of the first if its values keep it: different keys that are keys,
a rule about the references in it, and references of a kind only.

Each result is about the mapping itself. The induction over what stands in its values is left to
those that say how the values change.
-/

namespace ApiScaffold

namespace Members

variable {below : Value → Value → Value → Prop} {a b : Members}

/-- Members whose values are changed one by one. -/
theorem alongside_map {f : Value × Value → Value × Value} (hkey : ∀ m, (f m).1 = m.1)
    (hf : ∀ m ∈ a, below m.1 m.2 (f m).2) : Alongside below a (a.map f) := by
  induction a with
  | nil => exact .nil
  | cons m rest ih =>
      obtain ⟨hm, hrest⟩ := List.forall_mem_cons.mp hf
      exact .cons ⟨(hkey m).symm, hm⟩ (ih hrest)

/-- Members of which one value is changed. -/
theorem alongside_modify {f : Value → Value} (hsame : ∀ m ∈ a, below m.1 m.2 m.2)
    (hf : ∀ m ∈ a, below m.1 m.2 (f m.2)) (n : Nat) :
    Alongside below a (a.modify n fun m => (m.1, f m.2)) := by
  induction a generalizing n with
  | nil => cases n <;> exact .nil
  | cons m rest ih =>
      obtain ⟨hm, hrest⟩ := List.forall_mem_cons.mp hsame
      obtain ⟨hfm, hfrest⟩ := List.forall_mem_cons.mp hf
      cases n with
      | zero =>
          rw [List.modify_zero_cons]
          exact .cons ⟨rfl, hfm⟩ (List.forall₂_same.mpr fun m hm => ⟨rfl, hrest m hm⟩)
      | succ n =>
          rw [List.modify_succ_cons]
          exact .cons ⟨rfl, hm⟩ (ih hrest hfrest n)

end Members

namespace Value

open Members (Alongside)

variable {a b : Members}

theorem IsRefRule.of_alongside {P Q : Value → Prop} (h : IsRefRule P Q)
    (hab : Alongside (fun _ v w => (P v → P w) ∧ (Q v → Q w)) a b) (ha : Q (.map a)) :
    Q (.map b) := by
  obtain ⟨hself, hparts⟩ := h.map.mp ha
  refine h.map.mpr ⟨fun w hw => ?_, fun n hn => ?_⟩
  · obtain ⟨v, hv, hvw, -⟩ := hab.exists_of_get? hw
    exact hvw (hself v hv)
  · obtain ⟨m, hm, -, -, hmn⟩ := hab.exists_of_mem hn
    exact hmn (hparts m hm)

theorem CitesOnly.of_alongside {P : String → Prop}
    (hab : Alongside (fun _ v w => (∀ s, w = .str s → v = .str s) ∧ (v.CitesOnly P → w.CitesOnly P))
      a b) (ha : CitesOnly P (.map a)) : CitesOnly P (.map b) := by
  refine citesOnly_map (fun reference href => ?_) fun n hn => ?_
  · obtain ⟨v, hv, htext, -⟩ := hab.exists_of_get? href
    exact ha.reference (by rw [hv, htext reference rfl])
  · obtain ⟨m, hm, hkey, -, hmn⟩ := hab.exists_of_mem hn
    exact ⟨hkey ▸ (ha.of_map hm).1, hmn (ha.of_map hm).2⟩

end Value

end ApiScaffold
