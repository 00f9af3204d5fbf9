import ApiScaffold.Proofs.Template.Datum
import ApiScaffold.Run.Context

/-!
# The shapes that templates see

The shapes that the parts of a run have in templates, without lone halves: records, rows of texts
and of values, and texts that may be absent. Models, operations and groups show themselves as
records, and what they need of them is said here once for all.
-/

namespace ApiScaffold.Datum

/-- A record has no lone halves if neither its keys nor its fields have any. -/
theorem isWhole_recordOf {kind : String} {shown derived : List (String × Datum)}
    (hkind : Text.isWhole kind = true)
    (hkeys : ∀ key ∈ shown.map Prod.fst ++ derived.map Prod.fst, Text.isWhole key = true)
    (hshown : ∀ d ∈ shown.map Prod.snd, d.isWhole = true)
    (hderived : ∀ d ∈ derived.map Prod.snd, d.isWhole = true) :
    (Datum.record kind shown derived).isWhole = true := by
  rw [isWhole_record]
  refine ⟨hkind, fun f hf => ⟨?_, ?_⟩, fun f hf => ⟨?_, ?_⟩⟩
  · exact hkeys _ (List.mem_append_left _ (List.mem_map_of_mem hf))
  · exact hshown _ (List.mem_map_of_mem hf)
  · exact hkeys _ (List.mem_append_right _ (List.mem_map_of_mem hf))
  · exact hderived _ (List.mem_map_of_mem hf)

theorem isWhole_strs {xs : List String} (h : ∀ s ∈ xs, Text.isWhole s = true) :
    (strs xs).isWhole = true := by
  rw [strs, isWhole_tuple]
  intro d hd
  obtain ⟨s, hs, rfl⟩ := List.mem_map.mp hd
  rw [isWhole_str]
  exact h s hs

theorem isWhole_ofValues {vs : List Value} (h : ∀ v ∈ vs, v.isWhole = true) :
    (ofValues vs).isWhole = true := by
  rw [ofValues, isWhole_tuple]
  intro d hd
  obtain ⟨v, hv, rfl⟩ := List.mem_map.mp hd
  rw [isWhole_value]
  exact h v hv

theorem isWhole_ofText? {s? : Option String} (h : ∀ s, s? = some s → Text.isWhole s = true) :
    (ofText? s?).isWhole = true := by
  cases s? with
  | none => simp [ofText?, Value.isWhole]
  | some s =>
      rw [ofText?, isWhole_str]
      exact h s rfl

end ApiScaffold.Datum
