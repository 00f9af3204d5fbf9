import ApiScaffold.Proofs.Schema.Inline

/-!
# Documents of different sizes that read alike

The hops that each document allows are enough for its references (`typeOfReference_chainBound`,
`derefFrom_chainBound`). So documents of different sizes whose references lead to mappings that read
alike give schemas one type (`resolve_same`), and references are followed in both to mappings that
read alike (`deref_agree`).

What is known at one number of hops is applied here at the greater of the two bounds, which changes
neither search.
-/

namespace ApiScaffold

open Attempt Members

variable {P : String → Prop} {a b spec : Spec} {s t : Members} {g : Generator} {hops : Nat}

namespace Schema

/-- More hops than a document allows make no other types. -/
theorem typeOfReference_chainBound (h : Spec.chainBound spec.document ≤ hops) (reference : String) :
    typeOfReference g spec hops [] reference
      = typeOfReference g spec (Spec.chainBound spec.document) [] reference :=
  typeOfReference_congr (.of_chainBound_le h reference) (.of_chainBound_le (Nat.le_refl _) reference)
    List.mem_cons_self fun _ _ => .rfl

/-- A schema has one type in both documents. -/
theorem resolve_same (h : a.Mirrors P b) {v : Value} (hv : v.CitesOnly P) :
    resolve g (some a) v = resolve g (some b) v := by
  rw [resolve, resolve]
  refine typeWith_same (fun reference hr => ?_) hv
  rw [← typeOfReference_chainBound (Nat.le_max_left _ (Spec.chainBound b.document)),
    typeOfReference_same h _ _ hr, typeOfReference_chainBound (Nat.le_max_right _ _)]

end Schema

namespace Spec

/-- More hops than a document allows lead to no other mappings. -/
theorem derefFrom_chainBound (h : chainBound spec.document ≤ hops) (members : Members) :
    derefFrom spec.document hops [] members = spec.deref members := by
  rw [deref_eq_derefFrom]
  cases href : Members.get? members "$ref" with
  | none =>
      refine derefFrom_congr (.of_chainBound_le h "") (.of_chainBound_le (Nat.le_refl _) "") ?_
      intro r hr
      rw [href] at hr
      cases hr
  | some v =>
      cases v with
      | str reference =>
          refine derefFrom_congr (.of_chainBound_le h reference)
            (.of_chainBound_le (Nat.le_refl _) reference) fun r hr => ?_
          rw [href] at hr
          cases hr
          exact ⟨List.mem_cons_self, fun _ _ => .rfl⟩
      | _ =>
          refine derefFrom_congr (.of_chainBound_le h "") (.of_chainBound_le (Nat.le_refl _) "") ?_
          intro r hr
          rw [href] at hr
          cases hr

/-- References are followed in both documents to mappings that read alike. -/
theorem deref_agree (h : a.Mirrors P b) (hst : Alike P s t) :
    Agree (Alike P) (a.deref s) (b.deref t) := by
  have ha := derefFrom_chainBound
    (Nat.le_max_left (chainBound a.document) (chainBound b.document)) s
  have hb := derefFrom_chainBound
    (Nat.le_max_right (chainBound a.document) (chainBound b.document)) t
  rw [← ha, ← hb]
  exact derefFrom_agree h _ _ hst

theorem derefValue_agree (h : a.Mirrors P b) {v : Value} (hv : v.CitesOnly P) :
    Agree (Alike P) (a.derefValue v >>= Value.entries) (b.derefValue v >>= Value.entries) := by
  unfold derefValue
  split
  · rw [bind_assoc, bind_assoc]
    exact (deref_agree h (.refl hv)).bind fun s t hst => .ok hst
  · split
    · exact .error _
    · exact .error _
  · split
    · exact .error _
    · exact .error _
  · exact .error _

/-- What references of the kind lead to has no other references. -/
theorem Mirrors.derefs (h : a.Mirrors P b) (hs : (Value.map s).CitesOnly P) (hd : a.Derefs s t) :
    (Value.map t).CitesOnly P := by
  induction hd with
  | done _ => exact hs
  | step href hr _ ih =>
      have hagree := h.resolve _ (hs.reference href)
      rw [hr] at hagree
      generalize b.resolve _ = y at hagree
      cases hagree with
      | ok halike => exact ih halike.cites

end Spec

end ApiScaffold
