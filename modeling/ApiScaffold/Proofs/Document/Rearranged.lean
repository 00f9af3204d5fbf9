import ApiScaffold.Document.Pointer
import ApiScaffold.Proofs.Document.Textual
import Mathlib.Data.List.Perm.Basic

/-!
# Members in another order

Where the keys are different texts, the order of members changes neither what they have under a key
nor their sorted form, nor how many values there are; and ways of keys lead to the same values.

* `Members.Alongside` relates members with the same keys in the same places.
* `Members.Rearranged` allows another order besides. The values under a key may differ as it is said
  of that key, so that one relation serves for the parts of a document, whose own parts are in
  another order again.
* `Members.Rearranged.insert`: rearranged members stay such when related values are put in under one
  name.
* `Value.Reordered` carries this to values, and `follow_cons` to the ends of ways.
-/

namespace ApiScaffold

theorem rel_self {α : Type} {R : α → α → Prop} (h : ∀ x, R x x) (o : Option α) : Option.Rel R o o := by
  cases o with
  | none => exact .none
  | some x => exact .some (h x)

theorem Value.keyEq_str {key : Value} {name : String} :
    key.keyEq (.str name) = true ↔ key = .str name := by
  cases key <;> simp [keyEq, ratio?]

namespace Members

/-- Members with the same keys, one by one, and with related values. -/
abbrev Alongside (below : Value → Value → Value → Prop) (a b : Members) : Prop :=
  List.Forall₂ (fun m n : Value × Value => m.1 = n.1 ∧ below m.1 m.2 n.2) a b

/-- Members in another order, with values that may differ as it is said of their keys. -/
def Rearranged (below : Value → Value → Value → Prop) (a b : Members) : Prop :=
  ∃ c, a.Perm c ∧ Alongside below c b

variable {below : Value → Value → Value → Prop} {a b c : Members}

theorem Rearranged.of_perm (hb : ∀ key v, below key v v) (h : a.Perm b) : Rearranged below a b :=
  ⟨b, h, List.forall₂_same.mpr fun m _ => ⟨rfl, hb m.1 m.2⟩⟩

theorem Alongside.names (h : Alongside below a b) : a.names = b.names := by
  induction h with
  | nil => rfl
  | cons hm _ ih => exact congrArg₂ List.cons (congrArg Value.display hm.1) ih

/-- A member comes from one with its key. -/
theorem Alongside.exists_of_mem (h : Alongside below a b) {n : Value × Value} (hn : n ∈ b) :
    ∃ m ∈ a, m.1 = n.1 ∧ below m.1 m.2 n.2 :=
  Attempt.exists_of_forall₂ (R := fun m n : Value × Value => m.1 = n.1 ∧ below m.1 m.2 n.2) h hn

theorem Alongside.hasNames (h : Alongside below a b) (ha : HasNames a) : HasNames b where
  textual := fun n hn => by
    obtain ⟨m, hm, hkey, -⟩ := h.exists_of_mem hn
    rw [← hkey]
    exact ha.textual m hm
  distinct := h.names ▸ ha.distinct

theorem Alongside.get? (h : Alongside below a b) (key : String) :
    Option.Rel (below (.str key)) (a.get? key) (b.get? key) := by
  induction h with
  | nil => exact .none
  | @cons m n _ _ hm _ ih =>
      obtain ⟨k, v⟩ := m
      obtain ⟨k', w⟩ := n
      obtain ⟨rfl, hvw⟩ := hm
      cases k with
      | str s =>
          by_cases hs : s = key
          · subst hs
            simpa [Members.get?] using Option.Rel.some hvw
          · simpa [Members.get?, hs] using ih
      | _ => exact ih

/-- What is found under a key comes from what is found there. -/
theorem Alongside.exists_of_get? (h : Alongside below a b) {key : String} {w : Value}
    (hw : b.get? key = some w) : ∃ v, a.get? key = some v ∧ below (.str key) v w := by
  have hrel := h.get? key
  rw [hw] at hrel
  cases hv : a.get? key with
  | none => simp [hv] at hrel
  | some v =>
      rw [hv] at hrel
      cases hrel with
      | some hvw => exact ⟨v, rfl, hvw⟩

namespace Rearranged

theorem hasNames (h : Rearranged below a b) (ha : HasNames a) : HasNames b := by
  obtain ⟨c, hp, hf⟩ := h
  exact hf.hasNames (ha.perm hp)

/-- Rearranged members have related values under a key, or none. -/
theorem get? (h : Rearranged below a b) (ha : HasNames a) (key : String) :
    Option.Rel (below (.str key)) (a.get? key) (b.get? key) := by
  obtain ⟨c, hp, hf⟩ := h
  rw [ha.get?_perm hp]
  exact hf.get? key

/-- Members with the same values are the same but for their order. -/
theorem perm (h : Rearranged (fun _ v w => v = w) a b) : a.Perm b := by
  obtain ⟨c, hp, hf⟩ := h
  have hsame : List.Forall₂ Eq c b := hf.imp fun m n hmn => Prod.ext hmn.1 hmn.2
  rw [List.forall₂_eq_eq_eq] at hsame
  exact hsame ▸ hp

/-- Rearranged members are sorted into one order. -/
theorem sorted (h : Rearranged below a b) (ha : HasNames a) : ∃ x y,
    sorted? a = some x ∧ sorted? b = some y ∧ x.Perm a
      ∧ Alongside below x y := by
  obtain ⟨x, hx, hxa, hxlt⟩ := ha.sorted
  obtain ⟨y, hy, hyb, hylt⟩ := (h.hasNames ha).sorted
  obtain ⟨c, hp, hf⟩ := h
  obtain ⟨z, hxz, hzb⟩ := List.perm_comp_forall₂ (hxa.trans hp) hf
  -- both are the members of `b` with names that increase
  have hyz : z = y := eq_of_increasing (hzb.trans hyb.symm) (Alongside.names hxz ▸ hxlt) hylt
  exact ⟨x, y, hx, hy, hxa, hyz ▸ hxz⟩

theorem nodeCount (h : Rearranged below a b)
    (hb : ∀ key v w, below key v w → v.nodeCount = w.nodeCount) :
    (Value.map a).nodeCount = (Value.map b).nodeCount := by
  have hperm : ∀ {a c : Members}, a.Perm c →
      Value.nodeCountMembers a = Value.nodeCountMembers c := by
    intro a c hp
    induction hp with
    | nil => rfl
    | cons m _ ih => simp only [Value.nodeCountMembers, ih]
    | swap m n rest =>
        simp only [Value.nodeCountMembers]
        omega
    | trans _ _ ih₁ ih₂ => exact ih₁.trans ih₂
  obtain ⟨c, hp, hf⟩ := h
  rw [Value.nodeCount, Value.nodeCount, hperm hp]
  congr 1
  clear hp
  induction hf with
  | nil => rfl
  | cons hm _ ih => simp only [Value.nodeCountMembers, hb _ _ _ hm.2, ih]

end Rearranged

/-! ## Putting in members -/

theorem mem_insert {name : String} {v : Value} {m : Value × Value}
    (h : m ∈ a.insert (.str name) v) : m ∈ a ∨ m = (.str name, v) := by
  induction a with
  | nil => exact .inr (List.mem_singleton.mp h)
  | cons first rest ih =>
      obtain ⟨k, old⟩ := first
      rw [Members.insert] at h
      split at h
      next hk =>
        rcases List.mem_cons.mp h with rfl | h
        · exact .inr (by rw [Value.keyEq_str.mp hk])
        · exact .inl (List.mem_cons_of_mem _ h)
      next =>
        rcases List.mem_cons.mp h with rfl | h
        · exact .inl List.mem_cons_self
        · exact (ih h).imp_left (List.mem_cons_of_mem _)

section

variable {members : Members} {key : String} {v : Value}

theorem isProper_insert (h : (Value.map members).isProper = true) (hv : v.isProper = true) :
    (Value.map (insert members (.str key) v)).isProper = true := by
  rw [Value.isProper] at h ⊢
  induction members with
  | nil => simp [insert, Value.membersProper, Value.isKey, hv]
  | cons m rest ih =>
      obtain ⟨k, old⟩ := m
      simp only [Value.membersProper, Bool.and_eq_true] at h
      rw [insert]
      split
      next => simp only [Value.membersProper, Bool.and_eq_true, hv, h, and_self]
      next hk =>
        simp only [Value.membersProper, Bool.and_eq_true]
        refine ⟨⟨h.1.1, ?_⟩, ih h.2⟩
        rw [List.all_eq_true] at h ⊢
        intro m hm
        rcases mem_insert hm with hm | rfl
        · exact h.1.2 m hm
        · simpa using hk

end

theorem HasNames.insert (h : HasNames a) (name : String) (v : Value) :
    HasNames (a.insert (.str name) v) := by
  constructor
  · intro m hm
    rcases mem_insert hm with hm | rfl
    · exact h.textual m hm
    · rfl
  · induction a with
    | nil => exact List.nodup_singleton _
    | cons first rest ih =>
        obtain ⟨k, old⟩ := first
        obtain ⟨hnew, hrest⟩ := List.nodup_cons.mp h.distinct
        rw [Members.insert]
        split
        · exact List.nodup_cons.mpr ⟨hnew, hrest⟩
        next hk =>
          refine List.nodup_cons.mpr ⟨fun hin => ?_, ih h.tail⟩
          obtain ⟨m, hm, hsame⟩ := List.mem_map.mp hin
          rcases mem_insert hm with hm | rfl
          · exact hnew (List.mem_map.mpr ⟨m, hm, hsame⟩)
          · have htext : k = .str k.display := h.textual (k, old) List.mem_cons_self
            exact hk (Value.keyEq_str.mpr (htext.trans (congrArg Value.str hsame.symm)))

theorem HasNames.insert_perm (h : HasNames a) (hp : a.Perm c) (name : String) (v : Value) :
    (a.insert (.str name) v).Perm (c.insert (.str name) v) := by
  induction hp with
  | nil => exact .refl _
  | cons m hrest ih =>
      rw [Members.insert, Members.insert]
      split
      · exact hrest.cons _
      · exact (ih h.tail).cons _
  | swap m n rest =>
      obtain ⟨k, v⟩ := m
      obtain ⟨k', w⟩ := n
      have hne : ¬(k.keyEq (.str name) = true ∧ k'.keyEq (.str name) = true) := by
        rintro ⟨hk, hk'⟩
        have hdistinct := h.distinct
        simp [names, Value.keyEq_str.mp hk, Value.keyEq_str.mp hk'] at hdistinct
      simp only [Members.insert]
      by_cases hk : k.keyEq (.str name) = true <;> by_cases hk' : k'.keyEq (.str name) = true
      · exact absurd ⟨hk, hk'⟩ hne
      all_goals
        simp only [hk, hk']
        exact .swap _ _ _
  | trans hp _ ih₁ ih₂ => exact (ih₁ h).trans (ih₂ (h.perm hp))

/-- Rearranged members stay such when related values are put in under one name. -/
theorem Rearranged.insert (h : Rearranged below a b) (ha : HasNames a) {name : String}
    {v w : Value} (hvw : below (.str name) v w) :
    Rearranged below (a.insert (.str name) v) (b.insert (.str name) w) := by
  obtain ⟨c, hp, hf⟩ := h
  refine ⟨_, ha.insert_perm hp name v, ?_⟩
  clear hp
  induction hf with
  | nil => exact .cons ⟨rfl, hvw⟩ .nil
  | @cons m n _ _ hm hrest ih =>
      obtain ⟨k, x⟩ := m
      obtain ⟨k', y⟩ := n
      obtain ⟨rfl, hxy⟩ := hm
      rw [Members.insert, Members.insert]
      split
      next hk =>
        rw [Value.keyEq_str.mp hk]
        exact .cons ⟨rfl, hvw⟩ hrest
      next => exact .cons ⟨rfl, hxy⟩ ih

end Members

/-! ## Values in another order -/

namespace Value

/-- The same value, or a mapping with its members in another order, whose values may differ as it is
said of their keys. -/
inductive Reordered (below : Value → Value → Value → Prop) : Value → Value → Prop
  | same (v : Value) : Reordered below v v
  | map {a b : Members} (h : Members.Rearranged below a b) : Reordered below (.map a) (.map b)

/-- The same value, or a mapping with its members in another order. -/
abbrev Shuffled : Value → Value → Prop := Reordered fun _ v w => v = w

namespace Reordered

variable {below : Value → Value → Value → Prop} {v w : Value}

theorem nodeCount (h : v.Reordered below w)
    (hb : ∀ key x y, below key x y → x.nodeCount = y.nodeCount) : v.nodeCount = w.nodeCount := by
  cases h with
  | same => rfl
  | map h => exact h.nodeCount hb

theorem get? (h : v.Reordered below w) (hv : v.isTextual = true) (hb : ∀ key x, below key x x)
    (key : String) : Option.Rel (below (.str key)) (v.get? key) (w.get? key) := by
  cases h with
  | same => exact rel_self (hb _) _
  | map h => exact h.get? (hasNames_of_textual hv) key

/-- Ways from reordered values lead to related values if their rests do. -/
theorem follow_cons {S : Value → Value → Prop} (h : v.Reordered below w) (hv : v.isTextual = true)
    (hb : ∀ key x, below key x x) {key : String} {rest : List String}
    (hnext : ∀ x y, v.get? key = some x → below (.str key) x y →
      Option.Rel S (Pointer.follow x rest) (Pointer.follow y rest)) :
    Option.Rel S (Pointer.follow v (key :: rest)) (Pointer.follow w (key :: rest)) := by
  have hget := h.get? hv hb key
  rw [Pointer.follow, Pointer.follow]
  generalize hx : v.get? key = x at hget ⊢
  generalize w.get? key = y at hget ⊢
  cases hget with
  | none => exact .none
  | some hxy => exact hnext _ _ hx hxy

end Reordered

end Value

end ApiScaffold
