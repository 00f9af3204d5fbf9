import ApiScaffold.Document.Copy
import ApiScaffold.Proofs.Document.Alongside

/-!
# What a copy keeps

Copying changes the order of the elements of sets and nothing else. So a copy has under each key the
copy of what the value has there, a pointer leads in it to the copy of what it leads to, and
whatever does not look at the order of a set holds of the copy as it holds of the value: that it
counts as true, that its keys differ, which references stand in it.

The order itself is any `SetOrder`: it is the same in all statements about one run, and nothing is
assumed about it but that it permutes.
-/

namespace ApiScaffold

namespace Value

variable {order : SetOrder} {members : Members} {v w : Value} {key : String}

theorem copyItems_eq (items : List Value) : copyItems order items = items.map (copy order) := by
  induction items with
  | nil => rfl
  | cons x xs ih => rw [copyItems, ih, List.map_cons]

theorem copyMembers_eq (members : Members) :
    copyMembers order members = members.map fun m => (m.1, m.2.copy order) := by
  induction members with
  | nil => rfl
  | cons m rest ih =>
      obtain ⟨k, v⟩ := m
      rw [copyMembers, ih, List.map_cons]

@[simp] theorem copy_str (s : String) : (Value.str s).copy order = .str s := by simp [copy]

@[simp] theorem copy_list (items : List Value) :
    (Value.list items).copy order = .list (items.map (copy order)) := by
  rw [copy, copyItems_eq]

@[simp] theorem copy_pair (a b : Value) :
    (Value.pair a b).copy order = .pair (a.copy order) (b.copy order) := by rw [copy]

@[simp] theorem copy_set (elements : List Value) :
    (Value.set elements).copy order = .set (order.copied elements) := by rw [copy]

@[simp] theorem copy_map (members : Members) :
    (Value.map members).copy order = .map (copyMembers order members) := by rw [copy]

/-- What holds of a value if it holds of its parts holds of all values: the parts are the items of
lists, both parts of pairs and the values of members. Sets have parts that are no mappings, and
their copy is another; any other value is its own copy. -/
theorem inductParts {motive : Value → Prop}
    (list : ∀ items, (∀ v ∈ items, motive v) → motive (.list items))
    (pair : ∀ a b, motive a → motive b → motive (.pair a b))
    (map : ∀ members : Members, (∀ m ∈ members, motive m.2) → motive (.map members))
    (set : ∀ elements, motive (.set elements))
    (leaf : ∀ v : Value, (∀ order, v.copy order = v) → motive v) (v : Value) : motive v := by
  cases v with
  | list items =>
      refine list items fun v hm => ?_
      have := List.sizeOf_lt_of_mem hm
      exact inductParts list pair map set leaf v
  | pair a b =>
      exact pair a b (inductParts list pair map set leaf a) (inductParts list pair map set leaf b)
  | map members =>
      refine map members fun m hm => ?_
      have : sizeOf m.2 < sizeOf members :=
        Nat.lt_trans (by cases m; simp +arith) (List.sizeOf_lt_of_mem hm)
      exact inductParts list pair map set leaf m.2
  | set elements => exact set elements
  | _ => exact leaf _ fun order => by simp [copy]
termination_by sizeOf v

/-! ## Keys and truth -/

theorem get?_copyMembers (members : Members) (key : String) :
    Members.get? (copyMembers order members) key
      = (Members.get? members key).map (copy order) := by
  fun_induction Members.get? members key with
  | case1 => rfl
  | case2 k v rest => simp [copyMembers, Members.get?]
  | case3 k v rest key hne ih => simp [copyMembers, Members.get?, hne, ih]
  | case4 m rest key hne ih =>
      obtain ⟨k, v⟩ := m
      cases k with
      | str s => exact absurd rfl (hne s v)
      | _ => exact ih

theorem copyMembers_insert (members : Members) (key v : Value) :
    copyMembers order (Members.insert members key v)
      = Members.insert (copyMembers order members) key (v.copy order) := by
  induction members with
  | nil => rfl
  | cons m rest ih =>
      obtain ⟨k, old⟩ := m
      rw [Members.insert, copyMembers, Members.insert]
      split
      · rfl
      · rw [copyMembers, ih]

/-- Whether a value counts as true does not depend on the order of a set. -/
theorem isTruthy_copy (v : Value) : (v.copy order).isTruthy = v.isTruthy := by
  cases v with
  | list items => cases items <;> simp [isTruthy]
  | set elements =>
      have hlength := (order.copied_perm elements).length_eq
      cases elements with
      | nil => simp [isTruthy, List.length_eq_zero_iff.mp hlength]
      | cons x xs =>
          cases hcopied : order.copied (x :: xs) with
          | nil => simp [hcopied] at hlength
          | cons => simp [isTruthy, hcopied]
  | map members => cases members <;> simp [isTruthy, copyMembers_eq]
  | _ => simp [copy, isTruthy]

/-- A pointer leads in the copy to the copy of what it leads to. -/
theorem follow_copy (v : Value) (keys : List String) :
    Pointer.follow (v.copy order) keys = (Pointer.follow v keys).map (copy order) := by
  induction keys generalizing v with
  | nil => rfl
  | cons key rest ih =>
      have hget : (v.copy order).get? key = (v.get? key).map (copy order) := by
        cases v with
        | map members => rw [copy_map]; exact get?_copyMembers members key
        | _ => simp [copy, Value.get?]
      rw [Pointer.follow, Pointer.follow, hget]
      cases v.get? key with
      | none => rfl
      | some next => exact ih next

/-! ## References and keys -/

/-- A copy has the keys of the value, with the copies of what is under them. -/
theorem alongside_copyMembers (order : SetOrder) (members : Members)
    {below : Value → Value → Value → Prop} (h : ∀ m ∈ members, below m.1 m.2 (m.2.copy order)) :
    Members.Alongside below members (copyMembers order members) := by
  rw [copyMembers_eq]
  exact Members.alongside_map (fun _ => rfl) h

/-- A value that is a text in a copy is that text. -/
theorem eq_str_of_copy {s : String} (h : v.copy order = .str s) : v = .str s := by
  cases v with
  | str => simpa using h
  | _ => simp [copy] at h

/-- A rule about references that says the same of what stands under their key and of its copy holds
of copies. -/
theorem IsRefRule.copy {P Q : Value → Prop} (h : IsRefRule P Q)
    (hP : ∀ x, P x → P (x.copy order)) (hv : Q v) : Q (v.copy order) := by
  induction v using inductParts with
  | list items ih =>
      rw [copy_list, h.list, List.forall_mem_map]
      exact fun x hx => ih x hx (h.list.mp hv x hx)
  | pair a b iha ihb =>
      rw [copy_pair]
      exact h.pair iha ihb hv
  | map members ih =>
      rw [copy_map]
      exact h.of_alongside (alongside_copyMembers order members fun m hm => ⟨hP m.2, ih m hm⟩) hv
  | set elements =>
      rw [copy_set]
      exact h.set
  | leaf v hcopy => rwa [hcopy]

theorem isWhole_copy (h : v.isWhole = true) : (v.copy order).isWhole = true := by
  induction v using inductParts with
  | list items ih =>
      rw [copy_list, isWhole_list, List.forall_mem_map]
      exact fun x hx => ih x hx (isWhole_list.mp h x hx)
  | pair a b iha ihb =>
      rw [copy_pair, isWhole_pair]
      exact (isWhole_pair.mp h).imp iha ihb
  | map members ih =>
      rw [copy_map, copyMembers_eq, isWhole_map, List.forall_mem_map]
      exact fun m hm => ⟨(isWhole_map.mp h m hm).1, ih m hm (isWhole_map.mp h m hm).2⟩
  | set elements =>
      rw [copy_set, isWhole_set]
      exact fun x hx => isWhole_set.mp h x ((order.copied_perm elements).mem_iff.mp hx)
  | leaf v hcopy => rwa [hcopy]

theorem CitesOnly.copy {P : String → Prop} (h : v.CitesOnly P) : (v.copy order).CitesOnly P := by
  induction v using inductParts with
  | list items ih =>
      rw [copy_list]
      refine citesOnly_list fun x hx => ?_
      obtain ⟨y, hy, rfl⟩ := List.mem_map.mp hx
      exact ih y hy (h.of_list hy)
  | pair a b =>
      rw [copy_pair]
      exact citesOnly_of_leaf (fun _ h => by cases h; rfl) (by simp)
  | map members ih =>
      rw [copy_map]
      exact .of_alongside (alongside_copyMembers order members fun m hm =>
        ⟨fun _ => eq_str_of_copy, ih m hm⟩) h
  | set elements =>
      rw [copy_set]
      rintro reference ⟨found, hf, href⟩
      cases hf with
      | element hm hf =>
          exact h reference ⟨found, .element ((order.copied_perm elements).mem_iff.mp hm) hf, href⟩
  | leaf v hcopy => rwa [hcopy]

end Value

end ApiScaffold
