import ApiScaffold.Operation.Group
import ApiScaffold.Proofs.Operation.Build

/-!
# Names and groups of operations

What the telling apart of operations and the making of groups keep: operations change in their names
only, each of them is in one group, in its place, and a group has no other imports than theirs.

* `Renamed`: two operations are the same but for their method names. A single renaming keeps what is
  no matter of names, and so do the passes (`renameByCount_forall`, `distinguishAll_renamed`).
* `Partition`: groups take operations apart by their group. `ofOperations_partition` says that each
  operation is in one group, and that a group has its operations in their order and the union of
  their imports.
* `isWhole_ofOperations`: groups of operations without lone halves have none.
-/

namespace ApiScaffold

namespace Operation

/-- Renaming by count keeps what every single renaming keeps. -/
theorem renameByCount_forall {P : Operation → Prop} {rename : Operation → Nat → Operation}
    (hrename : ∀ op n, P op → P (rename op n)) {earlier : List NicknameKey}
    {ops : List Operation} (h : ∀ op ∈ ops, P op) :
    ∀ op ∈ renameByCount rename earlier ops, P op := by
  induction ops generalizing earlier with
  | nil => simp [renameByCount]
  | cons op rest ih =>
      rw [renameByCount, List.forall_mem_cons]
      rw [List.forall_mem_cons] at h
      exact ⟨hrename _ _ h.1, ih h.2⟩

/-- Telling operations apart keeps what a change of name keeps. -/
theorem distinguishAll_forall {P : Operation → Prop} {ops named : List Operation}
    (hmethod : ∀ op n, P op → P (appendMethod op n))
    (hnumber : ∀ op n, P op → P (appendNumber op n)) (h : ∀ op ∈ ops, P op)
    (hd : distinguishAll ops = .ok named) : ∀ op ∈ named, P op := by
  unfold distinguishAll at hd
  split at hd
  · cases hd
    exact renameByCount_forall hnumber (renameByCount_forall hmethod h)
  · cases hd

@[simp] theorem appendMethod_imports (op : Operation) (n : Nat) :
    (appendMethod op n).imports = op.imports := by
  unfold appendMethod
  split <;> rfl

@[simp] theorem appendNumber_imports (op : Operation) (n : Nat) :
    (appendNumber op n).imports = op.imports := by
  unfold appendNumber
  split <;> rfl

/-- Two operations are the same but for their method names. -/
def Renamed (op named : Operation) : Prop := named = { op with nickname := named.nickname }

theorem Renamed.trans {a b c : Operation} (hab : Renamed a b) (hbc : Renamed b c) :
    Renamed a c := by
  unfold Renamed at hab hbc ⊢
  rw [hbc, hab]

theorem Renamed.imports {op named : Operation} (h : Renamed op named) :
    named.imports = op.imports := by
  unfold Renamed at h
  rw [h]

theorem Renamed.returnType {op named : Operation} (h : Renamed op named) :
    named.returnType = op.returnType := by
  unfold Renamed at h
  rw [h]

theorem renamed_appendMethod (op : Operation) (n : Nat) : Renamed op (appendMethod op n) := by
  unfold Renamed appendMethod
  split <;> rfl

theorem renamed_appendNumber (op : Operation) (n : Nat) : Renamed op (appendNumber op n) := by
  unfold Renamed appendNumber
  split <;> rfl

/-- Renaming by count keeps the places of operations. -/
theorem renameByCount_renamed {rename : Operation → Nat → Operation}
    (hrename : ∀ op n, Renamed op (rename op n)) (earlier : List NicknameKey)
    (ops : List Operation) : List.Forall₂ Renamed ops (renameByCount rename earlier ops) := by
  induction ops generalizing earlier with
  | nil => exact .nil
  | cons op rest ih => exact .cons (hrename _ _) (ih _)

/-- Telling operations apart changes nothing but their method names. -/
theorem distinguishAll_renamed {ops named : List Operation}
    (h : distinguishAll ops = .ok named) : List.Forall₂ Renamed ops named := by
  unfold distinguishAll at h
  split at h
  · cases h
    exact Attempt.forall₂_comp (R := Renamed) (S := Renamed)
      (fun _ _ _ hmethod hnumber => hmethod.trans hnumber)
      (renameByCount_renamed renamed_appendMethod [] ops)
      (renameByCount_renamed renamed_appendNumber [] _)
  · cases h

theorem isWhole_appendMethod {op : Operation} (n : Nat) (h : op.IsWhole) :
    (appendMethod op n).IsWhole := by
  unfold appendMethod
  split
  · exact h
  · exact { h with
      nickname := Text.isWhole_append.mpr ⟨h.nickname, Text.isWhole_capitalize h.httpMethod⟩ }

theorem isWhole_appendNumber {op : Operation} (n : Nat) (h : op.IsWhole) :
    (appendNumber op n).IsWhole := by
  unfold appendNumber
  split
  · exact h
  · exact { h with nickname := Text.isWhole_append.mpr ⟨h.nickname, Text.isWhole_repr _⟩ }

end Operation

namespace OperationGroup

theorem ofOperations_ok {ops : List Operation} {groups : List OperationGroup}
    (h : ofOperations ops = .ok groups) : ∀ group ∈ groups,
      (∃ op ∈ ops, op.group.asStr? = some group.name)
      ∧ group.className = Target.apiName group.name
      ∧ group.operations ⊆ ops
      ∧ ∀ s ∈ group.imports, ∃ op ∈ ops, s ∈ op.imports := by
  intro group hg
  unfold ofOperations at h
  split at h
  · cases h
    obtain ⟨name, hname, rfl⟩ := List.mem_map.mp hg
    refine ⟨List.mem_filterMap.mp (Target.mem_sortedSet.mp hname), rfl,
      List.filter_sublist.subset, fun s hs => ?_⟩
    obtain ⟨op, hop, hs⟩ := List.mem_flatMap.mp (Target.mem_sortedSet.mp hs)
    exact ⟨op, (List.mem_filter.mp hop).1, hs⟩
  · cases h

/-- Groups take operations apart by their group: each is in one group, and a group has its
operations in their order, and as imports theirs. -/
structure Partition (ops : List Operation) (groups : List OperationGroup) : Prop where
  increasing : (groups.map name).Pairwise (· < ·)
  own : ∀ group ∈ groups,
    group.operations = ops.filter fun op => op.group.asStr? = some group.name
  inhabited : ∀ group ∈ groups, group.operations ≠ []
  once : (groups.flatMap operations).Perm ops
  imports_increasing : ∀ group ∈ groups, group.imports.Pairwise (· < ·)
  imports_union : ∀ group ∈ groups, ∀ s, s ∈ group.imports ↔
    ∃ op ∈ group.operations, s ∈ op.imports

/-- An item that is put in front of one of several lists is in front of all of them together. -/
theorem flatMap_cons_perm {α : Type} {names : List String} (hn : names.Nodup) {name : String}
    (hm : name ∈ names) (x : α) (lists : String → List α) :
    (names.flatMap fun n => if n = name then x :: lists n else lists n).Perm
      (x :: names.flatMap lists) := by
  induction names with
  | nil => cases hm
  | cons first rest ih =>
      obtain ⟨hfirst, hrest⟩ := List.nodup_cons.mp hn
      rw [List.flatMap_cons, List.flatMap_cons]
      by_cases heq : first = name
      · subst heq
        have hothers : (rest.flatMap fun n => if n = first then x :: lists n else lists n)
            = rest.flatMap lists :=
          List.flatMap_congr fun n hin => if_neg (ne_of_mem_of_not_mem hin hfirst)
        rw [if_pos rfl, hothers]
        exact .refl _
      · have hin : name ∈ rest := (List.mem_cons.mp hm).resolve_left (Ne.symm heq)
        rw [if_neg heq]
        exact ((ih hrest hin).append_left _).trans List.perm_middle

/-- Selecting operations by each of the different names that they have selects each of them once. -/
theorem flatMap_filter_perm {names : List String} (hn : names.Nodup) {ops : List Operation}
    (h : ∀ op ∈ ops, ∃ name ∈ names, op.group.asStr? = some name) :
    (names.flatMap fun name => ops.filter fun op => op.group.asStr? = some name).Perm ops := by
  induction ops with
  | nil => simp
  | cons op rest ih =>
      rw [List.forall_mem_cons] at h
      obtain ⟨name, hm, hname⟩ := h.1
      have hstep : (fun n => (op :: rest).filter fun op => op.group.asStr? = some n)
          = fun n => if n = name then op :: rest.filter (fun op => op.group.asStr? = some n)
            else rest.filter fun op => op.group.asStr? = some n := by
        funext n
        rw [List.filter_cons, hname]
        by_cases hn : n = name
        · simp [hn]
        · simp [hn, Ne.symm hn]
      rw [hstep]
      exact (flatMap_cons_perm hn hm op _).trans ((ih h.2).cons op)

theorem ofOperations_partition {ops : List Operation} {groups : List OperationGroup}
    (h : ofOperations ops = .ok groups) : Partition ops groups := by
  unfold ofOperations at h
  split at h
  next hall =>
    cases h
    have hincreasing := Target.pairwise_lt_sortedSet (ops.filterMap (·.group.asStr?))
    have hdistinct : (Target.sortedSet (ops.filterMap (·.group.asStr?))).Nodup :=
      hincreasing.imp fun hlt => String.ne_of_lt hlt
    have hnamed : ∀ op ∈ ops, ∃ name ∈ Target.sortedSet (ops.filterMap (·.group.asStr?)),
        op.group.asStr? = some name := by
      intro op hop
      obtain ⟨name, hname⟩ := Option.isSome_iff_exists.mp (List.all_eq_true.mp hall op hop)
      exact ⟨name, Target.mem_sortedSet.mpr (List.mem_filterMap.mpr ⟨op, hop, hname⟩), hname⟩
    refine ⟨?_, ?_, ?_, ?_, ?_, ?_⟩
    · rw [List.map_map]
      exact (List.map_id _).symm ▸ hincreasing
    · simp only [List.forall_mem_map, implies_true]
    · rw [List.forall_mem_map]
      intro name hname
      obtain ⟨op, hop, hgroup⟩ := List.mem_filterMap.mp (Target.mem_sortedSet.mp hname)
      exact List.ne_nil_of_mem (List.mem_filter.mpr ⟨hop, by simpa using hgroup⟩)
    · rw [List.flatMap_map]
      exact flatMap_filter_perm hdistinct hnamed
    · rw [List.forall_mem_map]
      exact fun name _ => Target.pairwise_lt_sortedSet _
    · rw [List.forall_mem_map]
      intro name _ s
      rw [Target.mem_sortedSet, List.mem_flatMap]
  · cases h

/-- An operation is in a group if it has its key. -/
theorem Partition.mem_operations {ops : List Operation} {groups : List OperationGroup}
    (h : Partition ops groups) {group : OperationGroup} (hg : group ∈ groups) {op : Operation} :
    op ∈ group.operations ↔ op ∈ ops ∧ op.group = .str group.name := by
  rw [h.own group hg, List.mem_filter, decide_eq_true_eq]
  refine and_congr_right fun _ => ⟨Value.eq_str_of_asStr?, fun hgroup => ?_⟩
  rw [hgroup]
  rfl

/-- What templates see of a group has no lone halves, nor have its operations and imports. -/
structure IsWhole (group : OperationGroup) : Prop where
  datum : group.datum.isWhole = true
  operations : ∀ op ∈ group.operations, op.datum.isWhole = true
  imports : ∀ s ∈ group.imports, Text.isWhole s = true

theorem isWhole_ofOperations {ops : List Operation} {groups : List OperationGroup}
    (hops : ∀ op ∈ ops, op.IsWhole) (h : ofOperations ops = .ok groups) :
    ∀ group ∈ groups, group.IsWhole := by
  intro group hg
  obtain ⟨⟨op, hop, hname⟩, hclass, hsub, hfrom⟩ := ofOperations_ok h group hg
  have hoperations : ∀ op ∈ group.operations, op.datum.isWhole = true :=
    fun op hop => (hops op (hsub hop)).datum
  have himports : ∀ s ∈ group.imports, Text.isWhole s = true := by
    intro s hs
    obtain ⟨op, hop, hs⟩ := hfrom s hs
    exact (hops op hop).imports s hs
  refine ⟨?_, hoperations, himports⟩
  refine Datum.isWhole_recordOf (by decide) (by simp only [List.map]; decide) ?_ ?_
  · simp only [List.map, List.forall_mem_cons, List.not_mem_nil, false_implies, implies_true,
      Datum.isWhole_str, Datum.isWhole_tuple, List.forall_mem_map, and_true]
    exact ⟨Value.isWhole_of_asStr? (hops op hop).group hname,
      hclass ▸ Target.isWhole_apiName _, hoperations, Datum.isWhole_strs himports⟩
  · simp

end OperationGroup

end ApiScaffold
