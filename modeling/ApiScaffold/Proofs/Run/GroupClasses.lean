import ApiScaffold.Proofs.Naming.Words
import ApiScaffold.Proofs.Run.Coverage
import ApiScaffold.Proofs.Run.Endpoints
import ApiScaffold.Proofs.Run.Stages

/-!
# The classes of groups

Whatever the tags and the path of an operation, it is in one group, and the class of that is made of
letters and digits. It starts with the first letter or digit of the group, which nothing keeps from
being a digit.

* `isGrouped_of_slot`: the group of an operation is its first tag, else what follows from its path.
* `head_apiName`: the class of a group starts with the first letter or digit of the group, as a
  capital.
* `groupClass_isClassName_iff`: every operation of a run is in one group, whose class is a word; it
  is a class name exactly if the first letter or digit of the group is no digit.
-/

namespace ApiScaffold

namespace Naming

/-- The first letter or digit of a name. -/
def initial? (name : String) : Option Char := name.toList.find? isWordChar

theorem initial?_sanitize (name : String) : initial? (sanitize name) = initial? name := by
  rw [initial?, ← head_words, words_sanitize, head_words, initial?]

/-- A word that starts with no digit. -/
structure IsClassName (name : String) : Prop extends IsWord name where
  starts : ∀ c, name.toList.head? = some c → c.isDigit = false

end Naming

namespace Target

open Naming

/-- The class of a group starts with the first letter or digit of the group, as a capital. -/
theorem head_apiName (group : String) :
    (apiName group).toList.head? = some (((initial? group).map Char.toUpper).getD 'D') := by
  have hhead : (pascalCase (sanitize group)).toList.head? = (initial? group).map Char.toUpper := by
    rw [pascalCase, String.toList_ofList, head_pascalChars, ← initial?, initial?_sanitize]
  rw [apiName, orDefault, String.toList_append, List.head?_append, ← hhead]
  split
  next hempty =>
    rw [hempty]
    rfl
  next hne =>
    obtain ⟨c, rest, hcons⟩ := List.exists_cons_of_ne_nil (mt String.toList_eq_nil_iff.mp hne)
    rw [hcons]
    rfl

/-- The class of a group is a class name unless the first letter or digit of the group is a digit.
-/
theorem isClassName_apiName {group : String} :
    IsClassName (apiName group) ↔ ∀ c, initial? group = some c → c.isDigit = false := by
  have hstarts : IsClassName (apiName group)
      ↔ (((initial? group).map Char.toUpper).getD 'D').isDigit = false := by
    refine ⟨fun h => h.starts _ (head_apiName group), fun h => ⟨isWord_apiName group, ?_⟩⟩
    intro c hc
    rw [head_apiName, Option.some.injEq] at hc
    rwa [← hc]
  rw [hstarts]
  cases hinitial : initial? group with
  | none => exact ⟨fun _ _ => nofun, fun _ => by decide⟩
  | some c =>
      have hascii : c.toNat < 128 := toNat_lt_of_isWordChar (List.find?_some hinitial)
      simp only [Option.map_some, Option.getD_some, Text.isDigit_toUpper_of_ascii hascii,
        Option.some.injEq, forall_eq']

end Target

namespace Operation

variable {g : Generator} {spec : Spec} {op : Operation} {ops named : List Operation}

/-- The group of an operation is its first tag, else what follows from its path. -/
def IsGrouped (op : Operation) : Prop := groupOf op.path op.tags = .ok op.group

theorem isGrouped_of_slot {path operation pathItem : Value} {method : String}
    (h : ofSlot g spec path method operation pathItem = .ok op) : op.IsGrouped := by
  obtain ⟨_, _, _, _, _, _, _, -, -, hp⟩ := ofSlot_ok h
  have hpath : op.path = path := by rw [hp.assembled]
  rw [IsGrouped, hpath]
  exact hp.grouped

theorem Renamed.isGrouped {other : Operation} (h : Renamed op other) (hop : op.IsGrouped) :
    other.IsGrouped := by
  unfold Renamed at h
  rw [h]
  exact hop

theorem isGrouped_of_distinguishAll (hops : ∀ op ∈ ops, op.IsGrouped)
    (h : distinguishAll ops = .ok named) : ∀ op ∈ named, op.IsGrouped := by
  intro op hop
  obtain ⟨built, hbuilt, hrenamed⟩ := Attempt.exists_of_forall₂ (distinguishAll_renamed h) hop
  exact hrenamed.isGrouped (hops built hbuilt)

end Operation

namespace OperationGroup

variable {ops : List Operation} {groups : List OperationGroup} {op : Operation}

/-- Each of the operations is in the group with its key, and in no other. -/
theorem existsUnique_of_ofOperations (h : ofOperations ops = .ok groups) (hop : op ∈ ops) :
    ∃ group ∈ groups, op ∈ group.operations ∧ op.group = .str group.name
      ∧ ∀ other ∈ groups, op ∈ other.operations → other = group := by
  have hpart := ofOperations_partition h
  have hmem : op ∈ groups.flatMap operations := hpart.once.mem_iff.mpr hop
  have hnames : (groups.map name).Nodup := hpart.increasing.imp fun hlt => String.ne_of_lt hlt
  obtain ⟨group, hg, hin⟩ := List.mem_flatMap.mp hmem
  obtain ⟨-, hkey⟩ := (hpart.mem_operations hg).mp hin
  refine ⟨group, hg, hin, hkey, fun other ho hother => ?_⟩
  obtain ⟨-, hsame⟩ := (hpart.mem_operations ho).mp hother
  exact List.inj_on_of_nodup_map hnames ho hg (Value.str.inj (hsame.symm.trans hkey))

end OperationGroup

namespace Draft

open Naming

variable {g : Generator} {spec : Spec} {material : Material} {failures : List Failure}

/-- Every operation of a run is in one group. The class of that is a word, named by the first tag of
the operation or by its path, and it is a class name unless the first letter or digit of that is a
digit. -/
theorem groupClass_isClassName_iff (h : (gather g spec).result = .ok (material, failures)) :
    ∀ op ∈ material.operations, ∃ group ∈ material.groups,
      (op ∈ group.operations ∧ ∀ other ∈ material.groups, op ∈ other.operations → other = group)
      ∧ Operation.groupOf op.path op.tags = .ok (.str group.name)
      ∧ group.className = Target.apiName group.name
      ∧ IsWord group.className
      ∧ (IsClassName group.className ↔ ∀ c, initial? group.name = some c → c.isDigit = false) := by
  obtain ⟨_, endpoints, -, hall, hdistinct, hgroups, -, -, -⟩ := gather_ok h
  have hbuilt : ∀ op ∈ endpoints.filterMap Endpoint.operation?, op.IsGrouped := by
    intro op hop
    obtain ⟨slot, -, hok⟩ := Endpoint.exists_of_mem_operations hall hop
    exact Operation.isGrouped_of_slot hok
  intro op hop
  obtain ⟨group, hg, hin, hname, hunique⟩ :=
    OperationGroup.existsUnique_of_ofOperations hgroups hop
  obtain ⟨-, hclass, -, -⟩ := OperationGroup.ofOperations_ok hgroups group hg
  refine ⟨group, hg, ⟨hin, hunique⟩, ?_, hclass, ?_, ?_⟩
  · rw [← hname]
    exact Operation.isGrouped_of_distinguishAll hbuilt hdistinct op hop
  · rw [hclass]
    exact Target.isWord_apiName _
  · rw [hclass]
    exact Target.isClassName_apiName

/-- An operation that has tags. -/
def taggedOperation (tags : List String) : Value := .map [(.str "tags", .list (tags.map .str))]

/-- The operations of a run over one path in brief, and the classes of the groups. -/
def classesAt (path : String) (item : Members) : Option (List String × List (String × String)) :=
  (gather (.ofTarget .jaxrsSpec []) (.ofItem path item [])).result.toOption.map fun gathered =>
    (gathered.1.operations.map Operation.nickname,
      gathered.1.groups.map fun group => (group.name, group.className))

/-- A tag of two words goes before a path that starts with a digit. -/
theorem groupClass_isClassName_iff_store : ∃ material failures,
    (gather (.ofTarget .jaxrsSpec []) (.ofItem "/2fa/{id}"
        [(.str "get", taggedOperation ["pet-store"])] [])).result = .ok (material, failures)
    ∧ material.operations.map Operation.nickname = ["get2faById"]
    ∧ material.groups.map OperationGroup.className = ["PetStoreApi"]
    ∧ ∀ op ∈ material.operations, ∃ group ∈ material.groups, op ∈ group.operations
      ∧ Operation.groupOf op.path op.tags = .ok (.str group.name) ∧ IsClassName group.className := by
  have hbrief : classesAt "/2fa/{id}" [(.str "get", taggedOperation ["pet-store"])]
      = some (["get2faById"], [("pet-store", "PetStoreApi")]) := by
    decide +kernel
  obtain ⟨⟨material, failures⟩, hgather, hb⟩ := Attempt.exists_of_toOption_map hbrief
  obtain ⟨hnicknames, hgroups⟩ := Prod.mk.inj hb
  have hclasses := congrArg (List.map Prod.snd) hgroups
  have hnames : ∀ group ∈ material.groups, group.name = "pet-store" := by
    intro group hg
    have hin := List.mem_map_of_mem (f := fun group => (group.name, group.className)) hg
    rw [hgroups, List.mem_singleton] at hin
    exact congrArg Prod.fst hin
  rw [List.map_map] at hclasses
  refine ⟨material, failures, hgather, hnicknames, hclasses, fun op hop => ?_⟩
  obtain ⟨group, hg, ⟨hin, -⟩, hkey, -, -, hiff⟩ := groupClass_isClassName_iff hgather op hop
  refine ⟨group, hg, hin, hkey, hiff.mpr fun c hc => ?_⟩
  have hinitial : initial? "pet-store" = some 'p' := by decide
  rw [hnames group hg, hinitial, Option.some.injEq] at hc
  subst hc
  decide

/-- The group of an operation whose path starts with a digit has a class that starts with it. -/
theorem groupClass_starts_with_digit : ∃ material failures op group,
    (gather (.ofTarget .jaxrsSpec []) (.ofItem "/2fa/{id}"
        [(.str "get", taggedOperation [])] [])).result = .ok (material, failures)
    ∧ material.operations = [op] ∧ material.groups = [group] ∧ op ∈ group.operations
    ∧ group.className = "2faApi" ∧ ¬IsClassName group.className := by
  have hbrief : classesAt "/2fa/{id}" [(.str "get", taggedOperation [])]
      = some (["get2faById"], [("2fa", "2faApi")]) := by
    decide +kernel
  obtain ⟨⟨material, failures⟩, hgather, hb⟩ := Attempt.exists_of_toOption_map hbrief
  obtain ⟨hnicknames, hclasses⟩ := Prod.mk.inj hb
  obtain ⟨op, hop, -⟩ := List.map_eq_singleton_iff.mp hnicknames
  obtain ⟨group, hg, hclass⟩ := List.map_eq_singleton_iff.mp hclasses
  have hnamed : group.className = "2faApi" := congrArg Prod.snd hclass
  obtain ⟨_, _, -, -, -, hof, -, -, -⟩ := gather_ok hgather
  obtain ⟨found, hfound, hin, -⟩ := OperationGroup.existsUnique_of_ofOperations hof
    (hop ▸ List.mem_singleton_self op)
  rw [hg, List.mem_singleton] at hfound
  subst hfound
  refine ⟨material, failures, op, found, hgather, hop, hg, hin, hnamed, fun h => ?_⟩
  have hdigit := h.starts '2' (by rw [hnamed]; decide)
  revert hdigit
  decide

end Draft

end ApiScaffold
