import ApiScaffold.Proofs.Document.Rearranged
import ApiScaffold.Proofs.Generator.Preprocess
import ApiScaffold.Proofs.Schema.Alike

/-!
# Documents in another order

A document with its parts, its paths, the operations of its paths, its components and its component
schemas in another order (`Spec.Rearranged`). References lead in it to mappings that read alike, its
normal form is that of the other in another order (`rearranged_normalized`), and it has the same
schemas and operations in order of their names and paths (`Rearranged.slots`).

One kind of reference is an exception: a reference to the paths as a whole, where a path is called
like something that is read by a keyword. `LeavesPaths` excludes just that, and
`matches_of_leavesPaths` shows that all other references read alike in both documents.
-/

namespace ApiScaffold

open Attempt

/-! ## Values that are read alike -/

namespace Value

/-- The same value, or mappings that read alike. -/
inductive ReadSame : Value → Value → Prop
  | same (v : Value) : ReadSame v v
  | map {s t : Members} (h : Members.ReadSame s t) : ReadSame (.map s) (.map t)

variable {below : Value → Value → Value → Prop} {v w : Value}

/-- Reordered values are read alike if they have the same under all keywords. -/
theorem Reordered.readSame (h : v.Reordered below w) (hv : v.isTextual = true)
    (hk : ∀ key ∈ Spec.keywords, ∀ x y, v.get? key = some x → below (.str key) x y → x = y) :
    v.ReadSame w := by
  cases h with
  | same => exact .same _
  | @map s t h =>
      refine .map fun key hkey => ?_
      have hget := h.get? (hasNames_of_textual hv) key
      have hsame := hk key hkey
      rw [Value.get?] at hsame
      generalize Members.get? s key = x at hget hsame ⊢
      generalize Members.get? t key = y at hget ⊢
      cases hget with
      | none => rfl
      | some hxy => rw [hsame _ _ rfl hxy]

theorem Shuffled.follow (h : v.Shuffled w) (hv : v.isTextual = true) (keys : List String) :
    Option.Rel ReadSame (Pointer.follow v keys) (Pointer.follow w keys) := by
  cases keys with
  | nil => exact .some (h.readSame hv fun _ _ _ _ _ hxy => hxy)
  | cons key rest =>
      refine h.follow_cons hv (fun _ _ => rfl) fun x y _ hxy => ?_
      rw [hxy]
      exact rel_self .same _

/-- Reordered mappings have the same keys when their members are sorted. -/
theorem Reordered.sortedEntries (h : v.Reordered below w) (hv : v.isTextual = true)
    (hb : ∀ key x, below key x x) :
    Agree (fun x y => (∃ members, v = .map members ∧ x.Perm members) ∧ Members.Alongside below x y)
      (do require (← v.entries).sorted?) (do require (← w.entries).sorted?) := by
  have hmap : ∀ {s t : Members}, Members.Rearranged below s t → s.HasNames →
      Agree (fun x y => (∃ members, Value.map s = .map members ∧ x.Perm members)
          ∧ Members.Alongside below x y)
        (require s.sorted?) (require t.sorted?) := by
    intro s t h hs
    obtain ⟨x, y, hx, hy, hp, hf⟩ := h.sorted hs
    rw [hx, hy]
    exact .ok ⟨⟨s, rfl, hp⟩, hf⟩
  cases h with
  | map h => exact hmap h (hasNames_of_textual hv)
  | same =>
      cases v with
      | map s => exact hmap (.of_perm hb (.refl s)) (hasNames_of_textual hv)
      | _ => exact .error _

theorem isTextual_of_getValue? {key : String} (hv : v.isTextual = true) (h : v.get? key = some w) :
    w.isTextual = true := by
  cases v with
  | map members => exact isTextual_of_get? hv h
  | _ => cases h

end Value

namespace Spec

theorem resolveIn_agree {document other : Value} {reference : String}
    (h : ∀ body, Pointer.body? reference = some body → Option.Rel Value.ReadSame
      (Pointer.follow document (Pointer.keys body)) (Pointer.follow other (Pointer.keys body))) :
    Agree Members.ReadSame (resolveIn document reference) (resolveIn other reference) := by
  unfold resolveIn
  cases hb : Pointer.body? reference with
  | none => exact .error _
  | some body =>
      have hfollow := h body hb
      dsimp only
      generalize Pointer.follow document (Pointer.keys body) = x at hfollow ⊢
      generalize Pointer.follow other (Pointer.keys body) = y at hfollow ⊢
      cases hfollow with
      | none => exact .error _
      | @some v w hxy =>
          cases hxy with
          | map hsame => exact .ok hsame
          | same =>
              cases v with
              | map members => exact .ok fun _ _ => rfl
              | _ => exact .error _

/-! ## Documents in another order -/

/-- How a part of the components may differ: schemas may be in another order. -/
inductive ComponentsVary : Value → Value → Value → Prop
  | same (key v : Value) : ComponentsVary key v v
  | schemas {v w : Value} (h : v.Shuffled w) : ComponentsVary (.str "schemas") v w

theorem ComponentsVary.shuffled {key v w : Value} (h : ComponentsVary key v w) : v.Shuffled w := by
  cases h with
  | same => exact .same _
  | schemas h => exact h

/-- How a part of the document may differ: paths and the operations of a path may be in another
order, and so may components and their schemas. -/
inductive PartsVary : Value → Value → Value → Prop
  | same (key v : Value) : PartsVary key v v
  | paths {v w : Value} (h : v.Reordered (fun _ => Value.Shuffled) w) : PartsVary (.str "paths") v w
  | components {v w : Value} (h : v.Reordered ComponentsVary w) : PartsVary (.str "components") v w

theorem PartsVary.of_paths {v w : Value} (h : PartsVary (.str "paths") v w) :
    v.Reordered (fun _ => Value.Shuffled) w := by
  generalize hk : Value.str "paths" = key at h
  cases h with
  | same => exact .same _
  | paths h => exact h
  | components _ => simp at hk

theorem PartsVary.of_components {v w : Value} (h : PartsVary (.str "components") v w) :
    v.Reordered ComponentsVary w := by
  generalize hk : Value.str "components" = key at h
  cases h with
  | same => exact .same _
  | paths _ => simp at hk
  | components h => exact h

/-- Two documents differ in the order of their parts, paths, operations, components and schemas at
most. -/
structure Rearranged (a b : Spec) : Prop where
  source : a.source = b.source
  members : Members.Rearranged PartsVary a.members b.members

/-- A reference points at the paths as one mapping. -/
def PointsAtPaths (reference : String) : Prop :=
  ∃ body, Pointer.body? reference = some body ∧ Pointer.keys body = ["paths"]

/-- The path items of a document, if it has any. -/
def pathItems (spec : Spec) : Members := Generator.mapAt spec.members "paths"

/-- A reference makes no path item something that is read by a keyword: it does not point at the
paths, or no path has the name of a keyword. -/
def LeavesPaths (paths : Members) (reference : String) : Prop :=
  PointsAtPaths reference → ∀ key ∈ keywords, Members.get? paths key = none

variable {P : String → Prop} {a b : Spec}

namespace Rearranged

theorem hasNames (ht : a.IsTextual) : a.members.HasNames := Value.hasNames_of_textual ht

theorem get? (h : a.Rearranged b) (ht : a.IsTextual) (key : String) :
    Option.Rel (PartsVary (.str key)) (Members.get? a.members key) (Members.get? b.members key) :=
  h.members.get? (hasNames ht) key

/-- Other parts than paths and components are the same. -/
theorem get?_eq (h : a.Rearranged b) (ht : a.IsTextual) {key : String} (hp : key ≠ "paths")
    (hc : key ≠ "components") : Members.get? a.members key = Members.get? b.members key := by
  have hget := h.get? ht key
  generalize Members.get? a.members key = x at hget ⊢
  generalize Members.get? b.members key = y at hget ⊢
  cases hget with
  | none => rfl
  | some hxy =>
      cases hxy with
      | same => rfl
      | paths _ => exact absurd rfl hp
      | components _ => exact absurd rfl hc

theorem nodeCount (h : a.Rearranged b) : a.document.nodeCount = b.document.nodeCount := by
  have hshuffled : ∀ {v w : Value}, v.Shuffled w → v.nodeCount = w.nodeCount :=
    fun h => h.nodeCount fun _ _ _ hxy => congrArg _ hxy
  refine h.members.nodeCount fun key v w hvw => ?_
  cases hvw with
  | same => rfl
  | paths hp => exact hp.nodeCount fun _ _ _ hxy => hshuffled hxy
  | components hc =>
      refine hc.nodeCount fun _ _ _ hxy => ?_
      cases hxy with
      | same => rfl
      | schemas hs => exact hshuffled hs

/-- Ways into both documents lead to values that are read alike. -/
theorem follow (h : a.Rearranged b) (ht : a.IsTextual) {keys : List String} (hne : keys ≠ [])
    (hp : keys = ["paths"] → ∀ key ∈ keywords, Members.get? a.pathItems key = none) :
    Option.Rel Value.ReadSame (Pointer.follow a.document keys) (Pointer.follow b.document keys) := by
  obtain ⟨key, rest, rfl⟩ := List.exists_cons_of_ne_nil hne
  refine (Value.Reordered.map h.members).follow_cons ht .same fun v w hv hvw => ?_
  have htv : v.isTextual = true := Value.isTextual_of_get? ht hv
  cases hvw with
  | same => exact rel_self .same _
  | paths hvw =>
      cases rest with
      | nil =>
          refine .some (hvw.readSame htv fun key hkey x y hx _ => ?_)
          have hnone := hp rfl key hkey
          cases v with
          | map items =>
              rw [pathItems, Generator.mapAt_of_get? hv] at hnone
              exact absurd (hnone.symm.trans hx) (by simp)
          | _ => cases hx
      | cons path rest =>
          exact hvw.follow_cons htv (fun _ => .same) fun item other hitem hio =>
            hio.follow (Value.isTextual_of_getValue? htv hitem) rest
  | components hvw =>
      cases rest with
      | nil =>
          refine .some (hvw.readSame htv fun key hkey x y _ hxy => ?_)
          cases hxy with
          | same => rfl
          | schemas _ => exact absurd hkey (by decide)
      | cons part rest =>
          refine hvw.follow_cons htv .same fun x y hx hxy => ?_
          cases hxy with
          | same => exact rel_self .same _
          | schemas hs => exact hs.follow (Value.isTextual_of_getValue? htv hx) rest

/-- References lead in both documents to mappings that read alike, unless one makes something of the
paths. -/
theorem matches_of_leavesPaths (h : a.Rearranged b) (ht : a.IsTextual)
    (hp : a.CitesOnly (LeavesPaths a.pathItems)) : a.Matches (LeavesPaths a.pathItems) b where
  cites := hp
  resolve := fun _ hr => resolveIn_agree fun body hb =>
    h.follow ht (Generator.keys_ne_nil body) fun hkeys => hr ⟨body, hb, hkeys⟩
  size := h.nodeCount

end Rearranged

end Spec

/-! ## Normal forms -/

namespace Generator

variable {P : String → Prop} {a b : Spec} {x y : Members}

theorem isTextual_normalized (h : a.IsTextual) (t : Target) : (normalized t a).IsTextual := by
  refine normalized_closed (Q := fun v => v.isTextual = true) rfl rfl Value.isTextual_of_get?
    (fun _ hm hv => ?_) h t
  refine Value.isTextual_map ((Value.hasNames_of_textual hm).insert _ _) fun m hin => ?_
  rcases Members.mem_insert hin with hin | rfl
  · exact Value.isTextual_of_mem hm hin
  · exact hv

theorem citesOnly_normalized (h : a.CitesOnly P) (t : Target) : (normalized t a).CitesOnly P := by
  have hserver : Value.CitesOnly P (.map (Members.insert [] (.str "url") (.str "/"))) :=
    Value.citesOnly_emptyMap.insert (by decide) (Value.citesOnly_str _)
  exact normalized_closed Value.citesOnly_emptyMap
    (Value.citesOnly_list fun v hv => List.mem_singleton.mp hv ▸ hserver)
    (fun hm hg => hm.get? hg) (fun hname hm hv => hm.insert hname hv) h t

theorem pathItems_normalized (t : Target) : (normalized t a).pathItems = a.pathItems := by
  simp only [Spec.pathItems, mapAt, normalized,
    get?_normalize_of_ne (show "paths" ≠ "components" by decide) (by decide)]

theorem mapAt_rearranged {below : Value → Value → Value → Prop} (hb : ∀ key v, below key v v)
    {key : String} (h : Option.Rel (Value.Reordered below) (Members.get? x key)
      (Members.get? y key)) : Members.Rearranged below (mapAt x key) (mapAt y key) := by
  unfold mapAt
  generalize Members.get? x key = v at h ⊢
  generalize Members.get? y key = w at h ⊢
  cases h with
  | none => exact .of_perm hb (.refl _)
  | some hvw =>
      cases hvw with
      | same => exact .of_perm hb (.refl _)
      | map h => exact h

theorem withMapping_rearranged (hx : x.HasNames) (h : Members.Rearranged Spec.ComponentsVary x y) :
    Members.Rearranged Spec.ComponentsVary (withMapping x) (withMapping y) := by
  have hget := h.get? hx "schemas"
  have hinsert := h.insert hx (Spec.ComponentsVary.same (.str "schemas") .emptyMap)
  unfold withMapping
  generalize Members.get? x "schemas" = v at hget ⊢
  generalize Members.get? y "schemas" = w at hget ⊢
  cases hget with
  | none => exact hinsert
  | some hvw =>
      cases hvw.shuffled with
      | map _ => exact h
      | same =>
          split
          · exact h
          · exact hinsert

/-- The components of documents in another order are in another order. -/
theorem components_rearranged (ht : a.IsTextual) (h : a.Rearranged b) :
    Members.Rearranged Spec.ComponentsVary (mapAt a.members "components")
      (mapAt b.members "components") := by
  refine mapAt_rearranged .same ?_
  have hget := h.get? ht "components"
  generalize Members.get? a.members "components" = v at hget ⊢
  generalize Members.get? b.members "components" = w at hget ⊢
  cases hget with
  | none => exact .none
  | some hvw => exact .some hvw.of_components

/-- The component schemas of documents in another order are in another order. -/
theorem componentSchemas_rearranged (ht : a.IsTextual) (h : a.Rearranged b) :
    Members.Rearranged (fun _ v w => v = w) a.componentSchemas b.componentSchemas := by
  refine mapAt_rearranged (fun _ _ => rfl) ?_
  have hget := (components_rearranged ht h).get?
    (Value.hasNames_of_textual (isTextual_mapAt ht _)) "schemas"
  generalize Members.get? (mapAt a.members "components") "schemas" = v at hget ⊢
  generalize Members.get? (mapAt b.members "components") "schemas" = w at hget ⊢
  cases hget with
  | none => exact .none
  | some hvw => exact .some hvw.shuffled

/-- Documents in another order have normal forms in another order. -/
theorem rearranged_normalized (ht : a.IsTextual) (h : a.Rearranged b) (t : Target) :
    (normalized t a).Rearranged (normalized t b) := by
  refine ⟨h.source, ?_⟩
  have hcomponents : Members.Rearranged Spec.ComponentsVary (components a.members)
      (components b.members) :=
    withMapping_rearranged (Value.hasNames_of_textual (isTextual_mapAt ht _))
      (components_rearranged ht h)
  have hschemas : Members.Rearranged Spec.PartsVary (withSchemas a.members)
      (withSchemas b.members) :=
    h.members.insert (Spec.Rearranged.hasNames ht) (.components (.map hcomponents))
  have hnames : (withSchemas a.members).HasNames := (Spec.Rearranged.hasNames ht).insert _ _
  have hservers : Members.getD (withSchemas a.members) "servers" .null
      = Members.getD (withSchemas b.members) "servers" .null := by
    have hsame := h.get?_eq ht (show "servers" ≠ "paths" by decide) (by decide)
    simp only [Members.getD, withSchemas, Members.get?_insert]
    rw [if_neg (by decide), if_neg (by decide), hsame]
  show Members.Rearranged Spec.PartsVary (normalize t a.members) (normalize t b.members)
  unfold normalize withServer
  rw [← hservers]
  split
  · split
    · exact hschemas
    · exact hschemas.insert hnames (.same _ _)
  · exact hschemas

end Generator

/-! ## Operations -/

namespace Spec

variable {P : String → Prop} {a b : Spec}

/-- Two slots hold one operation, in path items that have the same under all keys. -/
structure Slot.Alike (P : String → Prop) (slot other : Slot) : Prop where
  path : slot.path = other.path
  method : slot.method = other.method
  operation : slot.operation = other.operation
  same_item : ∀ key, Members.get? slot.pathItem key = Members.get? other.pathItem key
  cites_operation : slot.operation.CitesOnly P
  cites_item : (Value.map slot.pathItem).CitesOnly P

theorem slotsOf_alike {item other : Members}
    (hsame : ∀ key, Members.get? item key = Members.get? other key)
    (hc : (Value.map item).CitesOnly P) (path : Value) :
    List.Forall₂ (Slot.Alike P) (slotsOf path item) (slotsOf path other) := by
  have hother : slotsOf path other
      = (slotsOf path item).map fun slot => { slot with pathItem := other } := by
    simp [slotsOf, List.map_filterMap, hsame, Function.comp_def]
  rw [hother]
  refine List.forall₂_map_right_iff.mpr (List.forall₂_same.mpr fun slot hslot => ?_)
  obtain ⟨-, rfl, -, ho⟩ := mem_slotsOf.mp hslot
  exact ⟨rfl, rfl, rfl, hsame, hc.get? ho, hc⟩

/-- Path items that stand under the same paths, with their operations in any order, have the same
operations up to the first that is no mapping. -/
theorem slotsUntil_alike {x y : Members}
    (h : Members.Alongside (fun _ => Value.Shuffled) x y)
    (ht : ∀ m ∈ x, m.2.isTextual = true) (hc : ∀ m ∈ x, m.2.CitesOnly P) :
    List.Forall₂ (Slot.Alike P) (slotsUntil x).1 (slotsUntil y).1
      ∧ (slotsUntil x).2 = (slotsUntil y).2 := by
  induction h with
  | nil => exact ⟨.nil, rfl⟩
  | @cons m n _ _ hmn _ ih =>
      obtain ⟨path, item⟩ := m
      obtain ⟨_, other⟩ := n
      obtain ⟨rfl, hitem⟩ := hmn
      rw [List.forall_mem_cons] at ht hc
      obtain ⟨hslots, hstop⟩ := ih ht.2 hc.2
      dsimp only at hitem ht hc
      cases hitem with
      | map hitem =>
          have hsame := (Value.hasNames_of_textual ht.1).get?_perm hitem.perm
          exact ⟨List.rel_append (slotsOf_alike hsame hc.1 path) hslots, hstop⟩
      | same =>
          cases item with
          | map members =>
              exact ⟨List.rel_append (slotsOf_alike (fun _ => rfl) hc.1 path) hslots, hstop⟩
          | _ => exact ⟨.nil, rfl⟩

/-- The paths of documents in another order are in another order. -/
theorem Rearranged.paths (h : a.Rearranged b) (ht : a.IsTextual) :
    a.paths.Reordered (fun _ => Value.Shuffled) b.paths := by
  have hget := h.get? ht "paths"
  unfold Spec.paths Members.getD
  generalize Members.get? a.members "paths" = v at hget ⊢
  generalize Members.get? b.members "paths" = w at hget ⊢
  cases hget with
  | none => exact .same _
  | some hvw =>
      cases hvw.of_paths with
      | same => exact .same _
      | map h =>
          rw [Option.getD_some, Option.getD_some, Value.orElse_map, Value.orElse_map]
          exact .map h

theorem CitesOnly.paths (h : a.CitesOnly P) : a.paths.CitesOnly P :=
  (Value.CitesOnly.getD h "paths").orElse Value.citesOnly_emptyMap

/-- Documents in another order have the same operations, in one order. -/
theorem Rearranged.slots (h : a.Rearranged b) (ht : a.IsTextual) (hc : a.CitesOnly P) :
    List.Forall₂ (Slot.Alike P) a.slots.1 b.slots.1 ∧ a.slots.2 = b.slots.2 := by
  have hpaths := h.paths ht
  have htp := ht.paths
  have hcp := hc.paths
  unfold Spec.slots
  generalize a.paths = v at hpaths htp hcp ⊢
  generalize b.paths = w at hpaths ⊢
  have hsorted := hpaths.sortedEntries htp fun _ => .same
  generalize (do require (← v.entries).sorted? : Attempt Members) = x at hsorted ⊢
  generalize (do require (← w.entries).sorted? : Attempt Members) = y at hsorted ⊢
  cases hsorted with
  | error failure => exact ⟨.nil, rfl⟩
  | ok hxy =>
      obtain ⟨⟨members, rfl, hperm⟩, halong⟩ := hxy
      exact slotsUntil_alike halong
        (fun m hm => Value.isTextual_of_mem htp (hperm.mem_iff.mp hm))
        fun m hm => (hcp.of_map (hperm.mem_iff.mp hm)).2

end Spec

end ApiScaffold
