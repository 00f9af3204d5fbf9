import ApiScaffold.Proofs.Document.Rearranged
import ApiScaffold.Proofs.Model.Flatten
import ApiScaffold.Proofs.Schema.Resolve

/-!
# The references in a value

All references that stand anywhere in a value (`Cites`), also where no walk comes to them, and
properties that all of them have (`CitesOnly`). Parts of a value have no other references than the
value, and what references point at in a document has no others than the document.

In a proper value no key is a mapping, so there the references are those that a walk comes to
(`Cites.nests`), unless they stand in a pair. That is how what the acceptance of a document has
checked becomes a property of all its references.
-/

namespace ApiScaffold

namespace Value

/-- A value stands somewhere in another. -/
inductive Holds : Value → Value → Prop
  | refl (v : Value) : Holds v v
  | key {members : Members} {m : Value × Value} {w : Value} (hm : m ∈ members) (h : Holds m.1 w) :
      Holds (.map members) w
  | value {members : Members} {m : Value × Value} {w : Value} (hm : m ∈ members)
      (h : Holds m.2 w) : Holds (.map members) w
  | item {items : List Value} {v w : Value} (hm : v ∈ items) (h : Holds v w) : Holds (.list items) w
  | element {elements : List Value} {v w : Value} (hm : v ∈ elements) (h : Holds v w) :
      Holds (.set elements) w

/-- A reference stands somewhere in a value. -/
def Cites (v : Value) (reference : String) : Prop :=
  ∃ members, v.Holds (.map members) ∧ Members.get? members "$ref" = some (.str reference)

/-- All references in a value have a property. -/
def CitesOnly (P : String → Prop) (v : Value) : Prop := ∀ reference, v.Cites reference → P reference

variable {P : String → Prop}

/-- A value without parts has no references. -/
theorem citesOnly_of_leaf {v : Value} (h : ∀ w, v.Holds w → w = v) (hv : ∀ members, v ≠ .map members) :
    v.CitesOnly P := by
  rintro reference ⟨members, hm, -⟩
  exact absurd (h _ hm).symm (hv members)

theorem citesOnly_null : CitesOnly P .null :=
  citesOnly_of_leaf (fun _ h => by cases h; rfl) (by simp)

theorem citesOnly_str (s : String) : CitesOnly P (.str s) :=
  citesOnly_of_leaf (fun _ h => by cases h; rfl) (by simp)

theorem citesOnly_int (n : Int) : CitesOnly P (.int n) :=
  citesOnly_of_leaf (fun _ h => by cases h; rfl) (by simp)

theorem citesOnly_emptyMap : CitesOnly P .emptyMap := by
  rintro reference ⟨members, hm, href⟩
  cases hm with
  | refl => cases href
  | key hin _ => cases hin
  | value hin _ => cases hin

/-- A mapping has the references of its keys and values, and its own. -/
theorem citesOnly_map {members : Members}
    (hself : ∀ reference, Members.get? members "$ref" = some (.str reference) → P reference)
    (hparts : ∀ m ∈ members, m.1.CitesOnly P ∧ m.2.CitesOnly P) : CitesOnly P (.map members) := by
  rintro reference ⟨found, hf, href⟩
  cases hf with
  | refl => exact hself reference href
  | key hin h => exact (hparts _ hin).1 reference ⟨found, h, href⟩
  | value hin h => exact (hparts _ hin).2 reference ⟨found, h, href⟩

theorem citesOnly_list {items : List Value} (h : ∀ v ∈ items, v.CitesOnly P) :
    CitesOnly P (.list items) := by
  rintro reference ⟨found, hf, href⟩
  cases hf with
  | item hm hf => exact h _ hm reference ⟨found, hf, href⟩

namespace CitesOnly

variable {members : Members} {items : List Value} {v : Value}

theorem of_map (h : CitesOnly P (.map members)) {m : Value × Value} (hm : m ∈ members) :
    m.1.CitesOnly P ∧ m.2.CitesOnly P :=
  ⟨fun reference ⟨found, hf, href⟩ => h reference ⟨found, .key hm hf, href⟩,
    fun reference ⟨found, hf, href⟩ => h reference ⟨found, .value hm hf, href⟩⟩

theorem reference (h : CitesOnly P (.map members)) {r : String}
    (hr : Members.get? members "$ref" = some (.str r)) : P r := h r ⟨members, .refl _, hr⟩

theorem get? (h : CitesOnly P (.map members)) {key : String}
    (hv : Members.get? members key = some v) : v.CitesOnly P :=
  (h.of_map (Members.mem_of_get? hv)).2

theorem getD (h : CitesOnly P (.map members)) (key : String) :
    (Members.getD members key .null).CitesOnly P := by
  rw [Members.getD]
  cases hv : Members.get? members key with
  | none => exact citesOnly_null
  | some v => exact h.get? hv

theorem of_list (h : CitesOnly P (.list items)) (hv : v ∈ items) : v.CitesOnly P :=
  fun reference ⟨found, hf, href⟩ => h reference ⟨found, .item hv hf, href⟩

/-- What is put in under another key than that of references adds its own references only. -/
theorem insert (h : CitesOnly P (.map members)) {name : String} (hname : name ≠ "$ref")
    (hv : v.CitesOnly P) : CitesOnly P (.map (Members.insert members (.str name) v)) := by
  refine citesOnly_map (fun r hr => ?_) fun m hm => ?_
  · rw [Members.get?_insert, if_neg hname.symm] at hr
    exact h.reference hr
  · rcases Members.mem_insert hm with hm | rfl
    · exact h.of_map hm
    · exact ⟨citesOnly_str name, hv⟩

/-- What iteration over a value yields has no other references than it. -/
theorem elements {vs : List Value} (h : v.CitesOnly P) (hv : v.elements? = some vs) :
    ∀ x ∈ vs, x.CitesOnly P := by
  intro x hx
  cases v with
  | str s =>
      cases hv
      obtain ⟨_, _, rfl⟩ := List.mem_map.mp hx
      exact citesOnly_str _
  | bytes bs =>
      cases hv
      obtain ⟨_, _, rfl⟩ := List.mem_map.mp hx
      exact citesOnly_int _
  | list items =>
      cases hv
      exact h.of_list hx
  | set elements =>
      cases hv
      exact fun reference ⟨found, hf, href⟩ => h reference ⟨found, .element hx hf, href⟩
  | map members =>
      cases hv
      obtain ⟨m, hm, rfl⟩ := List.mem_map.mp hx
      exact (h.of_map hm).1
  | _ => cases hv

theorem orElse {fallback : Value} (h : v.CitesOnly P) (hf : fallback.CitesOnly P) :
    (v.orElse fallback).CitesOnly P := by
  rw [Value.orElse]
  split
  · exact h
  · exact hf

/-- Members without a key have no references that they have not with it. -/
theorem erase {key : String} (hkey : "$ref" ≠ key) (h : CitesOnly P (.map members)) :
    CitesOnly P (.map (Members.erase members key)) := by
  refine citesOnly_map (fun reference href => ?_) fun m hm => h.of_map (List.mem_filter.mp hm).1
  rw [Members.get?_erase_of_ne hkey] at href
  exact h.reference href

theorem follow {found : Value} {keys : List String} (h : v.CitesOnly P)
    (hf : Pointer.follow v keys = some found) : found.CitesOnly P := by
  induction keys generalizing v with
  | nil =>
      cases hf
      exact h
  | cons key rest ih =>
      rw [Pointer.follow] at hf
      split at hf
      next next hn =>
        cases v with
        | map members => exact ih (CitesOnly.get? h hn) hf
        | _ => cases hn
      next => cases hf

end CitesOnly

/-! ## Proper values -/

/-- No key is a mapping, so the mappings that stand in a proper value are those that a walk comes
to. -/
theorem nests_of_holds {v w : Value} (h : v.Holds w) (hv : v.isProper = true)
    (hw : w.isKey = false) : v.Nests w := by
  induction h with
  | refl v => exact .refl v
  | @key members m w hm h ih =>
      obtain ⟨k, x⟩ := m
      have hkey := (membersProper_of_mem (by rwa [isProper] at hv) hm).1
      cases h with
      | refl => simp [hw] at hkey
      | _ => cases hkey
  | value hm _ ih => exact .value hm (ih (membersProper_of_mem (by rwa [isProper] at hv) hm).2 hw)
  | item hm _ ih => exact .item hm (ih (itemsProper_iff.mp (by rwa [isProper] at hv) _ hm) hw)
  | @element elements v w hm h ih =>
      rw [isProper, List.all_eq_true] at hv
      have hkey := hv v hm
      cases h with
      | refl => simp [hw] at hkey
      | _ => cases hkey

/-- A reference in a proper value stands where a walk comes to it. -/
theorem Cites.nests {v : Value} {reference : String} (h : v.Cites reference)
    (hv : v.isProper = true) :
    ∃ members, v.Nests (.map members) ∧ Members.get? members "$ref" = some (.str reference) := by
  obtain ⟨members, hm, href⟩ := h
  exact ⟨members, nests_of_holds hm hv rfl, href⟩

/-- References in a proper value have a property if the walk comes to no others. -/
theorem citesOnly_of_eachRef {v : Value} {Q : Value → Prop} (h : v.EachRef Q)
    (hv : v.isProper = true) (hQ : ∀ reference, Q (.str reference) → P reference) :
    v.CitesOnly P := by
  intro reference hr
  obtain ⟨members, hn, href⟩ := hr.nests hv
  exact hQ reference (h _ hn _ href)

end Value

namespace Spec

variable {spec : Spec} {P : String → Prop}

/-- All references in a document have a property. -/
def CitesOnly (P : String → Prop) (spec : Spec) : Prop := spec.document.CitesOnly P

theorem CitesOnly.resolve (h : spec.CitesOnly P) {reference : String} {target : Members}
    (hr : spec.resolve reference = .ok target) : (Value.map target).CitesOnly P := by
  unfold Spec.resolve resolveIn at hr
  split at hr
  next => cases hr
  next =>
    split at hr
    next => cases hr
    next hf =>
      cases hr
      exact Value.CitesOnly.follow h hf
    next => cases hr

theorem CitesOnly.schemas (h : spec.CitesOnly P) {schemas : Members}
    (hs : spec.schemas = .ok (.map schemas)) : (Value.map schemas).CitesOnly P :=
  @schemas_closed spec _ Value.citesOnly_null Value.citesOnly_emptyMap
    (fun hm hg => Value.CitesOnly.get? hm hg) h _ hs

end Spec

end ApiScaffold
