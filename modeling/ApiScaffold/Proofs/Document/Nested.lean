import ApiScaffold.Proofs.Spec

/-!
# What a walk comes to

The values to which a walk over mappings and lists comes, the value itself included (`Nests`), and
the references that stand there. The relation is the specification; `parts` lists the same values in
the order of the walk, and `mem_parts` says that they are the same.

* `eachRef_map` and its like: the references of a value by its form.
* `mem_references`: where the walk of the references comes to its end, it has come to each textual
  one.
* `resolves_of_ofValue`: so each textual reference to which the walk of an accepted document comes
  points at a mapping of the document.

A pair is a leaf for the walk, and nothing here speaks of what stands in one.
-/

namespace ApiScaffold

namespace Value

/-- A value stands in another: it is that value, or stands in a member's value or in an item. -/
inductive Nests : Value → Value → Prop
  | refl (v : Value) : Nests v v
  | value {members : Members} {m : Value × Value} {w : Value} (hm : m ∈ members)
      (h : Nests m.2 w) : Nests (.map members) w
  | item {items : List Value} {v w : Value} (hm : v ∈ items) (h : Nests v w) : Nests (.list items) w

mutual

/-- All values that stand in a value, in the order of the walk. -/
def parts : Value → List Value
  | .list items => .list items :: partsOfItems items
  | .map members => .map members :: partsOfMembers members
  | v => [v]

def partsOfItems : List Value → List Value
  | [] => []
  | x :: xs => parts x ++ partsOfItems xs

def partsOfMembers : List (Value × Value) → List Value
  | [] => []
  | (_, x) :: xs => parts x ++ partsOfMembers xs

end

theorem mem_partsOfItems {items : List Value} {w : Value} :
    w ∈ partsOfItems items ↔ ∃ v ∈ items, w ∈ v.parts := by
  induction items with
  | nil => simp [partsOfItems]
  | cons x xs ih => simp [partsOfItems, ih]

theorem mem_partsOfMembers {members : Members} {w : Value} :
    w ∈ partsOfMembers members ↔ ∃ m ∈ members, w ∈ m.2.parts := by
  induction members with
  | nil => simp [partsOfMembers]
  | cons m rest ih =>
      obtain ⟨key, v⟩ := m
      simp [partsOfMembers, ih]

theorem self_mem_parts (v : Value) : v ∈ v.parts := by
  cases v <;> simp [parts]

mutual

theorem nests_of_mem_parts {w : Value} : ∀ v : Value, w ∈ v.parts → v.Nests w
  | .list items, h => by
      rw [parts, List.mem_cons] at h
      rcases h with rfl | h
      · exact .refl _
      · obtain ⟨v, hm, hv⟩ := nests_of_mem_partsOfItems items h
        exact .item hm hv
  | .map members, h => by
      rw [parts, List.mem_cons] at h
      rcases h with rfl | h
      · exact .refl _
      · obtain ⟨m, hm, hv⟩ := nests_of_mem_partsOfMembers members h
        exact .value hm hv
  | .null, h | .bool _, h | .int _, h | .float _, h | .str _, h | .bytes _, h | .date _, h
  | .moment _, h | .pair _ _, h | .set _, h | .again _, h => by
      obtain rfl := List.mem_singleton.mp h
      exact .refl _

theorem nests_of_mem_partsOfItems {w : Value} :
    ∀ items : List Value, w ∈ partsOfItems items → ∃ v ∈ items, v.Nests w
  | [], h => by cases h
  | x :: xs, h => by
      rw [partsOfItems, List.mem_append] at h
      rcases h with h | h
      · exact ⟨x, List.mem_cons_self, nests_of_mem_parts x h⟩
      · obtain ⟨v, hm, hv⟩ := nests_of_mem_partsOfItems xs h
        exact ⟨v, List.mem_cons_of_mem _ hm, hv⟩

theorem nests_of_mem_partsOfMembers {w : Value} :
    ∀ members : Members, w ∈ partsOfMembers members → ∃ m ∈ members, m.2.Nests w
  | [], h => by cases h
  | (key, x) :: xs, h => by
      rw [partsOfMembers, List.mem_append] at h
      rcases h with h | h
      · exact ⟨(key, x), List.mem_cons_self, nests_of_mem_parts x h⟩
      · obtain ⟨m, hm, hv⟩ := nests_of_mem_partsOfMembers xs h
        exact ⟨m, List.mem_cons_of_mem _ hm, hv⟩

end

/-- The parts of a value are what stands in it. -/
theorem mem_parts {v w : Value} : w ∈ v.parts ↔ v.Nests w := by
  constructor
  · exact nests_of_mem_parts v
  · intro h
    induction h with
    | refl v => exact self_mem_parts v
    | value hm _ ih =>
        rw [parts]
        exact List.mem_cons_of_mem _ (mem_partsOfMembers.mpr ⟨_, hm, ih⟩)
    | item hm _ ih =>
        rw [parts]
        exact List.mem_cons_of_mem _ (mem_partsOfItems.mpr ⟨_, hm, ih⟩)

mutual

theorem length_parts : ∀ v : Value, v.parts.length = v.nodeCount
  | .list items => by
      rw [parts, nodeCount, List.length_cons, length_partsOfItems items, Nat.add_comm]
  | .map members => by
      rw [parts, nodeCount, List.length_cons, length_partsOfMembers members, Nat.add_comm]
  | .null | .bool _ | .int _ | .float _ | .str _ | .bytes _ | .date _ | .moment _ | .pair _ _
  | .set _ | .again _ => rfl

theorem length_partsOfItems :
    ∀ items : List Value, (partsOfItems items).length = nodeCountItems items
  | [] => rfl
  | x :: xs => by
      rw [partsOfItems, nodeCountItems, List.length_append, length_parts x, length_partsOfItems xs]

theorem length_partsOfMembers :
    ∀ members : Members, (partsOfMembers members).length = nodeCountMembers members
  | [] => rfl
  | (_, x) :: xs => by
      rw [partsOfMembers, nodeCountMembers, List.length_append, length_parts x,
        length_partsOfMembers xs]

end

namespace Nests

variable {u v w : Value} {members : Members}

theorem trans (huv : u.Nests v) (hvw : v.Nests w) : u.Nests w := by
  induction huv with
  | refl _ => exact hvw
  | value hm _ ih => exact .value hm (ih hvw)
  | item hm _ ih => exact .item hm (ih hvw)

theorem get? {key : String} (h : Members.get? members key = some v) :
    (Value.map members).Nests v := .value (Members.mem_of_get? h) (.refl v)

theorem follow {keys : List String} (h : Pointer.follow v keys = some w) : v.Nests w := by
  induction keys generalizing v with
  | nil =>
      cases h
      exact .refl _
  | cons key rest ih =>
      rw [Pointer.follow] at h
      split at h
      next next hn =>
        cases v with
        | map members => exact (Nests.get? hn).trans (ih h)
        | _ => cases hn
      next => cases h

end Nests

/-! ## References -/

/-- Whatever stands under the key of references in a value has a property. -/
def EachRef (P : Value → Prop) (v : Value) : Prop :=
  ∀ w, v.Nests w → ∀ x ∈ w.get? "$ref", P x

variable {P Q : Value → Prop}

theorem eachRef_iff {v : Value} : v.EachRef P ↔ ∀ w ∈ v.parts, ∀ x ∈ w.get? "$ref", P x := by
  simp only [EachRef, mem_parts]

instance [DecidablePred P] (v : Value) : Decidable (v.EachRef P) :=
  decidable_of_iff _ eachRef_iff.symm

/-- A value without parts has no references. -/
theorem eachRef_of_leaf {v : Value} (h : ∀ w, v.Nests w → w = v) (hv : v.get? "$ref" = none) :
    v.EachRef P := by
  intro w hw x hx
  rw [h w hw, hv] at hx
  cases hx

theorem eachRef_str (s : String) : EachRef P (.str s) :=
  eachRef_of_leaf (fun _ h => by cases h; rfl) rfl

/-- The references of a mapping are its own and those in the values of its members. -/
theorem eachRef_map {members : Members} :
    EachRef P (.map members) ↔
      (∀ x ∈ Members.get? members "$ref", P x) ∧ ∀ m ∈ members, m.2.EachRef P := by
  constructor
  · exact fun h => ⟨h _ (.refl _), fun m hm w hw => h w (.value hm hw)⟩
  · rintro ⟨hself, hparts⟩ w hw
    cases hw with
    | refl => exact hself
    | value hm h => exact hparts _ hm w h

theorem eachRef_list {items : List Value} :
    EachRef P (.list items) ↔ ∀ v ∈ items, v.EachRef P := by
  constructor
  · exact fun h v hv w hw => h w (.item hv hw)
  · intro hitems w hw
    cases hw with
    | refl => exact fun x hx => by cases hx
    | item hm h => exact hitems _ hm w h

namespace EachRef

variable {v : Value} {members : Members}

theorem imp (himp : ∀ x, P x → Q x) (h : v.EachRef P) : v.EachRef Q :=
  fun w hw x hx => himp x (h w hw x hx)

theorem nests {w : Value} (h : v.EachRef P) (hw : v.Nests w) : w.EachRef P :=
  fun u hu => h u (hw.trans hu)

theorem get? {key : String} (h : EachRef P (.map members))
    (hv : Members.get? members key = some v) : v.EachRef P := h.nests (.get? hv)

end EachRef

end Value

namespace Spec

variable {spec : Spec} {document : Value} {source : String}

theorem nests_of_resolve {reference : String} {target : Members}
    (h : spec.resolve reference = .ok target) : spec.document.Nests (.map target) := by
  unfold Spec.resolve resolveIn at h
  split at h
  next => cases h
  next =>
    split at h
    next => cases h
    next hf =>
      cases h
      exact .follow hf
    next => cases h

/-! ## Acceptance -/

/-- Where the walk of the references comes to its end, it has come to each textual one. -/
theorem mem_references {v w : Value} (hw : v.Nests w) {place reference : String}
    (hend : none ∉ v.references place) (hr : w.get? "$ref" = some (.str reference)) :
    ∃ place', some (place', reference) ∈ v.references place := by
  induction hw generalizing place with
  | refl v =>
      cases v with
      | map members =>
          have hg : Members.get? members "$ref" = some (.str reference) := hr
          exact ⟨place, by simp [Value.references, hg]⟩
      | _ => cases hr
  | @value members m w hm _ ih =>
      rw [Value.references, List.mem_append, not_or] at hend
      have hmembers : ∃ place',
          some (place', reference) ∈ Value.memberReferences place members := by
        have hrest := hend.2
        clear hend
        -- the walk names each key that it passes, or it ends there
        induction members with
        | nil => cases hm
        | cons first rest ihRest =>
            obtain ⟨key, x⟩ := first
            rw [Value.memberReferences, List.mem_append, not_or] at hrest
            rw [Value.memberReferences]
            rcases List.mem_cons.mp hm with rfl | hm
            · cases hd : Value.display? key with
              | none => simp [hd] at hrest
              | some name =>
                  simp only [hd] at hrest ⊢
                  obtain ⟨place', hin⟩ := ih hrest.1 hr
                  exact ⟨place', List.mem_append_left _ hin⟩
            · obtain ⟨place', hin⟩ := ihRest hm hrest.2
              exact ⟨place', List.mem_append_right _ hin⟩
      obtain ⟨place', hin⟩ := hmembers
      exact ⟨place', by rw [Value.references]; exact List.mem_append_right _ hin⟩
  | @item items v w hm _ ih =>
      rw [Value.references] at hend ⊢
      -- the walk numbers the items, so the induction is for any first number
      generalize (0 : Nat) = index at hend ⊢
      induction items generalizing index with
      | nil => cases hm
      | cons first rest ihRest =>
          rw [Value.itemReferences, List.mem_append, not_or] at hend
          rw [Value.itemReferences]
          rcases List.mem_cons.mp hm with rfl | hm
          · obtain ⟨place', hin⟩ := ih hend.1 hr
            exact ⟨place', List.mem_append_left _ hin⟩
          · obtain ⟨place', hin⟩ := ihRest hm _ hend.2
            exact ⟨place', List.mem_append_right _ hin⟩

theorem checkReferences_ok {references : List (Option (String × String))}
    (h : checkReferences document references = .ok ()) :
    none ∉ references ∧ ∀ place reference, some (place, reference) ∈ references →
      ∃ target, resolveIn document reference = .ok target := by
  induction references with
  | nil => simp
  | cons first rest ih =>
      cases first with
      | none => cases h
      | some entry =>
          obtain ⟨place, reference⟩ := entry
          rw [checkReferences] at h
          split at h
          next => cases h
          next =>
            split at h
            next => cases h
            next target ht =>
              obtain ⟨hend, hrest⟩ := ih h
              refine ⟨by simpa using hend, fun place' reference' hin => ?_⟩
              rcases List.mem_cons.mp hin with heq | hin
              · cases heq
                exact ⟨target, ht⟩
              · exact hrest place' reference' hin

/-- What is accepted is the document itself, with references that have been checked. -/
theorem ofValue_ok (h : ofValue document source = .ok spec) :
    spec.document = document ∧ checkReferences document (document.references "#") = .ok () := by
  obtain ⟨members, hm, h⟩ := Attempt.bind_eq_ok.mp h
  obtain ⟨_, hc, h⟩ := Attempt.bind_eq_ok.mp h
  cases h
  refine ⟨?_, hc⟩
  unfold checkHeader at hm
  split at hm
  next =>
    obtain ⟨version, -, hm⟩ := Attempt.bind_eq_ok.mp hm
    split at hm
    · cases hm
    · split at hm <;> cases hm
      rfl
  next => cases hm

/-- Each textual reference that stands in an accepted document points at a mapping. -/
theorem resolves_of_ofValue (h : ofValue document source = .ok spec) {w : Value} {reference : String}
    (hw : spec.document.Nests w) (hr : w.get? "$ref" = some (.str reference)) :
    ∃ target, spec.resolve reference = .ok target := by
  obtain ⟨rfl, hc⟩ := ofValue_ok h
  obtain ⟨hend, hall⟩ := checkReferences_ok hc
  obtain ⟨place, hin⟩ := mem_references hw hend hr
  exact hall place reference hin

end Spec

end ApiScaffold
