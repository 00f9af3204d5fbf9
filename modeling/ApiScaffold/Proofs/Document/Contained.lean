import ApiScaffold.Proofs.Document.Nested

/-!
# What a value contains

A walk over a value goes through its mappings and its lists and passes its pairs by (`Value.Nests`).
Here is what stands in a value if the pairs are entered as well (`Value.Contains`), and with it the
references that a document has altogether (`Value.EveryRef`) beside those that a walk comes to
(`Value.EachRef`).

Both say the same of mappings and lists and differ at pairs only. `Value.IsRefRule` is what they
have in common; whatever changes a value without touching its references is shown to keep every such
rule, and so keeps both.
-/

namespace ApiScaffold

namespace Value

/-- A value stands anywhere in another: in a member's value, in an item or in a part of a pair. -/
inductive Contains : Value → Value → Prop
  | refl (v : Value) : Contains v v
  | value {members : Members} {m : Value × Value} {w : Value} (hm : m ∈ members)
      (h : Contains m.2 w) : Contains (.map members) w
  | item {items : List Value} {v w : Value} (hm : v ∈ items) (h : Contains v w) :
      Contains (.list items) w
  | first {a b w : Value} (h : Contains a w) : Contains (.pair a b) w
  | second {a b w : Value} (h : Contains b w) : Contains (.pair a b) w

theorem Nests.contains {v w : Value} (h : v.Nests w) : v.Contains w := by
  induction h with
  | refl v => exact .refl v
  | value hm _ ih => exact .value hm ih
  | item hm _ ih => exact .item hm ih

/-- Whatever stands under the key of references anywhere in a value has a property. -/
def EveryRef (P : Value → Prop) (v : Value) : Prop :=
  ∀ w, v.Contains w → ∀ x ∈ w.get? "$ref", P x

variable {P Q : Value → Prop}

theorem EveryRef.imp {v : Value} (himp : ∀ x, P x → Q x) (h : v.EveryRef P) : v.EveryRef Q :=
  fun w hw x hx => himp x (h w hw x hx)

mutual

/-- Whether every reference anywhere in a value passes a check. -/
def allRefs (check : Value → Bool) : Value → Bool
  | .list items => allRefsOfItems check items
  | .pair a b => allRefs check a && allRefs check b
  | .map members =>
    (Members.get? members "$ref").all check && allRefsOfMembers check members
  | _ => true

def allRefsOfItems (check : Value → Bool) : List Value → Bool
  | [] => true
  | x :: xs => allRefs check x && allRefsOfItems check xs

def allRefsOfMembers (check : Value → Bool) : List (Value × Value) → Bool
  | [] => true
  | (_, x) :: rest => allRefs check x && allRefsOfMembers check rest

end

/-- A property of values that speaks of the references in them: of a mapping it says something of
its own reference and the same of the members, of a list the same of the items, and of a pair
something that follows from what it says of the parts. -/
structure IsRefRule (P Q : Value → Prop) : Prop where
  map {members : Members} :
    Q (.map members) ↔ (∀ x ∈ Members.get? members "$ref", P x) ∧ ∀ m ∈ members, Q m.2
  list {items : List Value} : Q (.list items) ↔ ∀ v ∈ items, Q v
  pair {a b a' b' : Value} (ha : Q a → Q a') (hb : Q b → Q b') (h : Q (.pair a b)) : Q (.pair a' b')
  set {elements : List Value} : Q (.set elements)
  str {s : String} : Q (.str s)

theorem eachRef_isRefRule : IsRefRule P (EachRef P) where
  map := eachRef_map
  list := eachRef_list
  pair _ _ _ := eachRef_of_leaf (fun _ h => by cases h; rfl) rfl
  set := eachRef_of_leaf (fun _ h => by cases h; rfl) rfl
  str := eachRef_str _

theorem everyRef_of_leaf {v : Value} (h : ∀ w, v.Contains w → w = v) (hv : v.get? "$ref" = none) :
    v.EveryRef P := by
  intro w hw x hx
  rw [h w hw, hv] at hx
  cases hx

theorem everyRef_map {members : Members} : EveryRef P (.map members) ↔
    (∀ x ∈ Members.get? members "$ref", P x) ∧ ∀ m ∈ members, m.2.EveryRef P := by
  constructor
  · exact fun h => ⟨h _ (.refl _), fun m hm w hw => h w (.value hm hw)⟩
  · rintro ⟨hself, hparts⟩ w hw
    cases hw with
    | refl => exact hself
    | value hm h => exact hparts _ hm w h

theorem everyRef_list {items : List Value} :
    EveryRef P (.list items) ↔ ∀ v ∈ items, v.EveryRef P := by
  constructor
  · exact fun h v hv w hw => h w (.item hv hw)
  · intro hitems w hw
    cases hw with
    | refl => exact fun x hx => by cases hx
    | item hm h => exact hitems _ hm w h

theorem everyRef_pair {a b : Value} :
    EveryRef P (.pair a b) ↔ a.EveryRef P ∧ b.EveryRef P := by
  constructor
  · exact fun h => ⟨fun w hw => h w (.first hw), fun w hw => h w (.second hw)⟩
  · rintro ⟨ha, hb⟩ w hw
    cases hw with
    | refl => exact fun x hx => by cases hx
    | first h => exact ha w h
    | second h => exact hb w h

theorem everyRef_isRefRule : IsRefRule P (EveryRef P) where
  map := everyRef_map
  list := everyRef_list
  pair ha hb h := by
    obtain ⟨h₁, h₂⟩ := everyRef_pair.mp h
    exact everyRef_pair.mpr ⟨ha h₁, hb h₂⟩
  set := everyRef_of_leaf (fun _ h => by cases h; rfl) rfl
  str := everyRef_of_leaf (fun _ h => by cases h; rfl) rfl

section Check

variable {check : Value → Bool}

mutual

theorem allRefs_iff : ∀ v : Value, v.allRefs check = true ↔ v.EveryRef (check · = true)
  | .list items => by rw [allRefs, allRefsOfItems_iff items, everyRef_list]
  | .pair a b => by
      rw [allRefs, Bool.and_eq_true, allRefs_iff a, allRefs_iff b, everyRef_pair]
  | .map members => by
      rw [allRefs, Bool.and_eq_true, allRefsOfMembers_iff members, everyRef_map,
        Option.all_eq_true]
      rfl
  | .null | .bool _ | .int _ | .float _ | .str _ | .bytes _ | .date _ | .moment _ | .set _
  | .again _ =>
      iff_of_true (by simp [allRefs]) (everyRef_of_leaf (fun _ h => by cases h; rfl) rfl)

theorem allRefsOfItems_iff : ∀ items : List Value,
    allRefsOfItems check items = true ↔ ∀ v ∈ items, v.EveryRef (check · = true)
  | [] => by simp [allRefsOfItems]
  | x :: xs => by
      rw [allRefsOfItems, Bool.and_eq_true, allRefs_iff x, allRefsOfItems_iff xs,
        List.forall_mem_cons]

theorem allRefsOfMembers_iff : ∀ members : Members,
    allRefsOfMembers check members = true ↔ ∀ m ∈ members, m.2.EveryRef (check · = true)
  | [] => by simp [allRefsOfMembers]
  | (_, x) :: rest => by
      rw [allRefsOfMembers, Bool.and_eq_true, allRefs_iff x, allRefsOfMembers_iff rest,
        List.forall_mem_cons]

end

end Check

instance [DecidablePred P] (v : Value) : Decidable (v.EveryRef P) :=
  decidable_of_iff (v.allRefs (fun x => decide (P x)) = true) <|
    (allRefs_iff v).trans (by simp only [decide_eq_true_eq])

namespace IsRefRule

variable {members : Members} {v : Value}

theorem emptyMap (h : IsRefRule P Q) : Q .emptyMap := by
  refine h.map.mpr ⟨fun x hx => ?_, fun m hm => ?_⟩
  · cases hx
  · cases hm

theorem get? (h : IsRefRule P Q) {key : String} (hm : Q (.map members))
    (hv : Members.get? members key = some v) : Q v :=
  (h.map.mp hm).2 _ (Members.mem_of_get? hv)

/-- A member put in under another key adds the references of its value only. -/
theorem insert (h : IsRefRule P Q) {key : String} (hkey : "$ref" ≠ key) (hm : Q (.map members))
    (hv : Q v) : Q (.map (Members.insert members (.str key) v)) := by
  rw [h.map, Members.get?_insert, if_neg hkey]
  obtain ⟨hself, hparts⟩ := h.map.mp hm
  refine ⟨hself, ?_⟩
  clear hm hself
  -- the place of the key is found member by member
  induction members with
  | nil => simpa [Members.insert] using hv
  | cons m rest ih =>
      obtain ⟨k, old⟩ := m
      obtain ⟨hold, hrest⟩ := List.forall_mem_cons.mp hparts
      rw [Members.insert]
      split
      · exact List.forall_mem_cons.mpr ⟨hv, hrest⟩
      · exact List.forall_mem_cons.mpr ⟨hold, ih hrest⟩

end IsRefRule

end Value

end ApiScaffold
