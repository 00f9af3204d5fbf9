import ApiScaffold.Proofs.Document.Nested

/-!
# Proper values

Values as a document holds them (`isProper`): the keys of a mapping differ and are keys, as are the
elements of a set.

So a mapping has one value under a key, which is what the first member with it has
(`get?_eq_some_iff`), and only a list can have mappings among its elements (`isProper_of_elements`).
Every value that is read from a text is proper; statements that need it say so, since a `Value` by
itself need not be.
-/

namespace ApiScaffold

namespace Value

mutual

/-- Whether all mappings in a value have keys, each once, and all sets have keys as elements. -/
def isProper : Value → Bool
  | .list items => itemsProper items
  | .set elements => elements.all isKey
  | .map members => membersProper members
  | _ => true

def itemsProper : List Value → Bool
  | [] => true
  | x :: xs => isProper x && itemsProper xs

def membersProper : List (Value × Value) → Bool
  | [] => true
  | (k, v) :: rest =>
    k.isKey && isProper v && rest.all (fun m => !k.keyEq m.1) && membersProper rest

end

theorem itemsProper_iff {items : List Value} :
    itemsProper items = true ↔ ∀ v ∈ items, v.isProper = true := by
  induction items with
  | nil => simp [itemsProper]
  | cons x xs ih => simp [itemsProper, ih]

theorem membersProper_of_mem {members : Members} {m : Value × Value}
    (h : membersProper members = true) (hm : m ∈ members) :
    m.1.isKey = true ∧ m.2.isProper = true := by
  induction members with
  | nil => cases hm
  | cons entry rest ih =>
      obtain ⟨k, v⟩ := entry
      simp only [membersProper, Bool.and_eq_true] at h
      rcases List.mem_cons.mp hm with rfl | hm
      · exact h.1.1
      · exact ih h.2 hm

/-- What a proper mapping has under a key is proper. -/
theorem isProper_of_get? {members : Members} {key : String} {v : Value}
    (h : (Value.map members).isProper = true) (hg : Members.get? members key = some v) :
    v.isProper = true :=
  (membersProper_of_mem (by rwa [isProper] at h) (Members.mem_of_get? hg)).2

/-- What stands in a proper value is proper. -/
theorem Nests.isProper {v w : Value} (h : v.Nests w) (hv : v.isProper = true) :
    w.isProper = true := by
  induction h with
  | refl => exact hv
  | value hm _ ih => exact ih (membersProper_of_mem (by rwa [Value.isProper] at hv) hm).2
  | item hm _ ih => exact ih (itemsProper_iff.mp (by rwa [Value.isProper] at hv) _ hm)

/-- A proper mapping has one value under a name. -/
theorem eq_of_mem_proper {members : Members} {name : String} {v w : Value}
    (h : (Value.map members).isProper = true) (hv : (.str name, v) ∈ members)
    (hw : (.str name, w) ∈ members) : v = w := by
  rw [isProper] at h
  induction members with
  | nil => cases hv
  | cons entry rest ih =>
      obtain ⟨k, first⟩ := entry
      simp only [membersProper, Bool.and_eq_true, List.all_eq_true] at h
      -- no later entry has the name of the first
      have hlater : ∀ x, (.str name, x) ∈ rest → k ≠ .str name := by
        rintro x hx rfl
        have hne := h.1.2 _ hx
        simp [keyEq] at hne
      rcases List.mem_cons.mp hv with hv' | hv'
      · cases hv'
        rcases List.mem_cons.mp hw with hw' | hw'
        · cases hw'
          rfl
        · exact absurd rfl (hlater w hw')
      · rcases List.mem_cons.mp hw with hw' | hw'
        · cases hw'
          exact absurd rfl (hlater v hv')
        · exact ih h.2 hv' hw'

/-- So what stands under a name in a proper mapping is found there. -/
theorem get?_eq_some_iff {members : Members} {name : String} {v : Value}
    (h : (Value.map members).isProper = true) :
    Members.get? members name = some v ↔ (.str name, v) ∈ members := by
  refine ⟨Members.mem_of_get?, fun hm => ?_⟩
  have hfound : ∃ w, Members.get? members name = some w := by
    clear h
    induction members with
    | nil => cases hm
    | cons entry rest ih =>
        obtain ⟨k, first⟩ := entry
        rcases List.mem_cons.mp hm with heq | hm
        · cases heq
          exact ⟨v, by simp [Members.get?]⟩
        · obtain ⟨w, hw⟩ := ih hm
          cases k with
          | str s =>
              by_cases hs : s = name
              · exact ⟨first, by simp [Members.get?, hs]⟩
              · exact ⟨w, by simpa [Members.get?, hs] using hw⟩
          | _ => exact ⟨w, hw⟩
  obtain ⟨w, hw⟩ := hfound
  rw [hw, eq_of_mem_proper h (Members.mem_of_get? hw) hm]

/-- A mapping among the elements of a proper value is an item of a list, and proper itself. -/
theorem isProper_of_elements {v : Value} {vs : List Value} {member : Members}
    (h : v.isProper = true) (he : v.elements? = some vs) (hm : .map member ∈ vs) :
    v = .list vs ∧ (Value.map member).isProper = true := by
  cases v with
  | list items =>
      cases he
      rw [isProper, itemsProper_iff] at h
      exact ⟨rfl, h _ hm⟩
  | set elements =>
      cases he
      rw [isProper, List.all_eq_true] at h
      cases h _ hm
  | map members =>
      cases he
      obtain ⟨m, hin, hk⟩ := List.mem_map.mp hm
      have hkey := (membersProper_of_mem (by rwa [isProper] at h) hin).1
      rw [hk] at hkey
      cases hkey
  | str s =>
      cases he
      obtain ⟨_, _, hc⟩ := List.mem_map.mp hm
      cases hc
  | bytes bs =>
      cases he
      obtain ⟨_, _, hb⟩ := List.mem_map.mp hm
      cases hb
  | _ => cases he

end Value

end ApiScaffold
