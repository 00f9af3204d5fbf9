import ApiScaffold.Proofs.Document.Proper
import ApiScaffold.Proofs.Spec
import Mathlib.Data.List.Nodup

/-!
# Texts as keys

Values whose mappings have texts as keys, each once (`isTextual`), as every document in JSON has.

The order of such keys is that of the texts. So sorted members have their names in strictly
increasing order (`HasNames.sorted`), and members with increasing names are determined by what they
hold (`eq_of_increasing`): that is why sorting removes all trace of the order in which members were
given.
-/

namespace ApiScaffold

namespace Text

/-- Different texts, once sorted, increase strictly. -/
theorem pairwise_lt_mergeSort {names : List String} (h : names.Nodup) :
    (names.mergeSort fun a b => !(b < a)).Pairwise (· < ·) := by
  have hordered : (names.mergeSort fun a b => !(b < a)).Pairwise fun a b => (!(b < a)) = true := by
    refine List.pairwise_mergeSort ?_ ?_ names
    · intro a b c hab hbc
      simp only [Bool.not_eq_true', decide_eq_false_iff_not, String.not_lt] at hab hbc ⊢
      exact String.le_trans hab hbc
    · intro a b
      simp only [Bool.or_eq_true, Bool.not_eq_true', decide_eq_false_iff_not, String.not_lt]
      exact String.le_total a b
  have hdistinct : (names.mergeSort fun a b => !(b < a)).Nodup :=
    (List.mergeSort_perm names _).nodup_iff.mpr h
  refine hordered.imp₂ (fun a b hle hne => ?_) hdistinct
  simp only [Bool.not_eq_true', decide_eq_false_iff_not, String.not_lt] at hle
  exact String.not_le.mp fun hge => hne (String.le_antisymm hle hge)

end Text

namespace Members

/-- The texts of the keys, in order. -/
def names (members : Members) : List String := members.map fun m => m.1.display

/-- The keys are texts, and no two of them are the same. -/
structure HasNames (members : Members) : Prop where
  textual : ∀ m ∈ members, m.1 = .str m.1.display
  distinct : members.names.Nodup

variable {members : Members}

theorem hasNames_nil : HasNames [] := ⟨by simp, .nil⟩

/-- Members in another order have the same names. -/
theorem HasNames.perm {others : Members} (h : HasNames members) (hp : members.Perm others) :
    HasNames others where
  textual := fun m hm => h.textual m (hp.mem_iff.mpr hm)
  distinct := (hp.map _).nodup_iff.mp h.distinct

theorem HasNames.tail {m : Value × Value} {rest : Members} (h : HasNames (m :: rest)) :
    HasNames rest where
  textual := fun n hn => h.textual n (List.mem_cons_of_mem _ hn)
  distinct := (List.nodup_cons.mp h.distinct).2

/-- Named members have one value under a name, that of the member with it. -/
theorem HasNames.get?_eq_some (h : HasNames members) {name : String} {v : Value} :
    get? members name = some v ↔ (.str name, v) ∈ members := by
  refine ⟨mem_of_get?, fun hm => ?_⟩
  induction members with
  | nil => cases hm
  | cons first rest ih =>
      obtain ⟨key, w⟩ := first
      have hkey := h.textual (key, w) List.mem_cons_self
      dsimp only at hkey
      rw [hkey, get?]
      rcases List.mem_cons.mp hm with heq | hm
      · cases heq
        simp [Value.display]
      · have hne : key.display ≠ name := by
          rintro rfl
          have hin : key.display ∈ names rest := List.mem_map.mpr ⟨_, hm, rfl⟩
          exact (List.nodup_cons.mp h.distinct).1 hin
        rw [if_neg hne]
        exact ih h.tail hm

/-- The values under keys do not depend on the order of the members. -/
theorem HasNames.get?_perm {others : Members} (h : HasNames members) (hp : members.Perm others)
    (key : String) : get? members key = get? others key :=
  Option.ext fun _ => by
    rw [h.get?_eq_some, (h.perm hp).get?_eq_some, hp.mem_iff]

/-- Named members can be sorted, and then their names increase. -/
theorem HasNames.sorted (h : HasNames members) : ∃ sorted, sorted? members = some sorted
    ∧ sorted.Perm members ∧ sorted.names.Pairwise (· < ·) := by
  have hkind : ∀ m ∈ members, m.1.orderKind? = some 1 := by
    intro m hm
    rw [h.textual m hm]
    rfl
  have hsortable : sortable members = true := by
    match members, hkind with
    | [], _ => rfl
    | [_], _ => rfl
    | first :: second :: rest, hkind =>
        rw [List.forall_mem_cons] at hkind
        rw [sortable, hkind.1, Bool.and_eq_true, List.all_eq_true]
        · exact ⟨rfl, fun m hm => by rw [hkind.2 m hm]; rfl⟩
        · simp
  refine ⟨_, by rw [sorted?, if_pos hsortable], List.mergeSort_perm _ _, ?_⟩
  have hnames : names (List.mergeSort members fun a b => !b.1.keyLess a.1)
      = members.names.mergeSort fun a b => !(b < a) := by
    refine List.map_mergeSort fun a ha b hb => ?_
    rw [h.textual a ha, h.textual b hb]
    rfl
  rw [hnames]
  exact Text.pairwise_lt_mergeSort h.distinct

/-- Two lists of the same members are one if the names increase in both. -/
theorem eq_of_increasing {others : Members} (hp : members.Perm others)
    (hm : members.names.Pairwise (· < ·)) (ho : others.names.Pairwise (· < ·)) :
    members = others := by
  have hless : ∀ a b, a ∈ members → b ∈ others →
      a.1.display < b.1.display → b.1.display < a.1.display → a = b :=
    fun _ _ _ _ hab hba => absurd hba (String.lt_asymm hab)
  exact List.Perm.eq_of_pairwise hless (List.pairwise_map.mp hm) (List.pairwise_map.mp ho) hp

end Members

namespace Value

mutual

/-- Whether all mappings in a value have texts as keys, each once. -/
def isTextual : Value → Bool
  | .list items => itemsTextual items
  | .map members => membersTextual members
  | _ => true

def itemsTextual : List Value → Bool
  | [] => true
  | x :: xs => isTextual x && itemsTextual xs

def membersTextual : List (Value × Value) → Bool
  | [] => true
  | (k, v) :: rest =>
    k.asStr?.isSome && isTextual v && rest.all (fun m => !k.keyEq m.1) && membersTextual rest

end

theorem eq_str_display {key : Value} (h : key.asStr?.isSome = true) : key = .str key.display := by
  cases key <;> first | rfl | cases h

theorem hasNames_of_textual {members : Members} (h : (Value.map members).isTextual = true) :
    members.HasNames := by
  rw [isTextual] at h
  induction members with
  | nil => exact Members.hasNames_nil
  | cons m rest ih =>
      obtain ⟨k, v⟩ := m
      simp only [membersTextual, Bool.and_eq_true, List.all_eq_true] at h
      obtain ⟨⟨⟨hk, -⟩, hnew⟩, hrest⟩ := h
      have hr := ih hrest
      refine ⟨List.forall_mem_cons.mpr ⟨eq_str_display hk, hr.textual⟩, ?_⟩
      refine List.nodup_cons.mpr ⟨fun hin => ?_, hr.distinct⟩
      obtain ⟨n, hn, hsame⟩ := List.mem_map.mp hin
      have hne := hnew n hn
      rw [eq_str_display hk, hr.textual n hn] at hne
      simp [keyEq, hsame] at hne

theorem isTextual_of_mem {members : Members} {m : Value × Value}
    (h : (Value.map members).isTextual = true) (hm : m ∈ members) : m.2.isTextual = true := by
  rw [isTextual] at h
  induction members with
  | nil => cases hm
  | cons first rest ih =>
      obtain ⟨k, v⟩ := first
      simp only [membersTextual, Bool.and_eq_true] at h
      rcases List.mem_cons.mp hm with rfl | hm
      · exact h.1.1.2
      · exact ih h.2 hm

/-- What a mapping with textual keys has under a key has textual keys too. -/
theorem isTextual_of_get? {members : Members} {key : String} {v : Value}
    (h : (Value.map members).isTextual = true) (hg : Members.get? members key = some v) :
    v.isTextual = true :=
  isTextual_of_mem h (Members.mem_of_get? hg)

theorem isTextual_map {members : Members} (hn : members.HasNames)
    (hv : ∀ m ∈ members, m.2.isTextual = true) : (Value.map members).isTextual = true := by
  rw [isTextual]
  induction members with
  | nil => rfl
  | cons m rest ih =>
      obtain ⟨k, v⟩ := m
      rw [List.forall_mem_cons] at hv
      have hk : k = .str k.display := hn.textual (k, v) List.mem_cons_self
      have hnew : ∀ n ∈ rest, k.keyEq n.1 = false := by
        intro n hin
        have hne : k.display ≠ n.1.display := fun hsame =>
          (List.nodup_cons.mp hn.distinct).1 (List.mem_map.mpr ⟨n, hin, hsame.symm⟩)
        rw [hk, hn.textual n (List.mem_cons_of_mem _ hin)]
        simpa [keyEq] using hne
      simp only [membersTextual, Bool.and_eq_true, List.all_eq_true, Bool.not_eq_true']
      exact ⟨⟨⟨by rw [hk]; rfl, hv.1⟩, hnew⟩, ih hn.tail hv.2⟩

end Value

/-- A document whose mappings have texts as keys, each once. -/
def Spec.IsTextual (spec : Spec) : Prop := spec.document.isTextual = true

end ApiScaffold
