import ApiScaffold.Document.Order
import ApiScaffold.Document.Pointer
import ApiScaffold.Document.Display
import ApiScaffold.Proofs.Attempt
import ApiScaffold.Proofs.Text.Whole

/-!
# Values without lone halves

Values none of whose texts has a lone half (`Value.isWhole`), and what follows for all that is made
of them. What stands anywhere in such a value is such a value, whether it is found under a key, at
the end of a way or by iteration.

The quoted text of a value has no lone halves, whatever the value is (`isWhole_quotedText`): what
cannot be printed is escaped there. Of the plain text that holds for whole values only. The texts of
numbers, days and moments are digits and signs.
-/

namespace ApiScaffold

open Text

/-- What is found under a key stands there. -/
theorem mem_of_lookup {α β : Type} [BEq α] [LawfulBEq α] {entries : List (α × β)} {key : α} {b : β}
    (h : entries.lookup key = some b) : (key, b) ∈ entries := by
  obtain ⟨before, after, rfl, -⟩ := List.lookup_eq_some_iff.mp h
  simp

/-! ## Texts of scalars -/

theorem isWhole_padded (width n : Nat) : isWhole (padded width n) = true := by
  unfold padded
  rw [isWhole_ofList, areWhole_append]
  exact ⟨areWhole_replicate _ (by decide), areWhole_toDigits (by decide) (by decide) n⟩

theorem isWhole_row (ns : List Nat) :
    isWhole (String.intercalate ", " (ns.map toString)) = true := by
  refine isWhole_intercalate (by decide) fun s hs => ?_
  obtain ⟨n, -, rfl⟩ := List.mem_map.mp hs
  exact isWhole_repr n

theorem Day.isWhole_text (d : Day) : isWhole d.text = true := by
  simp only [Day.text, isWhole_append, isWhole_padded, true_and, and_true]
  decide

theorem Day.isWhole_quotedText (d : Day) : isWhole d.quotedText = true := by
  unfold Day.quotedText
  simp only [isWhole_append, isWhole_row, and_true]
  decide

theorem Moment.isWhole_aheadText (ahead? : Option Int) :
    isWhole (Moment.aheadText ahead?) = true := by
  cases ahead? with
  | none => rfl
  | some n =>
      simp only [Moment.aheadText, isWhole_append, isWhole_padded, and_true]
      refine ⟨?_, by decide⟩
      split <;> decide

theorem Moment.isWhole_text (m : Moment) {separator : String} (h : isWhole separator = true) :
    isWhole (m.text separator) = true := by
  have hmicro : isWhole (if m.micro = 0 then "" else "." ++ padded 6 m.micro) = true := by
    split
    · rfl
    · rw [isWhole_append]
      exact ⟨by decide, isWhole_padded 6 m.micro⟩
  have hcolon : isWhole ":" = true := by decide
  simp only [Moment.text, isWhole_append, isWhole_padded, Day.isWhole_text, isWhole_aheadText, h,
    hmicro, hcolon, and_self]

theorem Moment.isWhole_aheadQuoted (ahead? : Option Int) :
    isWhole (Moment.aheadQuoted ahead?) = true := by
  cases ahead? with
  | none => rfl
  | some n =>
      unfold Moment.aheadQuoted
      dsimp only
      rw [isWhole_append]
      refine ⟨by decide, ?_⟩
      split
      · decide
      · split
        · simp only [isWhole_append, isWhole_toString_int, and_true]
          decide
        · simp only [isWhole_append, isWhole_toString_int, and_true]
          decide

theorem Moment.isWhole_quotedText (m : Moment) : isWhole m.quotedText = true := by
  unfold Moment.quotedText
  rw [isWhole_append, isWhole_append, isWhole_append]
  exact ⟨⟨⟨by decide, isWhole_row _⟩, isWhole_aheadQuoted _⟩, by decide⟩

theorem Binary64.areWhole_layout {digits : List Char} (position : Int) (h : AreWhole digits) :
    AreWhole (layout digits position) := by
  have hdrop : ∀ n, AreWhole (digits.drop n) := fun n => h.of_subset (List.drop_subset n digits)
  have htake : ∀ n, AreWhole (digits.take n) := fun n => h.of_subset (List.take_subset n digits)
  have hplaces := areWhole_toDigits (b := 10) (by decide) (by decide) (position - 1).natAbs
  unfold layout
  dsimp only
  split
  · simp only [areWhole_append]
    refine ⟨⟨⟨htake 1, ?_⟩, ?_⟩, ?_⟩
    · split
      next => exact areWhole_nil
      next =>
        exact areWhole_cons.mpr ⟨by decide, hdrop 1⟩
    · split <;> simp <;> decide
    · split
      · exact areWhole_cons.mpr ⟨by decide, hplaces⟩
      · exact hplaces
  · split
    · simp only [areWhole_append]
      exact ⟨⟨by simp; decide, areWhole_replicate _ (by decide)⟩, h⟩
    · split
      · simp only [areWhole_append]
        exact ⟨⟨htake _, by simp; decide⟩, hdrop _⟩
      · simp only [areWhole_append]
        exact ⟨⟨h, areWhole_replicate _ (by decide)⟩, by simp; decide⟩

@[simp] theorem Binary64.isWhole_text (x : Binary64) : isWhole x.text = true := by
  cases x with
  | nan => decide
  | infinite negative => cases negative <;> decide
  | finite negative m e =>
      have hbody : AreWhole (if m = 0 then ['0', '.', '0'] else
          layout (significantDigits (shortest m e).1)
            (Int.ofNat (Nat.toDigits 10 (shortest m e).1).length + (shortest m e).2)) := by
        split
        · simp
          decide
        · refine areWhole_layout _ ?_
          refine (areWhole_toDigits (b := 10) (by decide) (by decide) (shortest m e).1).of_subset ?_
          exact fun c hc => List.mem_reverse.mp
            ((List.dropWhile_sublist _).subset (List.mem_reverse.mp hc))
      unfold text
      rw [isWhole_ofList]
      split
      · exact areWhole_cons.mpr ⟨by decide, hbody⟩
      · exact hbody

namespace Value

mutual

/-- Whether no text in a value has a lone half. -/
def isWhole : Value → Bool
  | .str s => Text.isWhole s
  | .list items => itemsWhole items
  | .pair a b => isWhole a && isWhole b
  | .set elements => itemsWhole elements
  | .map members => membersWhole members
  | _ => true

def itemsWhole : List Value → Bool
  | [] => true
  | x :: xs => isWhole x && itemsWhole xs

def membersWhole : List (Value × Value) → Bool
  | [] => true
  | (k, v) :: rest => isWhole k && isWhole v && membersWhole rest

end

theorem itemsWhole_iff {items : List Value} :
    itemsWhole items = true ↔ ∀ v ∈ items, v.isWhole = true := by
  induction items with
  | nil => simp [itemsWhole]
  | cons x xs ih => simp [itemsWhole, ih]

theorem membersWhole_iff {members : Members} :
    membersWhole members = true ↔ ∀ m ∈ members, m.1.isWhole = true ∧ m.2.isWhole = true := by
  induction members with
  | nil => simp [membersWhole]
  | cons m rest ih =>
      obtain ⟨k, v⟩ := m
      simp [membersWhole, ih]

@[simp] theorem isWhole_str {s : String} : (Value.str s).isWhole = Text.isWhole s := by
  rw [isWhole]

@[simp] theorem isWhole_list {items : List Value} :
    (Value.list items).isWhole = true ↔ ∀ v ∈ items, v.isWhole = true := by
  rw [isWhole, itemsWhole_iff]

@[simp] theorem isWhole_pair {a b : Value} :
    (Value.pair a b).isWhole = true ↔ a.isWhole = true ∧ b.isWhole = true := by
  rw [isWhole, Bool.and_eq_true]

@[simp] theorem isWhole_set {elements : List Value} :
    (Value.set elements).isWhole = true ↔ ∀ v ∈ elements, v.isWhole = true := by
  rw [isWhole, itemsWhole_iff]

@[simp] theorem isWhole_map {members : Members} :
    (Value.map members).isWhole = true ↔
      ∀ m ∈ members, m.1.isWhole = true ∧ m.2.isWhole = true := by
  rw [isWhole, membersWhole_iff]

/-! ## Texts of values -/

mutual

/-- The quoted text of a value has no lone halves, whatever the value is. -/
theorem isWhole_quotedText : ∀ v : Value, Text.isWhole v.quotedText = true
  | .null => by decide
  | .bool b => by cases b <;> decide
  | .int n => by rw [quotedText]; exact Text.isWhole_toString_int n
  | .float x => by rw [quotedText]; exact Binary64.isWhole_text x
  | .str s => by rw [quotedText]; exact Text.isWhole_quoted s
  | .bytes bs => by rw [quotedText]; exact Text.isWhole_quotedBytes bs
  | .date d => by rw [quotedText]; exact d.isWhole_quotedText
  | .moment m => by rw [quotedText]; exact m.isWhole_quotedText
  | .list items => by
      rw [quotedText, Text.isWhole_append, Text.isWhole_append]
      exact ⟨⟨by decide, isWhole_intercalate (by decide) (isWhole_quotedItems items)⟩, by decide⟩
  | .pair a b => by
      rw [quotedText, Text.isWhole_append, Text.isWhole_append, Text.isWhole_append,
        Text.isWhole_append]
      exact ⟨⟨⟨⟨by decide, isWhole_quotedText a⟩, by decide⟩, isWhole_quotedText b⟩, by decide⟩
  | .set [] => by decide
  | .set (x :: xs) => by
      rw [quotedText, Text.isWhole_append, Text.isWhole_append]
      refine ⟨⟨by decide, isWhole_intercalate (by decide) fun s hs => ?_⟩, by decide⟩
      rcases List.mem_cons.mp hs with rfl | hs
      · exact isWhole_quotedText x
      · exact isWhole_quotedItems xs s hs
  | .map members => by
      rw [quotedText, Text.isWhole_append, Text.isWhole_append]
      exact ⟨⟨by decide, isWhole_intercalate (by decide) (isWhole_quotedMembers members)⟩,
        by decide⟩
  | .again isMapping => by cases isMapping <;> decide

theorem isWhole_quotedItems : ∀ items : List Value, ∀ s ∈ quotedItems items, Text.isWhole s = true
  | [], _, hs => by cases hs
  | x :: xs, s, hs => by
      rw [quotedItems] at hs
      rcases List.mem_cons.mp hs with rfl | hs
      · exact isWhole_quotedText x
      · exact isWhole_quotedItems xs s hs

theorem isWhole_quotedMembers :
    ∀ members : List (Value × Value), ∀ s ∈ quotedMembers members, Text.isWhole s = true
  | [], _, hs => by cases hs
  | (k, v) :: rest, s, hs => by
      rw [quotedMembers] at hs
      rcases List.mem_cons.mp hs with rfl | hs
      · rw [Text.isWhole_append, Text.isWhole_append]
        exact ⟨⟨isWhole_quotedText k, by decide⟩, isWhole_quotedText v⟩
      · exact isWhole_quotedMembers rest s hs

end

theorem isWhole_display {v : Value} (h : v.isWhole = true) : Text.isWhole v.display = true := by
  cases v with
  | str s => simpa [display] using h
  | date d => exact d.isWhole_text
  | moment m => exact m.isWhole_text (by decide)
  | _ => exact isWhole_quotedText _

theorem isWhole_of_display? {v : Value} {s : String} (h : v.isWhole = true)
    (hs : v.display? = some s) : Text.isWhole s = true := by
  unfold display? at hs
  split at hs
  · cases hs
    exact isWhole_display h
  · cases hs

/-! ## Integers that can be written -/

theorem isWritable_int {n : Int} :
    (Value.int n).isWritable = true ↔ n.natAbs < Nat.pow 10 Numeral.maxDigits := by
  rw [isWritable, decide_eq_true_eq]

theorem isWritable_of_lt_ten {n : Int} (h : n.natAbs < 10) : (Value.int n).isWritable = true := by
  -- for any number of digits, so that no power is computed
  have hpow : ∀ digits, digits ≠ 0 → n.natAbs < Nat.pow 10 digits := fun _ hd =>
    Nat.lt_of_lt_of_le h (Nat.le_pow (Nat.pos_of_ne_zero hd))
  exact isWritable_int.mpr (hpow _ (by decide))

/-! ## Parts of values -/

theorem isWhole_elements {v : Value} {vs : List Value} (h : v.isWhole = true)
    (hv : v.elements? = some vs) : ∀ x ∈ vs, x.isWhole = true := by
  cases v with
  | str s =>
      cases hv
      intro x hx
      obtain ⟨letter, hletter, rfl⟩ := List.mem_map.mp hx
      rw [isWhole_str, isWhole_iff] at h
      rw [isWhole_str, isWhole_ofList]
      exact h.of_subset (subset_of_mem_letters hletter)
  | bytes bs =>
      cases hv
      intro x hx
      obtain ⟨b, -, rfl⟩ := List.mem_map.mp hx
      rfl
  | list items =>
      cases hv
      exact isWhole_list.mp h
  | set elements =>
      cases hv
      exact isWhole_set.mp h
  | map members =>
      cases hv
      intro x hx
      obtain ⟨m, hm, rfl⟩ := List.mem_map.mp hx
      exact (isWhole_map.mp h m hm).1
  | _ => cases hv

end Value

namespace Members

/-- Whether no text in some members has a lone half. -/
def AreWhole (members : Members) : Prop := (Value.map members).isWhole = true

variable {members : Members}

theorem mem_of_get? {key : String} {v : Value} (h : get? members key = some v) :
    (.str key, v) ∈ members := by
  fun_induction get? members key with
  | case1 => cases h
  | case2 => simp_all
  | case3 _ _ _ _ _ ih => exact List.mem_cons_of_mem _ (ih h)
  | case4 _ _ _ _ ih => exact List.mem_cons_of_mem _ (ih h)

theorem get?_erase_of_ne {key erased : String} (h : key ≠ erased) :
    get? (erase members erased) key = get? members key := by
  induction members with
  | nil => rfl
  | cons m rest ih =>
      obtain ⟨k, v⟩ := m
      have hrest : get? (List.filter (fun m => !m.1.keyEq (.str erased)) rest) key
          = get? rest key := ih
      rw [erase, List.filter_cons]
      split
      next hkeep => cases k <;> simp only [get?, hrest]
      next hgone =>
        cases k with
        | str s =>
            have hs : s = erased := by simpa [Value.keyEq] using hgone
            subst hs
            simp only [get?, if_neg (Ne.symm h), hrest]
        | _ => simp only [get?, hrest]

theorem get?_insert (key inserted : String) (v : Value) :
    get? (insert members (.str inserted) v) key
      = if key = inserted then some v else get? members key := by
  induction members with
  | nil =>
      by_cases hk : key = inserted
      · simp [insert, get?, hk]
      · simp [insert, get?, hk, Ne.symm hk]
  | cons m rest ih =>
      obtain ⟨k, old⟩ := m
      rw [insert]
      split
      next hsame =>
        cases k with
        | str s =>
            have hs : s = inserted := by simpa [Value.keyEq] using hsame
            subst hs
            by_cases hk : key = s
            · simp [get?, hk]
            · simp [get?, hk, Ne.symm hk]
        | _ => simp [Value.keyEq, Value.ratio?] at hsame
      next hother =>
        cases k with
        | str s =>
            have hs : s ≠ inserted := by simpa [Value.keyEq] using hother
            by_cases hk : s = key
            · subst hk
              simp [get?, hs]
            · simp only [get?, if_neg hk, ih]
        | _ => simp only [get?, ih]

theorem AreWhole.get? {key : String} {v : Value} (h : AreWhole members)
    (hv : members.get? key = some v) : v.isWhole = true :=
  (Value.isWhole_map.mp h _ (mem_of_get? hv)).2

theorem AreWhole.getD {key : String} {default : Value} (h : AreWhole members)
    (hd : default.isWhole = true) : (members.getD key default).isWhole = true := by
  unfold Members.getD
  cases hv : members.get? key with
  | none => exact hd
  | some v => exact h.get? hv

theorem AreWhole.find? {key v : Value} (h : AreWhole members) (hv : members.find? key = some v) :
    v.isWhole = true := by
  obtain ⟨m, hf, rfl⟩ := Option.map_eq_some_iff.mp hv
  exact (Value.isWhole_map.mp h m (List.mem_of_find?_eq_some hf)).2

theorem AreWhole.insert {key v : Value} (h : AreWhole members) (hk : key.isWhole = true)
    (hv : v.isWhole = true) : AreWhole (members.insert key v) := by
  unfold AreWhole at h ⊢
  rw [Value.isWhole_map] at h ⊢
  fun_induction Members.insert members key v with
  | case1 => simp [hk, hv]
  | case2 k old rest key v heq =>
      rw [List.forall_mem_cons] at h ⊢
      exact ⟨⟨h.1.1, hv⟩, h.2⟩
  | case3 k old rest key v hne ih =>
      rw [List.forall_mem_cons] at h ⊢
      exact ⟨h.1, ih h.2 hk hv⟩

theorem mem_sorted? {sorted : Members} (hs : members.sorted? = some sorted)
    {m : Value × Value} : m ∈ sorted ↔ m ∈ members := by
  unfold Members.sorted? at hs
  split at hs
  · cases hs
    exact List.mem_mergeSort
  · cases hs

theorem AreWhole.sorted? {sorted : Members} (h : AreWhole members)
    (hs : members.sorted? = some sorted) : AreWhole sorted :=
  Value.isWhole_map.mpr fun m hm => Value.isWhole_map.mp h m ((mem_sorted? hs).mp hm)

end Members

namespace Pointer

theorem areWhole_unescape {segment : List Char} (h : Text.AreWhole segment) :
    Text.AreWhole (unescape segment) :=
  areWhole_replacePair (by decide) (areWhole_replacePair (by decide) h)

theorem isWhole_lastKey {reference : String} (h : isWhole reference = true) :
    isWhole (lastKey reference) = true := by
  rw [lastKey, isWhole_ofList]
  exact areWhole_unescape ((isWhole_iff.mp h).of_subset (afterLast_subset _ _))

theorem isWhole_follow {v found : Value} {keys : List String} (h : v.isWhole = true)
    (hf : follow v keys = some found) : found.isWhole = true := by
  induction keys generalizing v with
  | nil =>
      cases hf
      exact h
  | cons key rest ih =>
      rw [follow] at hf
      cases hv : v.get? key with
      | none => simp [hv] at hf
      | some next =>
          simp only [hv] at hf
          cases v with
          | map members => exact ih (Members.AreWhole.get? h hv) hf
          | _ => cases hv

end Pointer

end ApiScaffold
