import ApiScaffold.Proofs.Document.Key
import ApiScaffold.Proofs.Operation.Group

/-!
# What the telling apart of operations comes to

Each operation gets its name from the operations of its own group that stand before it, and from
nothing else. That does not make the names different: a name with a number at its end may be the
name that another operation of the group has already.

* One pass renames by how many operations before have the same key (`repeats`), so the name at a
  place is known from the ones before it (`getElem?_renameByCount`), and a pass goes through each
  group as if there were no other (`inGroup_renameByCount`).
* `distinguishAll_local`: both passes add suffixes only, and where two lists have the same
  operations of a group before a place, the names there are one.
* `distinguishAll_distinct_iff`: telling operations apart makes them distinct exactly if no number
  that is put behind a name makes it another name of the group (`NumbersApart`).
-/

namespace ApiScaffold

namespace NicknameKey

theorem eq_iff {a b : NicknameKey} :
    a.eq b = true ↔ a.group.keyEq b.group = true ∧ a.nickname = b.nickname := by
  rw [eq, Bool.and_eq_true, beq_iff_eq]

theorem eq_symm {a b : NicknameKey} (h : a.eq b = true) : b.eq a = true := by
  rw [eq_iff] at h ⊢
  exact ⟨Value.keyEq_symm h.1, h.2.symm⟩

theorem eq_trans {a b c : NicknameKey} (hab : a.eq b = true) (hbc : b.eq c = true) :
    a.eq c = true := by
  rw [eq_iff] at hab hbc ⊢
  exact ⟨Value.keyEq_trans hab.1 hbc.1, hab.2.trans hbc.2⟩

theorem eq_comm (a b : NicknameKey) : a.eq b = b.eq a :=
  Bool.eq_iff_iff.mpr ⟨eq_symm, eq_symm⟩

/-- Keys that are one are equal to the same keys. -/
theorem eq_congr {a b : NicknameKey} (h : a.eq b = true) (c : NicknameKey) : a.eq c = b.eq c :=
  Bool.eq_iff_iff.mpr ⟨eq_trans (eq_symm h), eq_trans h⟩

end NicknameKey

namespace Operation

theorem key_eq_iff {a b : Operation} :
    a.key.eq b.key = true ↔ a.group.keyEq b.group = true ∧ a.nickname = b.nickname :=
  NicknameKey.eq_iff

/-- Operations of the group of a value. -/
def inGroup (v : Value) (ops : List Operation) : List Operation := ops.filter (v.keyEq ·.group)

/-- How many operations have the key of this one. -/
def repeats (ops : List Operation) (op : Operation) : Nat := ops.countP (op.key.eq ·.key)

theorem repeats_append (before after : List Operation) (op : Operation) :
    repeats (before ++ after) op = repeats before op + repeats after op :=
  List.countP_append

/-- Operations with one key have the same repeats. -/
theorem repeats_congr {op other : Operation} (h : op.key.eq other.key = true)
    (ops : List Operation) : repeats ops op = repeats ops other := by
  unfold repeats
  exact congrArg (List.countP · ops) (funext fun c => NicknameKey.eq_congr h c.key)

/-- Operations of other groups are no repeats. -/
theorem repeats_inGroup (ops : List Operation) (op : Operation) :
    repeats (inGroup op.group ops) op = repeats ops op := by
  unfold repeats inGroup
  rw [List.countP_filter]
  refine List.countP_congr fun other _ => ?_
  rw [Bool.and_eq_true, and_iff_left_iff_imp]
  exact fun h => (key_eq_iff.mp h).1

/-! ## One pass -/

/-- The name at a place comes from the repeats before it. -/
theorem getElem?_renameByCount (rename : Operation → Nat → Operation) (earlier : List NicknameKey)
    (ops : List Operation) (i : Nat) :
    (renameByCount rename earlier ops)[i]? = ops[i]?.map fun op =>
      rename op (repeats (ops.take i) op + earlier.countP (op.key.eq ·)) := by
  induction ops generalizing earlier i with
  | nil => rfl
  | cons first rest ih =>
      cases i with
      | zero => simp [renameByCount, repeats]
      | succ i =>
          rw [renameByCount, List.getElem?_cons_succ, List.getElem?_cons_succ, ih]
          refine congrArg (Option.map · _) (funext fun op => congrArg (rename op) ?_)
          rw [List.take_succ_cons, repeats, repeats, List.countP_cons, List.countP_cons]
          omega

theorem renameByCount_take (rename : Operation → Nat → Operation) (earlier : List NicknameKey)
    (ops : List Operation) (n : Nat) :
    (renameByCount rename earlier ops).take n = renameByCount rename earlier (ops.take n) := by
  induction ops generalizing earlier n with
  | nil => rw [List.take_nil, renameByCount, List.take_nil]
  | cons op rest ih =>
      cases n with
      | zero => rfl
      | succ n => rw [renameByCount, List.take_succ_cons, List.take_succ_cons, renameByCount, ih]

/-- A pass goes through each group as if there were no other. -/
theorem inGroup_renameByCount {rename : Operation → Nat → Operation}
    (hrename : ∀ op n, (rename op n).group = op.group) (v : Value) (earlier : List NicknameKey)
    (ops : List Operation) :
    inGroup v (renameByCount rename earlier ops)
      = renameByCount rename (earlier.filter (v.keyEq ·.group)) (inGroup v ops) := by
  induction ops generalizing earlier with
  | nil => rfl
  | cons op rest ih =>
      unfold inGroup at ih ⊢
      rw [renameByCount, List.filter_cons, List.filter_cons, ih, List.filter_cons, hrename]
      by_cases hv : v.keyEq op.group = true
      · have hcount : (earlier.filter (v.keyEq ·.group)).countP (op.key.eq ·)
            = earlier.countP (op.key.eq ·) := by
          rw [List.countP_filter]
          refine List.countP_congr fun key _ => ?_
          rw [Bool.and_eq_true, and_iff_left_iff_imp]
          exact fun h => Value.keyEq_trans hv (NicknameKey.eq_iff.mp h).1
        rw [if_pos hv, if_pos hv, if_pos (show v.keyEq op.key.group = true from hv),
          renameByCount, hcount]
      · rw [if_neg hv, if_neg hv, if_neg (show ¬v.keyEq op.key.group = true from hv)]

/-! ## Both passes -/

/-- The operation with a suffix at its name. -/
def Suffixed (op named : Operation) : Prop :=
  ∃ suffix, named = { op with nickname := op.nickname ++ suffix }

theorem Suffixed.trans {a b c : Operation} (hab : Suffixed a b) (hbc : Suffixed b c) :
    Suffixed a c := by
  obtain ⟨first, rfl⟩ := hab
  obtain ⟨second, rfl⟩ := hbc
  exact ⟨first ++ second, by rw [String.append_assoc]⟩

theorem suffixed_appendMethod (op : Operation) (n : Nat) : Suffixed op (appendMethod op n) := by
  unfold appendMethod
  split
  · exact ⟨"", by rw [String.append_empty]⟩
  · exact ⟨_, rfl⟩

theorem suffixed_appendNumber (op : Operation) (n : Nat) : Suffixed op (appendNumber op n) := by
  unfold appendNumber
  split
  · exact ⟨"", by rw [String.append_empty]⟩
  · exact ⟨_, rfl⟩

theorem Suffixed.group {op named : Operation} (h : Suffixed op named) : named.group = op.group := by
  obtain ⟨suffix, rfl⟩ := h
  rfl

theorem renameByCount_suffixed {rename : Operation → Nat → Operation}
    (hrename : ∀ op n, Suffixed op (rename op n)) (earlier : List NicknameKey)
    (ops : List Operation) : List.Forall₂ Suffixed ops (renameByCount rename earlier ops) := by
  induction ops generalizing earlier with
  | nil => exact .nil
  | cons op rest ih => exact .cons (hrename _ _) (ih _)

theorem distinguish_suffixed (ops : List Operation) :
    List.Forall₂ Suffixed ops (distinguish ops) :=
  Attempt.forall₂_comp (R := Suffixed) (S := Suffixed) (fun _ _ _ hab hbc => hab.trans hbc)
    (renameByCount_suffixed suffixed_appendMethod [] ops)
    (renameByCount_suffixed suffixed_appendNumber [] _)

/-- The name of an operation after these. -/
def tellApart (earlier : List Operation) (op : Operation) : Operation :=
  let first := appendMethod op (repeats earlier op)
  appendNumber first (repeats (renameByCount appendMethod [] earlier) first)

theorem getElem?_distinguish (ops : List Operation) (i : Nat) :
    (distinguish ops)[i]? = ops[i]?.map (tellApart (ops.take i)) := by
  rw [distinguish, getElem?_renameByCount, getElem?_renameByCount, renameByCount_take,
    Option.map_map]
  rfl

/-- The name comes from the group alone. -/
theorem tellApart_inGroup (earlier : List Operation) (op : Operation) :
    tellApart (inGroup op.group earlier) op = tellApart earlier op := by
  have hpass : inGroup op.group (renameByCount appendMethod [] earlier)
      = renameByCount appendMethod [] (inGroup op.group earlier) :=
    inGroup_renameByCount (fun op n => (suffixed_appendMethod op n).group) op.group [] earlier
  have hsecond (n : Nat) (ops : List Operation) :
      repeats (inGroup op.group ops) (appendMethod op n) = repeats ops (appendMethod op n) := by
    rw [← (suffixed_appendMethod op n).group, repeats_inGroup]
  rw [tellApart, tellApart, repeats_inGroup, ← hpass, hsecond]

theorem distinguishAll_eq_ok {ops named : List Operation} (h : distinguishAll ops = .ok named) :
    named = distinguish ops := by
  unfold distinguishAll at h
  split at h
  · exact (Except.ok.inj h).symm
  · cases h

theorem distinguish_take (ops : List Operation) (n : Nat) :
    (distinguish ops).take n = distinguish (ops.take n) := by
  rw [distinguish, renameByCount_take, renameByCount_take, distinguish]

theorem inGroup_distinguish (v : Value) (ops : List Operation) :
    inGroup v (distinguish ops) = distinguish (inGroup v ops) := by
  rw [distinguish, inGroup_renameByCount fun op n => (suffixed_appendNumber op n).group,
    inGroup_renameByCount fun op n => (suffixed_appendMethod op n).group, List.filter_nil,
    distinguish]

/-- An operation with nothing but a group, a name and a method. -/
def sketch (group nickname httpMethod : String) : Operation where
  httpMethod
  path := .null
  operationId := ""
  nickname
  group := .str group
  parameters := []
  responses := []
  returnType := ""
  summary := .null
  notes := .null
  tags := []
  imports := []
  deprecated := false

/-- Whether two places in lists of operations have the same operations of one group up to them. -/
def SameBefore (ops others : List Operation) (i j : Nat) (v : Value) : Prop :=
  inGroup v (ops.take (i + 1)) = inGroup v (others.take (j + 1))

theorem distinguish_at_eq {ops others : List Operation} {i j : Nat} {op : Operation}
    (hi : ops[i]? = some op) (hj : others[j]? = some op)
    (hsame : SameBefore ops others i j op.group) :
    (distinguish ops)[i]? = (distinguish others)[j]? := by
  have hbefore : inGroup op.group (ops.take i) = inGroup op.group (others.take j) := by
    unfold SameBefore inGroup at hsame
    rw [List.take_add_one, List.take_add_one, hi, hj, List.filter_append, List.filter_append]
      at hsame
    exact List.append_cancel_right hsame
  rw [getElem?_distinguish, getElem?_distinguish, hi, hj, Option.map_some, Option.map_some,
    ← tellApart_inGroup, hbefore, tellApart_inGroup]

/-- Telling operations apart adds suffixes to their names. Each name comes from the operations of
the group up to its own, so neither later operations nor those of other groups have a say. -/
theorem distinguishAll_local {ops : List Operation} (hops : ∀ op ∈ ops, op.group.isKey = true) :
    ∃ named, distinguishAll ops = .ok named
      ∧ List.Forall₂ Suffixed ops named
      ∧ (∀ others renamed i j op, distinguishAll others = .ok renamed → ops[i]? = some op →
          others[j]? = some op → SameBefore ops others i j op.group → named[i]? = renamed[j]?)
      ∧ (∀ later all, distinguishAll (ops ++ later) = .ok all → named <+: all)
      ∧ ∀ v, distinguishAll (inGroup v ops) = .ok (inGroup v named) := by
  refine ⟨distinguish ops, if_pos (List.all_eq_true.mpr hops), distinguish_suffixed ops, ?_, ?_, ?_⟩
  · intro others renamed i j op hrenamed hi hj hsame
    rw [distinguishAll_eq_ok hrenamed]
    exact distinguish_at_eq hi hj hsame
  · intro later all hall
    have htake := distinguish_take (ops ++ later) ops.length
    rw [List.take_left] at htake
    rw [distinguishAll_eq_ok hall, ← htake]
    exact List.take_prefix _ _
  · intro v
    rw [inGroup_distinguish]
    exact if_pos (List.all_eq_true.mpr fun op hop => hops op (List.mem_filter.mp hop).1)

/-- The second of two operations of one name gets its method, and keeps it behind an operation of
another group. -/
theorem distinguishAll_local_shifted : ∃ named renamed,
    distinguishAll [sketch "pets" "find" "GET", sketch "pets" "find" "POST"] = .ok named
      ∧ distinguishAll [sketch "users" "find" "GET", sketch "pets" "find" "GET",
          sketch "pets" "find" "POST"] = .ok renamed
      ∧ named[1]? = renamed[2]?
      ∧ renamed.map nickname = ["find", "find", "findPost"] := by
  obtain ⟨named, hnamed, -, hat, -⟩ := @distinguishAll_local
    [sketch "pets" "find" "GET", sketch "pets" "find" "POST"] (by decide)
  refine ⟨named, _, hnamed, rfl, ?_, by decide +kernel⟩
  exact hat [sketch "users" "find" "GET", sketch "pets" "find" "GET", sketch "pets" "find" "POST"]
    _ 1 2 (sketch "pets" "find" "POST") rfl rfl rfl rfl

/-! ## When names differ -/

/-- No two operations of one group have one name. -/
def Distinct (ops : List Operation) : Prop := ops.Pairwise fun a b => a.key.eq b.key = false

instance : DecidablePred Distinct := fun ops =>
  inferInstanceAs (Decidable (ops.Pairwise fun a b => a.key.eq b.key = false))

/-- A name with its number, if it is not the first. -/
def numbered (name : String) (before : Nat) : String :=
  if before = 0 then name else name ++ toString (before + 1)

theorem appendNumber_eq (op : Operation) (n : Nat) :
    appendNumber op n = { op with nickname := numbered op.nickname n } := by
  unfold appendNumber numbered
  split <;> rfl

theorem append_toString_ne (name : String) (n : Nat) : name ++ toString n ≠ name := fun h =>
  Nat.repr_ne_empty (String.append_eq_left_iff.mp h)

theorem toString_injective {m n : Nat} (h : toString m = toString n) : m = n := by
  have hdigits := congrArg (fun s : String => Nat.ofDigitChars 10 s.toList 0) h
  simpa using hdigits

theorem numbered_injective (name : String) : Function.Injective (numbered name) := by
  intro m n h
  unfold numbered at h
  split at h <;> split at h
  · omega
  · exact absurd h.symm (append_toString_ne name _)
  · exact absurd h (append_toString_ne name _)
  · exact Nat.succ.inj (toString_injective ((String.append_right_inj name).mp h))

/-- Operations are distinct if those at different places have different keys. -/
theorem distinct_iff_getElem? {ops : List Operation} :
    Distinct ops ↔ ∀ (i j : Nat) (a b : Operation), i ≠ j → ops[i]? = some a →
      ops[j]? = some b → a.key.eq b.key = false := by
  rw [Distinct, List.pairwise_iff_getElem]
  constructor
  · intro h i j a b hne ha hb
    obtain ⟨hi, rfl⟩ := List.getElem?_eq_some_iff.mp ha
    obtain ⟨hj, rfl⟩ := List.getElem?_eq_some_iff.mp hb
    rcases Nat.lt_or_gt_of_ne hne with hlt | hgt
    · exact h i j hi hj hlt
    · rw [NicknameKey.eq_comm]
      exact h j i hj hi hgt
  · intro h i j hi hj hlt
    exact h i j _ _ (Nat.ne_of_lt hlt) (List.getElem?_eq_getElem hi) (List.getElem?_eq_getElem hj)

/-- The names that the operations with the key of this one get from their numbers. -/
def numberedNames (ops : List Operation) (op : Operation) : List String :=
  (List.range (repeats ops op)).map (numbered op.nickname)

/-- No number makes the name of an operation into one of another name of the group. -/
def NumbersApart (ops : List Operation) : Prop :=
  ∀ a ∈ ops, ∀ b ∈ ops, a.group.keyEq b.group = true → a.nickname ≠ b.nickname →
    ∀ s ∈ numberedNames ops a, s ∉ numberedNames ops b

instance : DecidablePred NumbersApart := fun ops =>
  inferInstanceAs (Decidable (∀ a ∈ ops, ∀ b ∈ ops, _ → _ → ∀ s ∈ numberedNames ops a, _))

theorem getElem?_number (ops : List Operation) (i : Nat) :
    (renameByCount appendNumber [] ops)[i]? = ops[i]?.map fun op =>
      { op with nickname := numbered op.nickname (repeats (ops.take i) op) } := by
  simp only [getElem?_renameByCount, List.countP_nil, Nat.add_zero, appendNumber_eq]

/-- Each number below the repeats is that of some place. -/
theorem exists_repeat {ops : List Operation} {op : Operation} {n : Nat}
    (h : n < repeats ops op) : ∃ i other, ops[i]? = some other
      ∧ op.key.eq other.key = true ∧ repeats (ops.take i) op = n := by
  induction ops generalizing n with
  | nil => exact absurd h (Nat.not_lt_zero n)
  | cons first rest ih =>
      unfold repeats at h ih ⊢
      rw [List.countP_cons] at h
      by_cases hfirst : op.key.eq first.key = true
      · cases n with
        | zero => exact ⟨0, first, rfl, hfirst, rfl⟩
        | succ n =>
            rw [if_pos hfirst] at h
            obtain ⟨i, other, hi, hkey, hcount⟩ := ih (Nat.lt_of_succ_lt_succ h)
            refine ⟨i + 1, other, hi, hkey, ?_⟩
            rw [List.take_succ_cons, List.countP_cons, if_pos hfirst, hcount]
      · rw [if_neg hfirst] at h
        obtain ⟨i, other, hi, hkey, hcount⟩ := ih h
        refine ⟨i + 1, other, hi, hkey, ?_⟩
        rw [List.take_succ_cons, List.countP_cons, if_neg hfirst, hcount, Nat.add_zero]

/-- The first of the operations with one key keeps it in a pass. -/
theorem exists_key_renameByCount {rename : Operation → Nat → Operation}
    (hrename : ∀ op, rename op 0 = op) {ops : List Operation} {op : Operation}
    (hop : op ∈ ops) (hself : op.key.eq op.key = true) :
    ∃ named ∈ renameByCount rename [] ops, op.key.eq named.key = true := by
  have hpos : 0 < repeats ops op := List.countP_pos_iff.mpr ⟨op, hop, hself⟩
  obtain ⟨i, first, hi, hkey, hcount⟩ := exists_repeat hpos
  refine ⟨first, List.mem_of_getElem? (i := i) ?_, hkey⟩
  rw [getElem?_renameByCount, hi, Option.map_some, ← repeats_congr hkey, hcount, List.countP_nil,
    hrename]

/-- A name that an operation of a group had before is that of some operation of the group. -/
theorem exists_key_distinguish {ops : List Operation} {op : Operation} (hop : op ∈ ops)
    (hself : op.key.eq op.key = true) :
    ∃ named ∈ distinguish ops, op.key.eq named.key = true := by
  have hmethod : ∀ op, appendMethod op 0 = op := fun _ => rfl
  have hnumber : ∀ op, appendNumber op 0 = op := fun _ => rfl
  obtain ⟨first, hfirst, hkey⟩ := exists_key_renameByCount hmethod hop hself
  have hagain := NicknameKey.eq_trans (NicknameKey.eq_symm hkey) hkey
  obtain ⟨named, hnamed, hsame⟩ := exists_key_renameByCount hnumber hfirst hagain
  exact ⟨named, hnamed, NicknameKey.eq_trans hkey hsame⟩

/-- An operation repeats itself for what comes after it, if it has a group at all. -/
theorem repeats_take_lt {ops : List Operation} {op other : Operation} {i j : Nat} (hij : i < j)
    (hi : ops[i]? = some other) (hkey : op.key.eq other.key = true) :
    repeats (ops.take i) op < repeats (ops.take j) op := by
  have hsub : (ops.take (i + 1)).Sublist (ops.take j) :=
    (List.take_prefix_take_left (Nat.succ_le_of_lt hij)).sublist
  have hle : repeats (ops.take (i + 1)) op ≤ repeats (ops.take j) op := hsub.countP_le
  have hone : repeats [other] op = 1 := List.countP_singleton.trans (if_pos hkey)
  rw [List.take_add_one, hi, Option.toList_some, repeats_append, hone] at hle
  exact hle

theorem numbered_mem_numberedNames {ops : List Operation} {op other : Operation} {i : Nat}
    (hi : ops[i]? = some op) (hgroup : op.group.keyEq other.group = true) :
    numbered op.nickname (repeats (ops.take i) op) ∈ numberedNames ops op := by
  have hself : op.key.eq op.key = true :=
    key_eq_iff.mpr ⟨Value.keyEq_trans hgroup (Value.keyEq_symm hgroup), rfl⟩
  have hlt := repeats_take_lt (j := ops.length) (List.getElem?_eq_some_iff.mp hi).1 hi hself
  rw [List.take_length] at hlt
  exact List.mem_map_of_mem (List.mem_range.mpr hlt)

/-- Each of the names is that of some place. -/
theorem exists_numbered {ops : List Operation} {op : Operation} {s : String}
    (h : s ∈ numberedNames ops op) : ∃ (i : Nat) (other : Operation), ops[i]? = some other
      ∧ op.key.eq other.key = true
      ∧ (renameByCount appendNumber [] ops)[i]? = some { other with nickname := s } := by
  obtain ⟨n, hn, rfl⟩ := List.mem_map.mp h
  obtain ⟨i, other, hi, hkey, hcount⟩ := exists_repeat (List.mem_range.mp hn)
  have hname : op.nickname = other.nickname := (key_eq_iff.mp hkey).2
  refine ⟨i, other, hi, hkey, ?_⟩
  rw [getElem?_number, hi, Option.map_some, ← repeats_congr hkey, hcount, hname]

/-- Numbers make operations distinct exactly if they keep different names apart. -/
theorem distinct_number_iff {ops : List Operation} :
    Distinct (renameByCount appendNumber [] ops) ↔ NumbersApart ops := by
  rw [distinct_iff_getElem?]
  constructor
  · intro hdistinct a _ b _ hgroup hname s hsa hsb
    obtain ⟨i, c, hi, hac, hci⟩ := exists_numbered hsa
    obtain ⟨j, d, hj, hbd, hdj⟩ := exists_numbered hsb
    have hkeys (heq : c = d) : a.nickname = b.nickname := by
      rw [(key_eq_iff.mp hac).2, (key_eq_iff.mp hbd).2, heq]
    have hne : i ≠ j := by
      rintro rfl
      exact hname (hkeys (Option.some.inj (hi.symm.trans hj)))
    have hcd : c.group.keyEq d.group = true :=
      Value.keyEq_trans (Value.keyEq_symm (key_eq_iff.mp hac).1)
        (Value.keyEq_trans hgroup (key_eq_iff.mp hbd).1)
    have hsame := hdistinct i j _ _ hne hci hdj
    rw [← Bool.not_eq_true, key_eq_iff] at hsame
    exact hsame ⟨hcd, rfl⟩
  · intro hapart i j a b hne ha hb
    rw [getElem?_number] at ha hb
    obtain ⟨c, hi, rfl⟩ := Option.map_eq_some_iff.mp ha
    obtain ⟨d, hj, rfl⟩ := Option.map_eq_some_iff.mp hb
    rw [← Bool.not_eq_true, key_eq_iff]
    rintro ⟨hgroup, hname⟩
    replace hgroup : c.group.keyEq d.group = true := hgroup
    replace hname : numbered c.nickname (repeats (ops.take i) c)
      = numbered d.nickname (repeats (ops.take j) d) := hname
    by_cases hsame : c.nickname = d.nickname
    · -- One name, so one number, but the later of the places counts the earlier.
      have hkey : c.key.eq d.key = true := key_eq_iff.mpr ⟨hgroup, hsame⟩
      have hself := NicknameKey.eq_trans hkey (NicknameKey.eq_symm hkey)
      rw [← hsame, ← repeats_congr hkey] at hname
      have hcount := numbered_injective c.nickname hname
      rcases Nat.lt_or_gt_of_ne hne with hlt | hgt
      · exact Nat.ne_of_lt (repeats_take_lt hlt hi hself) hcount
      · exact Nat.ne_of_gt (repeats_take_lt hgt hj hkey) hcount
    · have hc := numbered_mem_numberedNames hi hgroup
      have hd := numbered_mem_numberedNames hj (Value.keyEq_symm hgroup)
      exact hapart c (List.mem_of_getElem? hi) d (List.mem_of_getElem? hj) hgroup hsame _ hc
        (hname ▸ hd)

/-- Telling operations apart makes them distinct exactly if no number that is put to a name, once
methods are, makes it another name of the group. -/
theorem distinguishAll_distinct_iff {ops : List Operation}
    (hops : ∀ op ∈ ops, op.group.isKey = true) :
    ∃ named, distinguishAll ops = .ok named
      ∧ (Distinct named ↔ NumbersApart (renameByCount appendMethod [] ops)) :=
  ⟨distinguish ops, if_pos (List.all_eq_true.mpr hops), distinct_number_iff⟩

/-- Three operations of one name get three names. -/
theorem distinguishAll_distinct_iff_three : ∃ named,
    distinguishAll (List.replicate 3 (sketch "pets" "find" "GET")) = .ok named
      ∧ named.map nickname = ["find", "findGet", "findGet2"]
      ∧ Distinct named := by
  obtain ⟨named, hnamed, hdistinct⟩ := @distinguishAll_distinct_iff
    (List.replicate 3 (sketch "pets" "find" "GET")) (by decide)
  refine ⟨named, hnamed, ?_, hdistinct.mpr (by decide +kernel)⟩
  rw [distinguishAll_eq_ok hnamed]
  decide +kernel

/-- The number that comes to a name with its method may make it the name of the next operation. -/
theorem distinguishAll_meets : ∃ named,
    distinguishAll [sketch "pets" "find" "GET", sketch "pets" "find" "GET",
        sketch "pets" "findGet" "GET", sketch "pets" "findGet2" "GET"] = .ok named
      ∧ named.map nickname = ["find", "findGet", "findGet2", "findGet2"]
      ∧ ¬Distinct named :=
  ⟨_, rfl, by decide +kernel, by decide +kernel⟩

end Operation

end ApiScaffold
