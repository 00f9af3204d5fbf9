import ApiScaffold.Naming
import ApiScaffold.Proofs.Text.Point
import ApiScaffold.Text.Literal
import ApiScaffold.Text.Url
import Mathlib.Data.List.TakeWhile

/-!
# Texts without lone halves

A letter of a text may spell a lone half of a pair, which no file can hold. What is cut from a text
without such letters, put together from such texts or mapped to another letter case has none either;
names, quoted texts and literals never have one.

* `AreWhole` is about letters and `isWhole` about texts. `isWhole_spelt`: what is spelt from
  characters is whole, whichever these are.
* `IsNoHalf`: the numbers of characters that spell no half. The tables of letter case stay among
  them, which is computed span by span.
* The rest goes through the operations on texts, from letter case and escapes up to paths of URLs.
-/

namespace ApiScaffold

namespace Text

/-- Whether none of some characters spells a lone half. -/
def AreWhole (cs : List Char) : Prop := ∀ c ∈ cs, isHalf c = false

/-- Whether no letter of a text is a lone half. -/
def isWhole (s : String) : Bool := s.toList.all fun c => !isHalf c

theorem isWhole_iff {s : String} : isWhole s = true ↔ AreWhole s.toList := by
  simp [isWhole, AreWhole]

@[simp] theorem isWhole_ofList {cs : List Char} :
    isWhole (String.ofList cs) = true ↔ AreWhole cs := by
  rw [isWhole_iff, String.toList_ofList]

@[simp] theorem areWhole_nil : AreWhole [] := by
  simp [AreWhole]

@[simp] theorem areWhole_cons {c : Char} {cs : List Char} :
    AreWhole (c :: cs) ↔ isHalf c = false ∧ AreWhole cs := by
  simp [AreWhole]

@[simp] theorem areWhole_append {as bs : List Char} :
    AreWhole (as ++ bs) ↔ AreWhole as ∧ AreWhole bs := by
  simp [AreWhole, or_imp, forall_and]

theorem AreWhole.of_subset {as bs : List Char} (h : AreWhole bs) (hs : as ⊆ bs) : AreWhole as :=
  fun c hc => h c (hs hc)

theorem areWhole_flatMap {α : Type} {xs : List α} {f : α → List Char}
    (h : ∀ x ∈ xs, AreWhole (f x)) : AreWhole (xs.flatMap f) := by
  intro c hc
  obtain ⟨x, hx, hcx⟩ := List.mem_flatMap.mp hc
  exact h x hx c hcx

@[simp] theorem isWhole_append {a b : String} :
    isWhole (a ++ b) = true ↔ isWhole a = true ∧ isWhole b = true := by
  simp only [isWhole_iff, String.toList_append, areWhole_append]

theorem isWhole_join {xs : List String} (h : ∀ s ∈ xs, isWhole s = true) :
    isWhole (String.join xs) = true := by
  induction xs with
  | nil => rfl
  | cons s xs ih =>
      rw [String.join_cons, isWhole_append]
      exact ⟨h s (by simp), ih fun t ht => h t (by simp [ht])⟩

theorem isWhole_intercalate {sep : String} {xs : List String} (hsep : isWhole sep = true)
    (h : ∀ s ∈ xs, isWhole s = true) : isWhole (String.intercalate sep xs) = true := by
  induction xs with
  | nil => rfl
  | cons s xs ih =>
      have hs : isWhole s = true := h s (by simp)
      cases xs with
      | nil => simpa [String.intercalate_singleton] using hs
      | cons t xs =>
          rw [String.intercalate_cons_cons, isWhole_append, isWhole_append]
          exact ⟨⟨hs, hsep⟩, ih fun t ht => h t (by simp [ht])⟩

/-! ## Characters that spell no half -/

/-- The numbers of characters that spell no half. -/
abbrev IsNoHalf (n : Nat) : Prop := n < 0xE000 ∨ 0xE800 ≤ n

theorem isHalf_of_isNoHalf {c : Char} (h : IsNoHalf c.toNat) : isHalf c = false := by
  rw [Bool.eq_false_iff, Ne, isHalf_iff]
  omega

theorem isHalf_of_lt {c : Char} (h : c.toNat < 0xE000) : isHalf c = false :=
  isHalf_of_isNoHalf (.inl h)

theorem Spells.areWhole {n : Nat} {letter : Letter} (h : Spells n letter)
    (hn : isHalfUnit n = false) : AreWhole letter := by
  rw [Bool.eq_false_iff, Ne, isHalfUnit_iff] at hn
  cases h with
  | half hc heq =>
      rw [isHalf_iff] at hc
      omega
  | pair ha hb =>
      rw [isLead_iff] at ha
      rw [isTrail_iff] at hb
      simpa using ⟨isHalf_of_isNoHalf (by omega), isHalf_of_isNoHalf (by omega)⟩
  | self hc => simpa using isHalf_of_isNoHalf (by omega)

/-- What is spelt from characters has no lone halves. -/
@[simp] theorem isWhole_spelt (s : String) : isWhole (spelt s) = true := by
  rw [spelt, ofPoints, isWhole_ofList]
  refine areWhole_flatMap fun n hn => ?_
  obtain ⟨c, -, rfl⟩ := List.mem_map.mp hn
  have hvalid := toNat_valid c
  have hno : isHalfUnit c.toNat = false := by
    rw [Bool.eq_false_iff, Ne, isHalfUnit_iff]
    omega
  exact (spells_spell (by omega)).areWhole hno

theorem isHalf_ofNat {n : Nat} (h : IsNoHalf n) : isHalf (Char.ofNat n) = false := by
  by_cases hv : n.isValidChar
  · exact isHalf_of_isNoHalf ((toNat_ofNat hv).symm ▸ h)
  · have hzero : Char.ofNat n = Char.ofNat 0 := dif_neg hv
    rw [hzero]
    decide

theorem isHalf_toLower {c : Char} (h : isHalf c = false) : isHalf c.toLower = false := by
  unfold Char.toLower
  split
  case isTrue hc =>
    have hle : c.val.toNat ≤ 90 := UInt32.le_iff_toNat_le.mp hc.2
    apply isHalf_of_lt
    show (c.val + 32).toNat < 0xE000
    rw [UInt32.toNat_add]
    have hs : (32 : UInt32).toNat = 32 := rfl
    omega
  case isFalse => exact h

theorem isHalf_toUpper {c : Char} (h : isHalf c = false) : isHalf c.toUpper = false := by
  unfold Char.toUpper
  split
  case isTrue hc =>
    have hge : 97 ≤ c.val.toNat := UInt32.le_iff_toNat_le.mp hc.1
    have hle : c.val.toNat ≤ 122 := UInt32.le_iff_toNat_le.mp hc.2
    apply isHalf_of_lt
    show (c.val + ('A'.val - 'a'.val)).toNat < 0xE000
    rw [UInt32.toNat_add]
    have hs : ('A'.val - 'a'.val).toNat = 4294967264 := rfl
    omega
  case isFalse => exact h

theorem isHalf_of_inSpans {spans : List (Nat × Nat)} {c : Char}
    (hb : ∀ span ∈ spans, span.2 < 0xE000 ∨ 0xE800 ≤ span.1) (h : inSpans spans c.toNat = true) :
    isHalf c = false := by
  obtain ⟨span, hm, hs⟩ := List.any_eq_true.mp h
  simp only [Bool.and_eq_true, decide_eq_true_eq] at hs
  have hapart := hb span hm
  exact isHalf_of_isNoHalf (by omega)

/-! ## Letter case -/

/-- Whether no character of a span is mapped to one that spells a half. -/
abbrev CaseSpan.IsNoHalf (s : CaseSpan) : Prop :=
  (s.last : Int) + s.shift < 0xE000 ∨ 0xE800 ≤ (s.first : Int) + s.shift

theorem CaseSpan.isNoHalf_of_map? {spans : List CaseSpan} {n m : Nat}
    (hb : ∀ s ∈ spans, s.IsNoHalf) (h : CaseSpan.map? spans n = some m) : Text.IsNoHalf m := by
  obtain ⟨s, hf, rfl⟩ := Option.map_eq_some_iff.mp h
  have hapart := hb s (List.mem_of_find?_eq_some hf)
  have hp := List.find?_some hf
  simp only [Bool.and_eq_true, decide_eq_true_eq] at hp
  omega

/-- A character of a case table, or the character itself. -/
theorem isHalf_mapped {spans : List CaseSpan} {c : Char}
    (hb : ∀ s ∈ spans, s.IsNoHalf) (h : isHalf c = false) :
    isHalf (Char.ofNat ((CaseSpan.map? spans c.toNat).getD c.toNat)) = false := by
  cases hm : CaseSpan.map? spans c.toNat with
  | none =>
      rw [Option.getD_none, Char.ofNat_toNat]
      exact h
  | some m => exact isHalf_ofNat (CaseSpan.isNoHalf_of_map? hb hm)

theorem areWhole_listed {entries : List (Nat × List Nat)} {n : Nat} {ns : List Nat}
    (hb : ∀ entry ∈ entries, ∀ m ∈ entry.2, IsNoHalf m) (h : entries.lookup n = some ns) :
    AreWhole (ns.map Char.ofNat) := by
  intro c hc
  obtain ⟨m, hm, rfl⟩ := List.mem_map.mp hc
  obtain ⟨_, _, rfl, -⟩ := List.lookup_eq_some_iff.mp h
  exact isHalf_ofNat (hb (n, ns) (by simp) m hm)

theorem areWhole_lowerChar {c : Char} (h : isHalf c = false) : AreWhole (lowerChar c) := by
  unfold lowerChar
  split
  · simpa using isHalf_toLower h
  · split
    · simp only [areWhole_cons, areWhole_nil, and_true]
      exact ⟨by decide, by decide⟩
    · simpa using isHalf_mapped (by decide +kernel) h

theorem areWhole_upperChar {c : Char} (h : isHalf c = false) : AreWhole (upperChar c) := by
  unfold upperChar
  split
  · simpa using isHalf_toUpper h
  · split
    next hl => exact areWhole_listed (by decide +kernel) hl
    next => simpa using isHalf_mapped (by decide +kernel) h

theorem areWhole_titleChar {c : Char} (h : isHalf c = false) : AreWhole (titleChar c) := by
  unfold titleChar
  split
  next hl => exact areWhole_listed (by decide +kernel) hl
  next => exact areWhole_upperChar h

theorem areWhole_lowerFrom {before cs : List Char} (h : AreWhole cs) :
    AreWhole (lowerFrom before cs) := by
  induction cs generalizing before with
  | nil => exact areWhole_nil
  | cons c rest ih =>
      obtain ⟨hc, hrest⟩ := areWhole_cons.mp h
      rw [lowerFrom, areWhole_append]
      refine ⟨?_, ih hrest⟩
      split
      · split <;> simp only [areWhole_cons, areWhole_nil, and_true] <;> decide
      · exact areWhole_lowerChar hc

theorem isWhole_lower {s : String} (h : isWhole s = true) : isWhole (lower s) = true := by
  rw [lower, isWhole_ofList]
  exact areWhole_lowerFrom (isWhole_iff.mp h)

theorem isWhole_upper {s : String} (h : isWhole s = true) : isWhole (upper s) = true := by
  rw [upper, isWhole_ofList]
  exact areWhole_flatMap fun c hc => areWhole_upperChar (isWhole_iff.mp h c hc)

theorem isWhole_capitalize {s : String} (h : isWhole s = true) : isWhole (capitalize s) = true := by
  have hs := isWhole_iff.mp h
  unfold capitalize
  split
  next => rfl
  next c rest heq =>
    rw [heq, areWhole_cons] at hs
    rw [isWhole_ofList, areWhole_append]
    exact ⟨areWhole_titleChar hs.1, areWhole_lowerFrom hs.2⟩

theorem isWhole_lowerFirst {s : String} (h : isWhole s = true) : isWhole (lowerFirst s) = true := by
  have hs := isWhole_iff.mp h
  unfold lowerFirst
  split
  next => rfl
  next c rest heq =>
    rw [heq, areWhole_cons] at hs
    rw [isWhole_ofList, areWhole_append]
    exact ⟨areWhole_lowerFrom (areWhole_cons.mpr ⟨hs.1, areWhole_nil⟩), hs.2⟩

/-! ## Numbers and escapes -/

theorem isHalf_digitChar : ∀ d < 16, isHalf (Nat.digitChar d) = false := by decide

theorem areWhole_toDigits {b : Nat} (hb : 1 < b) (hl : b ≤ 16) (n : Nat) :
    AreWhole (Nat.toDigits b n) := by
  induction n using Nat.strongRecOn with
  | ind n ih =>
      rw [Nat.toDigits_eq_if hb]
      split
      · simp [isHalf_digitChar n (by omega)]
      · have hd : n % b < 16 := Nat.lt_of_lt_of_le (Nat.mod_lt _ (by omega)) hl
        rw [areWhole_append]
        refine ⟨ih _ (Nat.div_lt_self (by omega) hb), ?_⟩
        simp [isHalf_digitChar _ hd]

@[simp] theorem isWhole_repr (n : Nat) : isWhole n.repr = true := by
  rw [isWhole_iff, Nat.toList_repr]
  exact areWhole_toDigits (by decide) (by decide) n

@[simp] theorem isWhole_toString_int (n : Int) : isWhole (toString n) = true := by
  cases n with
  | ofNat n => exact isWhole_repr n
  | negSucc n =>
      show isWhole ("-" ++ (n + 1).repr) = true
      rw [isWhole_append]
      exact ⟨rfl, isWhole_repr _⟩

theorem areWhole_replicate {c : Char} (n : Nat) (h : isHalf c = false) :
    AreWhole (List.replicate n c) := by
  intro d hd
  rwa [List.eq_of_mem_replicate hd]

theorem areWhole_hexDigits (width n : Nat) : AreWhole (hexDigits width n) := by
  rw [hexDigits, areWhole_append]
  exact ⟨areWhole_replicate _ (by decide), areWhole_toDigits (by decide) (by decide) n⟩

theorem areWhole_escape {kind : Char} (width n : Nat) (h : isHalf kind = false) :
    AreWhole ('\\' :: kind :: hexDigits width n) := by
  rw [areWhole_cons, areWhole_cons]
  exact ⟨by decide, h, areWhole_hexDigits width n⟩

theorem areWhole_numbered (n : Nat) : AreWhole (numbered n) := by
  unfold numbered
  split
  · exact areWhole_escape _ _ (by decide)
  · split
    · exact areWhole_escape _ _ (by decide)
    · exact areWhole_escape _ _ (by decide)

theorem isHalf_of_isPrintable {c : Char} (h : isPrintable c = true) : isHalf c = false := by
  unfold isPrintable at h
  split at h
  case isTrue hc => exact isHalf_of_lt (Nat.lt_trans hc (by decide))
  case isFalse => exact isHalf_of_inSpans (by decide +kernel) h

theorem isHalf_of_isPlain {c : Char} (h : isPlain c = true) : isHalf c = false := by
  simp only [isPlain, Bool.and_eq_true, decide_eq_true_eq] at h
  exact isHalf_of_lt (Nat.lt_trans h.2 (by decide))

/-- An escape of one character. -/
theorem areWhole_marked {c : Char} (h : isHalf c = false) : AreWhole ['\\', c] := by
  rw [areWhole_cons, areWhole_cons]
  exact ⟨by decide, h, areWhole_nil⟩

theorem areWhole_quotedChar {quote : Char} (c : Char) (hq : isHalf quote = false) :
    AreWhole (quotedChar quote c) := by
  unfold quotedChar
  split
  case isTrue hc =>
    rcases hc with rfl | rfl
    · exact areWhole_marked hq
    · exact areWhole_marked (by decide)
  split
  case isTrue => exact areWhole_marked (by decide)
  split
  case isTrue => exact areWhole_marked (by decide)
  split
  case isTrue => exact areWhole_marked (by decide)
  split
  case isTrue hp => simpa using isHalf_of_isPrintable hp
  case isFalse => exact areWhole_numbered _

theorem areWhole_quotedLetter {quote : Char} (letter : Letter) (hq : isHalf quote = false) :
    AreWhole (quotedLetter quote letter) := by
  unfold quotedLetter
  split
  next c => exact areWhole_quotedChar c hq
  next => exact areWhole_numbered _

theorem isHalf_enclosingQuote (cs : List Char) : isHalf (enclosingQuote cs) = false := by
  unfold enclosingQuote
  split <;> decide

/-- Quoted text has no lone halves, whatever the text has. -/
@[simp] theorem isWhole_quoted (s : String) : isWhole (quoted s) = true := by
  have hq := isHalf_enclosingQuote s.toList
  unfold quoted
  simp only [isWhole_ofList, List.cons_append, areWhole_cons, areWhole_append, areWhole_nil,
    and_true]
  exact ⟨hq, areWhole_flatMap fun letter _ => areWhole_quotedLetter letter hq, hq⟩

@[simp] theorem isWhole_quotedBytes (bytes : List UInt8) :
    isWhole (quotedBytes bytes) = true := by
  have hq := isHalf_enclosingQuote (bytes.map fun b => Char.ofNat b.toNat)
  unfold quotedBytes
  simp only [isWhole_ofList, List.cons_append, areWhole_cons, areWhole_append, areWhole_nil,
    and_true]
  refine ⟨by decide, hq, areWhole_flatMap fun c _ => ?_, hq⟩
  split
  · exact areWhole_quotedChar c hq
  · exact areWhole_numbered _

theorem areWhole_unitEscapes (n : Nat) : AreWhole (unitEscapes n) :=
  areWhole_flatMap fun unit _ => areWhole_escape 4 unit (by decide)

theorem areWhole_literalChar {keeps : Char → Bool} (c : Char)
    (hk : keeps c = true → isHalf c = false) : AreWhole (literalChar keeps c) := by
  unfold literalChar
  split
  case isTrue => exact areWhole_marked (by decide)
  split
  case isTrue => exact areWhole_marked (by decide)
  split
  case isTrue => exact areWhole_marked (by decide)
  split
  case isTrue => exact areWhole_marked (by decide)
  split
  case isTrue => exact areWhole_marked (by decide)
  split
  case isTrue => exact areWhole_marked (by decide)
  split
  case isTrue => exact areWhole_marked (by decide)
  split
  case isTrue hc => simpa using hk hc
  case isFalse => exact areWhole_unitEscapes _

theorem areWhole_literalLetter {keeps : Char → Bool} (letter : Letter)
    (hk : ∀ c, keeps c = true → isHalf c = false) : AreWhole (literalLetter keeps letter) := by
  unfold literalLetter
  split
  next c => exact areWhole_literalChar c (hk c)
  next => exact areWhole_unitEscapes _

@[simp] theorem isWhole_literal (s : String) : isWhole (literal s) = true := by
  unfold literal
  simp only [isWhole_ofList, List.cons_append, areWhole_cons, areWhole_append, areWhole_nil,
    and_true]
  exact ⟨by decide, areWhole_flatMap fun letter _ =>
    areWhole_literalLetter letter fun _ => isHalf_of_isPlain, by decide⟩

/-! ## Parts of a text -/

theorem afterLast_subset (sep : Char) (cs : List Char) : afterLast sep cs ⊆ cs := by
  intro c hc
  simp only [afterLast, List.mem_reverse] at hc
  exact List.mem_reverse.mp ((List.takeWhile_sublist _).subset hc)

theorem beforeLast_subset (sep : Char) (cs : List Char) : beforeLast sep cs ⊆ cs := by
  intro c hc
  simp only [beforeLast, List.mem_reverse] at hc
  exact List.mem_reverse.mp ((List.dropWhile_sublist _).subset (List.mem_of_mem_drop hc))

theorem dropTail_subset {α : Type} (p : α → Bool) (xs : List α) : dropTail p xs ⊆ xs := by
  intro x hx
  simp only [dropTail, List.mem_reverse] at hx
  exact List.mem_reverse.mp ((List.dropWhile_sublist _).subset hx)

theorem isWhole_trimSlashes {s : String} (h : isWhole s = true) :
    isWhole (trimSlashes s) = true := by
  rw [trimSlashes, isWhole_ofList]
  refine (isWhole_iff.mp h).of_subset fun c hc => ?_
  exact (List.dropWhile_sublist _).subset (dropTail_subset _ _ hc)

theorem mem_splitOn {sep c : Char} {cs piece : List Char} (hp : piece ∈ splitOn sep cs)
    (hc : c ∈ piece) : c ∈ cs := by
  induction cs generalizing piece with
  | nil => simp_all [splitOn]
  | cons d cs ih =>
      rw [splitOn] at hp
      split at hp
      · rcases List.mem_cons.mp hp with rfl | hp
        · cases hc
        · exact List.mem_cons_of_mem _ (ih hp hc)
      · split at hp
        next => simp_all
        next first rest heq =>
          rcases List.mem_cons.mp hp with rfl | hp
          · rcases List.mem_cons.mp hc with rfl | hc
            · exact List.mem_cons_self
            · exact List.mem_cons_of_mem _ (ih (by rw [heq]; exact List.mem_cons_self) hc)
          · exact List.mem_cons_of_mem _ (ih (by rw [heq]; exact List.mem_cons_of_mem _ hp) hc)

theorem areWhole_replacePair {a b c : Char} {cs : List Char} (hc : isHalf c = false)
    (h : AreWhole cs) : AreWhole (replacePair a b c cs) := by
  fun_induction replacePair a b c cs with
  | case1 => exact h
  | case2 x => exact h
  | case3 x y rest _ ih =>
      simp only [areWhole_cons] at h ⊢
      exact ⟨hc, ih h.2.2⟩
  | case4 x y rest _ ih =>
      simp only [areWhole_cons] at h ih ⊢
      exact ⟨h.1, ih h.2⟩

/-- A run consists of what it was cut for. -/
theorem mem_runs {p : Char → Bool} {c : Char} {cs run : List Char} (hr : run ∈ runs p cs)
    (hc : c ∈ run) : p c = true := by
  fun_induction runs p cs generalizing run with
  | case1 => cases hr
  | case2 d hp => grind
  | case3 d hp e cs he hnil ih => grind
  | case4 d hp e cs he first rest heq ih => grind
  | case5 d hp e cs he ih => grind
  | case6 d cs hp ih => exact ih hr hc

/-! ## Paths of URLs -/

theorem cutAt?_subset {sep : Char} {cs front back : List Char}
    (h : cutAt? sep cs = some (front, back)) : back ⊆ cs := by
  unfold cutAt? at h
  split at h
  next => cases h
  next d after heq =>
    simp only [Option.some.injEq, Prod.mk.injEq] at h
    obtain ⟨-, rfl⟩ := h
    intro c hc
    exact (List.dropWhile_sublist _).subset (heq ▸ List.mem_cons_of_mem d hc)

end Text

namespace Url

open Text

theorem clean_subset (cs : List Char) : clean cs ⊆ cs := fun _ hc =>
  (List.dropWhile_sublist _).subset (List.mem_filter.mp hc).1

theorem splitScheme_subset (cs : List Char) : (splitScheme cs).2 ⊆ cs := by
  unfold splitScheme
  split
  next scheme rest hcut =>
    split
    · exact cutAt?_subset hcut
    · exact List.Subset.refl _
  next => exact List.Subset.refl _

theorem dropAuthority?_subset {cs rest : List Char} (h : dropAuthority? cs = some rest) :
    rest ⊆ cs := by
  unfold dropAuthority? at h
  split at h
  next tail =>
    dsimp only at h
    split at h
    · cases h
      intro c hc
      exact List.mem_cons_of_mem _ (List.mem_cons_of_mem _ ((List.dropWhile_sublist _).subset hc))
    · cases h
  next =>
    cases h
    exact List.Subset.refl _

theorem dropParameters_subset (cs : List Char) : dropParameters cs ⊆ cs := by
  intro c hc
  rcases List.mem_append.mp hc with hc | hc
  · exact List.mem_of_mem_take hc
  · exact afterLast_subset _ _ ((List.takeWhile_sublist _).subset hc)

theorem isWhole_path {url path : String} (hu : isWhole url = true) (h : path? url = some path) :
    isWhole path = true := by
  unfold path? at h
  cases hsplit : splitScheme (clean url.toList) with
  | mk scheme tail =>
      have htail : tail ⊆ url.toList := fun c hc =>
        clean_subset _ (splitScheme_subset _ (hsplit ▸ hc))
      simp only [hsplit] at h
      obtain ⟨rest, hrest, rfl⟩ := Option.map_eq_some_iff.mp h
      rw [isWhole_ofList]
      refine (isWhole_iff.mp hu).of_subset fun c hc => htail (dropAuthority?_subset hrest ?_)
      split at hc
      · exact (List.takeWhile_sublist _).subset ((List.takeWhile_sublist _).subset
          (dropParameters_subset _ hc))
      · exact (List.takeWhile_sublist _).subset ((List.takeWhile_sublist _).subset hc)

end Url

end ApiScaffold
