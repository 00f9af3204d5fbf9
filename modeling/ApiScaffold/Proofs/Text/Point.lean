import ApiScaffold.Text.Point

/-!
# Texts and their code points

A text spells code points, and these theorems are the two directions of that.

* `points_ofPoints`: what is spelt is read back, code point by code point, whatever stands next to
  it. A lead is no start of another letter and a trail is no start of any, so no cut but the right
  one exists (`letters_append`).
* `flatten_letters`: nothing of a text is lost when it is cut into its letters.
* `ofPoints_lt_iff`: texts are in the order of their code points, so that names are sorted as they
  would be without the spelling.

What a letter can be is said once, by `Spells` for the letter of a code point and by `letter_cases`
for the letters of any text; the rest follows from the bounds of the four kinds of characters.
-/

namespace ApiScaffold.Text

variable {m n : Nat} {c : Char} {cs rest : List Char} {letter : Letter} {ms ns : List Nat}

/-! ## Characters by their numbers -/

theorem toNat_valid (c : Char) : c.toNat < 0xD800 ∨ 0xDFFF < c.toNat ∧ c.toNat < 0x110000 :=
  c.valid

theorem toNat_ofNat (h : n < 0xD800 ∨ 0xDFFF < n ∧ n < 0x110000) : (Char.ofNat n).toNat = n := by
  rw [Char.ofNat, dif_pos h]
  rfl

theorem isHalfUnit_iff : isHalfUnit n = true ↔ 0xD800 ≤ n ∧ n < 0xE000 := by
  simp only [isHalfUnit, isFirstHalf, isSecondHalf, Bool.or_eq_true, Bool.and_eq_true,
    decide_eq_true_eq]
  omega

theorem isHalf_iff : isHalf c = true ↔ 0xE000 ≤ c.toNat ∧ c.toNat < 0xE800 := by
  simp only [isHalf, Bool.and_eq_true, decide_eq_true_eq]
  rfl

theorem isLead_iff : isLead c = true ↔ 0xE800 ≤ c.toNat ∧ c.toNat < 0xE830 := by
  simp only [isLead, Bool.and_eq_true, decide_eq_true_eq]
  rfl

theorem isTrail_iff : isTrail c = true ↔ 0xE830 ≤ c.toNat ∧ c.toNat < 0xE860 := by
  simp only [isTrail, Bool.and_eq_true, decide_eq_true_eq]
  rfl

/-! ## The letter of a code point -/

/-- The three ways in which a letter spells a code point. -/
inductive Spells : Nat → Letter → Prop
  | half {n : Nat} {c : Char} (hc : isHalf c = true) (hn : n + 0x800 = c.toNat) : Spells n [c]
  | pair {n : Nat} {a b : Char} (ha : isLead a = true) (hb : isTrail b = true)
      (hn : n = 0xE000 + (a.toNat - 0xE800) * 48 + (b.toNat - 0xE830)) (h : n < 0xE860) :
      Spells n [a, b]
  | self {c : Char} (hc : c.toNat < 0xE000 ∨ 0xE860 ≤ c.toNat) : Spells c.toNat [c]

theorem spells_spell (h : n < 0x110000) : Spells n (spell n) := by
  unfold spell
  simp only [Bool.and_eq_true, decide_eq_true_eq, isHalfUnit_iff]
  rw [halfStart, leadStart, trailStart, spellEnd, trails]
  split
  next hhalf =>
    have hc : (Char.ofNat (0xE000 + (n - 0xD800))).toNat = 0xE000 + (n - 0xD800) :=
      toNat_ofNat (by omega)
    exact .half (isHalf_iff.mpr (by omega)) (by omega)
  next hhalf =>
    split
    next hpair =>
      have ha : (Char.ofNat (0xE800 + (n - 0xE000) / 48)).toNat = 0xE800 + (n - 0xE000) / 48 :=
        toNat_ofNat (by omega)
      have hb : (Char.ofNat (0xE830 + (n - 0xE000) % 48)).toNat = 0xE830 + (n - 0xE000) % 48 :=
        toNat_ofNat (by omega)
      exact .pair (isLead_iff.mpr (by omega)) (isTrail_iff.mpr (by omega)) (by omega) hpair.2
    next hpair =>
      have hc : (Char.ofNat n).toNat = n := toNat_ofNat (by omega)
      have hself := Spells.self (c := Char.ofNat n) (by omega)
      rwa [hc] at hself

theorem Spells.point_eq (h : Spells n letter) : point letter = n := by
  cases h with
  | half hc hn =>
      rw [point, if_pos hc]
      rw [isHalf_iff] at hc
      simp only [halfStart]
      omega
  | pair ha hb hn _ => exact hn.symm
  | @self c hc =>
      have hnot : ¬isHalf c = true := by
        rw [isHalf_iff]
        omega
      rw [point, if_neg hnot]

theorem point_spell (h : n < 0x110000) : point (spell n) = n := (spells_spell h).point_eq

/-! ## The letters of a text -/

theorem letters_cons (h : isLead c = false) : letters (c :: rest) = [c] :: letters rest := by
  cases rest with
  | nil => rfl
  | cons d rest => rw [letters, h, Bool.false_and, if_neg Bool.false_ne_true]

/-- A letter ends where the next one starts. -/
theorem Spells.letters_append (h : Spells n letter) :
    letters (letter ++ rest) = letter :: letters rest := by
  cases h with
  | half hc hn =>
      refine letters_cons (Bool.eq_false_iff.mpr fun hlead => ?_)
      rw [isHalf_iff] at hc
      rw [isLead_iff] at hlead
      omega
  | pair ha hb =>
      rw [List.cons_append, List.cons_append, List.nil_append, letters, ha, hb, Bool.and_self,
        if_pos rfl]
  | self hc =>
      refine letters_cons (Bool.eq_false_iff.mpr fun hlead => ?_)
      rw [isLead_iff] at hlead
      omega

theorem letters_flatMap_spell (h : ∀ n ∈ ns, n < 0x110000) :
    letters (ns.flatMap spell) = ns.map spell := by
  induction ns with
  | nil => rfl
  | cons n ns ih =>
      rw [List.forall_mem_cons] at h
      rw [List.flatMap_cons, (spells_spell h.1).letters_append, ih h.2, List.map_cons]

/-- A letter is one character, or a lead and a trail. -/
theorem letter_cases (h : letter ∈ letters cs) :
    (∃ c ∈ cs, letter = [c])
      ∨ ∃ a ∈ cs, ∃ b ∈ cs, isLead a = true ∧ isTrail b = true ∧ letter = [a, b] := by
  fun_induction letters cs with
  | case1 a b rest hpair ih =>
      rw [Bool.and_eq_true] at hpair
      rcases List.mem_cons.mp h with rfl | h
      · exact .inr ⟨a, by simp, b, by simp, hpair.1, hpair.2, rfl⟩
      · exact (ih h).imp (by grind) (by grind)
  | case2 a b rest _ ih =>
      rcases List.mem_cons.mp h with rfl | h
      · exact .inl ⟨a, by simp, rfl⟩
      · exact (ih h).imp (by grind) (by grind)
  | case3 a => exact .inl ⟨a, by simp, List.mem_singleton.mp h⟩
  | case4 => cases h

theorem subset_of_mem_letters (h : letter ∈ letters cs) : letter ⊆ cs := by
  rcases letter_cases h with ⟨c, hc, rfl⟩ | ⟨a, ha, b, hb, -, -, rfl⟩
  · simpa using hc
  · simpa using ⟨ha, hb⟩

theorem point_lt (h : letter ∈ letters cs) : point letter < 0x110000 := by
  rcases letter_cases h with ⟨c, -, rfl⟩ | ⟨a, -, b, -, ha, hb, rfl⟩
  · have hvalid := toNat_valid c
    rw [point]
    split
    next hc =>
      rw [isHalf_iff] at hc
      simp only [halfStart]
      omega
    next => omega
  · rw [isLead_iff] at ha
    rw [isTrail_iff] at hb
    simp only [point, halfStart, leadStart, trailStart, trails]
    omega

/-- The letters of a text are all of it. -/
theorem flatten_letters (cs : List Char) : (letters cs).flatten = cs := by
  fun_induction letters cs with
  | case1 a b rest _ ih => rw [List.flatten_cons, ih]; rfl
  | case2 a b rest _ ih => rw [List.flatten_cons, ih]; rfl
  | case3 a => rfl
  | case4 => rfl

@[simp] theorem letters_eq_nil : letters cs = [] ↔ cs = [] := by
  fun_cases letters cs <;> simp

/-! ## Reading back -/

/-- The code points that are spelt are those of the text. -/
theorem points_ofPoints (h : ∀ n ∈ ns, n < 0x110000) : points (ofPoints ns) = ns := by
  have hpoints : ns.map (point ∘ spell) = ns.map id :=
    List.map_congr_left fun n hn => point_spell (h n hn)
  rw [points, ofPoints, String.toList_ofList, letters_flatMap_spell h, List.map_map, hpoints,
    List.map_id]

theorem forall_mem_toNat_lt (s : String) : ∀ n ∈ s.toList.map Char.toNat, n < 0x110000 := by
  intro n hn
  obtain ⟨c, -, rfl⟩ := List.mem_map.mp hn
  have hvalid := toNat_valid c
  omega

@[simp] theorem points_spelt (s : String) : points (spelt s) = s.toList.map Char.toNat :=
  points_ofPoints (forall_mem_toNat_lt s)

theorem map_ofNat_toNat (cs : List Char) : (cs.map Char.toNat).map Char.ofNat = cs := by
  rw [List.map_map]
  exact List.map_id'' Char.ofNat_toNat cs

@[simp] theorem plain_spelt (s : String) : plain (spelt s) = s := by
  rw [plain, points_spelt, map_ofNat_toNat, String.ofList_toList]

theorem spelt_inj {s t : String} : spelt s = spelt t ↔ s = t :=
  ⟨fun h => by rw [← plain_spelt s, h, plain_spelt], congrArg spelt⟩

/-! ## Order -/

/-- Letters of different code points differ where they start, or else in a trail. -/
theorem spell_append_lt {rest' : List Char} (hn : n < 0x110000) (h : m < n) :
    spell m ++ rest < spell n ++ rest' := by
  have first {a b : Char} {as bs : List Char} (hab : a.toNat < b.toNat) : a :: as < b :: bs :=
    List.cons_lt_cons_iff.mpr (.inl hab)
  have hm := spells_spell (Nat.lt_trans h hn)
  have hn := spells_spell hn
  generalize spell m = before at hm
  generalize spell n = after at hn
  cases hm with
  | @half m c hc hm =>
      rw [isHalf_iff] at hc
      cases hn with
      | half hd hn => exact first (by omega)
      | pair ha =>
          rw [isLead_iff] at ha
          exact first (by omega)
      | @self d hd =>
          have hvalid := toNat_valid d
          exact first (by omega)
  | @pair m a b ha hb hm =>
      rw [isLead_iff] at ha
      rw [isTrail_iff] at hb
      cases hn with
      | half hd hn =>
          rw [isHalf_iff] at hd
          omega
      | @pair n a' b' ha' hb' hn =>
          rw [isLead_iff] at ha'
          rw [isTrail_iff] at hb'
          by_cases hlead : a.toNat < a'.toNat
          · exact first hlead
          · -- one lead, and the trails differ
            obtain rfl : a = a' := Char.toNat_inj.mp (by omega)
            exact List.cons_lt_cons_iff.mpr (.inr ⟨rfl, first (by omega)⟩)
      | self hd => exact first (by omega)
  | @self c hc =>
      cases hn with
      | half hd hn =>
          rw [isHalf_iff] at hd
          exact first (by omega)
      | pair ha hb hn =>
          rw [isLead_iff] at ha
          exact first (by omega)
      | self hd => exact first h

theorem ofPoints_lt (hm : ∀ n ∈ ms, n < 0x110000) (hn : ∀ n ∈ ns, n < 0x110000) (h : ms < ns) :
    ofPoints ms < ofPoints ns := by
  rw [String.lt_iff, ofPoints, ofPoints, String.toList_ofList, String.toList_ofList]
  induction ms generalizing ns with
  | nil =>
      cases ns with
      | nil => cases h
      | cons n ns =>
          rw [List.flatMap_cons]
          have hs := spells_spell (List.forall_mem_cons.mp hn).1
          generalize spell n = letter at hs
          cases hs <;> exact List.nil_lt_cons _ _
  | cons m ms ih =>
      cases ns with
      | nil => cases h
      | cons n ns =>
          rw [List.forall_mem_cons] at hm hn
          rw [List.flatMap_cons, List.flatMap_cons]
          rcases List.cons_lt_cons_iff.mp h with hfirst | ⟨rfl, hrest⟩
          · exact spell_append_lt hn.1 hfirst
          · exact List.append_left_lt (ih hm.2 hn.2 hrest)

/-- Texts are in the order of their code points. -/
theorem ofPoints_lt_iff (hm : ∀ n ∈ ms, n < 0x110000) (hn : ∀ n ∈ ns, n < 0x110000) :
    ofPoints ms < ofPoints ns ↔ ms < ns := by
  refine ⟨fun h => Decidable.byContradiction fun hnot => ?_, ofPoints_lt hm hn⟩
  rcases List.le_iff_lt_or_eq.mp (List.not_lt.mp hnot) with hlt | rfl
  · exact String.lt_asymm h (ofPoints_lt hn hm hlt)
  · exact String.lt_irrefl _ h

end ApiScaffold.Text
