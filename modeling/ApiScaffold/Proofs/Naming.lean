import ApiScaffold.Proofs.Text.Whole

/-!
# What names consist of

The words of a name are letters and digits of ASCII, so that a name in any case style has no lone
half, whatever the text is that it was made from. What keeps other characters of a text, as the
segments of a path or the escape of a reserved word do, has no lone half if the text has none.

These are the facts about names that the conservation of whole texts needs; that names are
identifiers is in `Proofs.Target.Identifiers`.
-/

namespace ApiScaffold.Naming

open Text

theorem isHalf_of_isWordChar {c : Char} (h : isWordChar c = true) : isHalf c = false := by
  apply isHalf_of_lt
  show c.val.toNat < 0xE000
  have hspans : (decide (c.val ≥ 65 ∧ c.val ≤ 90)
      || (decide (c.val ≥ 97) && decide (c.val ≤ 122))
      || (decide (c.val ≥ 48) && decide (c.val ≤ 57))) = true := h
  simp only [Bool.or_eq_true, Bool.and_eq_true, decide_eq_true_eq] at hspans
  rcases hspans with (h | h) | h
  · have hle : c.val.toNat ≤ 90 := UInt32.le_iff_toNat_le.mp h.2
    omega
  · have hle : c.val.toNat ≤ 122 := UInt32.le_iff_toNat_le.mp h.2
    omega
  · have hle : c.val.toNat ≤ 57 := UInt32.le_iff_toNat_le.mp h.2
    omega

theorem areWhole_of_mem_words {name word : List Char} (h : word ∈ words name) : AreWhole word :=
  fun _ hc => isHalf_of_isWordChar (mem_runs h hc)

theorem areWhole_capitalizeWord {word : List Char} (h : AreWhole word) :
    AreWhole (capitalizeWord word) := by
  cases word with
  | nil => exact h
  | cons c rest =>
      rw [areWhole_cons] at h
      exact areWhole_cons.mpr ⟨isHalf_toUpper h.1, h.2⟩

theorem areWhole_uncapitalize {word : List Char} (h : AreWhole word) :
    AreWhole (uncapitalize word) := by
  cases word with
  | nil => exact h
  | cons c rest =>
      rw [areWhole_cons] at h
      exact areWhole_cons.mpr ⟨isHalf_toLower h.1, h.2⟩

theorem areWhole_joinWith {sep : List Char} {pieces : List (List Char)} (hsep : AreWhole sep)
    (h : ∀ piece ∈ pieces, AreWhole piece) : AreWhole (joinWith sep pieces) := by
  fun_induction joinWith sep pieces with
  | case1 => exact areWhole_nil
  | case2 piece => exact h piece List.mem_cons_self
  | case3 piece pieces _ ih =>
      simp only [areWhole_append]
      exact ⟨⟨h piece List.mem_cons_self, hsep⟩,
        ih fun other ho => h other (List.mem_cons_of_mem _ ho)⟩

theorem areWhole_pascalChars (name : List Char) : AreWhole (pascalChars name) :=
  areWhole_flatMap fun _ hw => areWhole_capitalizeWord (areWhole_of_mem_words hw)

theorem areWhole_snakeChars (name : List Char) : AreWhole (snakeChars name) := by
  refine areWhole_joinWith (by simp; decide) fun piece hp => ?_
  obtain ⟨word, hw, rfl⟩ := List.mem_map.mp hp
  intro c hc
  obtain ⟨d, hd, rfl⟩ := List.mem_map.mp hc
  exact isHalf_toLower (areWhole_of_mem_words hw d hd)

@[simp] theorem isWhole_pascalCase (name : String) : isWhole (pascalCase name) = true := by
  rw [pascalCase, isWhole_ofList]
  exact areWhole_pascalChars _

@[simp] theorem isWhole_camelCase (name : String) : isWhole (camelCase name) = true := by
  rw [camelCase, isWhole_ofList]
  exact areWhole_uncapitalize (areWhole_pascalChars _)

@[simp] theorem isWhole_snakeCase (name : String) : isWhole (snakeCase name) = true := by
  rw [snakeCase, isWhole_ofList]
  exact areWhole_snakeChars _

@[simp] theorem isWhole_constant (s : String) : isWhole (constant s) = true := by
  have hmarked : ∀ name : String, isWhole name = true →
      isWhole (if startsWithDigit name then "_" ++ name else name) = true := by
    intro name hn
    split
    · rw [isWhole_append]
      exact ⟨by decide, hn⟩
    · exact hn
  have hupper := isWhole_upper (isWhole_snakeCase s)
  unfold constant
  generalize upper (snakeCase s) = name at hupper ⊢
  by_cases he : name = ""
  · simp only [he, if_true]
    decide
  · simp only [he, if_false]
    exact hmarked name hupper

theorem isWhole_escapeReserved {name before after : String} (reserved : List String)
    (hn : isWhole name = true) (hb : isWhole before = true) (ha : isWhole after = true) :
    isWhole (escapeReserved name reserved before after) = true := by
  unfold escapeReserved
  split
  · rw [isWhole_append]
    exact ⟨by decide, hn⟩
  · split
    · rw [isWhole_append, isWhole_append]
      exact ⟨⟨hb, hn⟩, ha⟩
    · exact hn

theorem areWhole_markWords {mark : Char} {cs : List Char} (hm : isHalf mark = false)
    (h : AreWhole cs) : AreWhole (markWords mark cs) := by
  fun_induction markWords mark cs with
  | case1 => exact h
  | case2 c => exact h
  | case3 c d rest _ ih =>
      simp only [areWhole_cons] at h ih ⊢
      exact ⟨h.1, hm, ih h.2⟩
  | case4 c d rest _ ih =>
      simp only [areWhole_cons] at h ih ⊢
      exact ⟨h.1, ih h.2⟩

theorem areWhole_markCapitalRuns {cs : List Char} (h : AreWhole cs) :
    AreWhole (markCapitalRuns cs) := by
  fun_induction markCapitalRuns cs with
  | case1 c d e rest _ ih =>
      simp only [areWhole_cons] at h ih ⊢
      exact ⟨h.1, by decide, ih h.2⟩
  | case2 c d e rest _ ih =>
      simp only [areWhole_cons] at h ih ⊢
      exact ⟨h.1, ih h.2⟩
  | case3 cs => exact h

theorem isWhole_camelToSnake {name : String} (h : isWhole name = true) :
    isWhole (camelToSnake name) = true := by
  apply isWhole_lower
  rw [isWhole_ofList]
  exact areWhole_markWords (by decide) (areWhole_markCapitalRuns (isWhole_iff.mp h))

/-! ## Names from a path -/

theorem areWhole_segment {path : String} {segment : List Char} (h : isWhole path = true)
    (hs : segment ∈ splitOn '/' path.toList) : AreWhole segment :=
  (isWhole_iff.mp h).of_subset fun _ hc => mem_splitOn hs hc

theorem isWhole_literals {path literal : String} (h : isWhole path = true)
    (hl : literal ∈ (PathParts.ofPath path).literals) : isWhole literal = true := by
  obtain ⟨segment, hs, rfl⟩ := List.mem_map.mp hl
  rw [isWhole_ofList]
  exact areWhole_segment h (List.mem_filter.mp (List.mem_filter.mp hs).1).1

theorem isWhole_pathGroup {path : String} (h : isWhole path = true) :
    isWhole (pathGroup path) = true := by
  unfold pathGroup
  cases hl : (PathParts.ofPath path).literals with
  | nil => decide
  | cons literal rest => exact isWhole_literals h (by rw [hl]; exact List.mem_cons_self)

theorem isWhole_operationId {method : String} (path : String) (h : isWhole method = true) :
    isWhole (operationId method path) = true := by
  have hpascal : ∀ names : List String, ∀ s ∈ names.map pascalCase, isWhole s = true := by
    intro names s hs
    obtain ⟨name, -, rfl⟩ := List.mem_map.mp hs
    exact isWhole_pascalCase name
  have hnamed : isWhole (lower method
      ++ String.join ((PathParts.ofPath path).literals.map pascalCase)) = true := by
    rw [isWhole_append]
    exact ⟨isWhole_lower h, isWhole_join (hpascal _)⟩
  unfold operationId
  dsimp only
  split
  · rw [isWhole_append]
    exact ⟨isWhole_lower h, by decide⟩
  · split
    · exact hnamed
    · rw [isWhole_append, isWhole_append]
      exact ⟨⟨hnamed, by decide⟩, isWhole_intercalate (by decide) (hpascal _)⟩

end ApiScaffold.Naming
