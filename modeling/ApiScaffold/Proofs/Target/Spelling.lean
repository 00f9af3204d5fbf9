import ApiScaffold.Proofs.Target.Identifiers

/-!
# What a field is called before its escape

The escape only puts underscores around the spelling of a name, which has none at its ends. So the
spelling can be read back from the field (`Escapes.unmarked_fieldName`), and two names share a field
exactly if they share a spelling (`Escapes.fieldName_eq_iff`). An accessor has the spelling with a
capital, which keeps fields apart as well (`fieldName_of_accessorStem`).

The words of a word are put together again by capitals (`exists_words`), and a word that starts with
no capital can be read back from what it is with one; this is where the case styles of the targets
come in, and `PutsInFront` and `IsJava` say what is needed of them.
-/

namespace ApiScaffold

namespace Text

variable {p : Char → Bool} {P : Char → Prop} {c d : Char} {sep cs word : List Char}
  {pieces rest : List (List Char)}

theorem runs_cut (hc : p c = true) (hd : p d = false) :
    runs p (c :: d :: cs) = [c] :: runs p cs := by
  have hskip : runs p (d :: cs) = runs p cs := by
    rw [runs.eq_def]
    dsimp only
    rw [hd, if_neg Bool.false_ne_true]
  rw [runs, if_pos hc, hd, if_neg Bool.false_ne_true, hskip]

theorem runs_extend (hc : p c = true) (hd : p d = true) (h : runs p (d :: cs) = word :: rest) :
    runs p (c :: d :: cs) = (c :: word) :: rest := by
  rw [runs, if_pos hc, if_pos hd, h]

theorem ne_nil_of_mem_runs (h : word ∈ runs p cs) : word ≠ [] := by
  fun_induction runs p cs with
  | case1 => cases h
  | case2 c hc =>
      rw [List.mem_singleton.mp h]
      exact List.cons_ne_nil _ _
  | case3 c hc d cs hd hnil ih =>
      rw [hnil] at h
      rw [List.mem_singleton.mp h]
      exact List.cons_ne_nil _ _
  | case4 c hc d cs hd run rest heq ih =>
      rw [heq] at h ih
      rcases List.mem_cons.mp h with rfl | h
      · exact List.cons_ne_nil _ _
      · exact ih (List.mem_cons_of_mem _ h)
  | case5 c hc d cs hd ih =>
      rcases List.mem_cons.mp h with rfl | h
      · exact List.cons_ne_nil _ _
      · exact ih h
  | case6 c cs hc ih => exact ih h

/-- What is joined starts as its first piece does. -/
theorem of_head?_joinWith (h : ∀ piece ∈ pieces, piece ≠ [] ∧ ∀ c ∈ piece, P c)
    (hc : (joinWith sep pieces).head? = some c) : P c := by
  cases pieces with
  | nil => cases hc
  | cons piece rest =>
      obtain ⟨⟨hne, hall⟩, -⟩ := List.forall_mem_cons.mp h
      obtain ⟨first, more, rfl⟩ := List.exists_cons_of_ne_nil hne
      cases rest with
      | nil =>
          cases hc
          exact hall _ List.mem_cons_self
      | cons other rest =>
          cases hc
          exact hall _ List.mem_cons_self

/-- What is joined ends as its last piece does. -/
theorem of_getLast?_joinWith (h : ∀ piece ∈ pieces, piece ≠ [] ∧ ∀ c ∈ piece, P c)
    (hc : (joinWith sep pieces).getLast? = some c) : P c := by
  fun_induction joinWith sep pieces with
  | case1 => cases hc
  | case2 piece =>
      exact (h piece List.mem_cons_self).2 c (List.mem_of_getLast? hc)
  | case3 piece pieces hne ih =>
      obtain ⟨-, hrest⟩ := List.forall_mem_cons.mp h
      apply ih hrest
      rw [List.getLast?_append] at hc
      cases hlast : (joinWith sep pieces).getLast? with
      | some found =>
          rw [hlast] at hc
          exact hc
      | none =>
          -- the pieces behind the first one are not empty, and neither is what they are joined to
          obtain ⟨other, more, rfl⟩ := List.exists_cons_of_ne_nil hne
          obtain ⟨x, hx⟩ := List.exists_mem_of_ne_nil _ (hrest other List.mem_cons_self).1
          rw [List.getLast?_eq_none_iff] at hlast
          have hin : x ∈ joinWith sep (other :: more) :=
            mem_joinWith_of_mem List.mem_cons_self hx
          rw [hlast] at hin
          cases hin

end Text

namespace Naming

open Text

variable {mark c : Char} {cs rest : List Char}

/-! ## The words of a word -/

theorem exists_markWords_cons (mark c : Char) (rest : List Char) :
    ∃ more, markWords mark (c :: rest) = c :: more := by
  cases rest with
  | nil => exact ⟨[], rfl⟩
  | cons d rest =>
      rw [markWords]
      split
      · exact ⟨_, rfl⟩
      · exact ⟨_, rfl⟩

/-- A word that is cut where capitals start words is put together again by capitals: they start the
words already. -/
theorem exists_words (h : ∀ d ∈ c :: rest, isWordChar d = true) :
    ∃ first others, words (c :: rest) = (c :: first) :: others
      ∧ first ++ others.flatMap capitalizeWord = rest := by
  induction rest generalizing c with
  | nil =>
      have hc := h c List.mem_cons_self
      exact ⟨[], [], by rw [words, markWords, runs, if_pos hc], rfl⟩
  | cons d rest ih =>
      obtain ⟨hc, hrest⟩ := List.forall_mem_cons.mp h
      obtain ⟨hd, -⟩ := List.forall_mem_cons.mp hrest
      obtain ⟨first, others, hwords, hparts⟩ := ih hrest
      obtain ⟨more, hmore⟩ := exists_markWords_cons ' ' d rest
      unfold words at hwords ⊢
      rw [markWords]
      split
      case isTrue hstarts =>
        -- the next word starts here, with a capital that stays as it is
        have hupper : d.isUpper = true := (Bool.and_eq_true_iff.mp hstarts).2
        have hascii : d.toNat < 128 := toNat_lt_of_isWordChar hd
        refine ⟨[], (d :: first) :: others, ?_, ?_⟩
        · rw [runs_cut hc (by decide), hwords]
        · rw [List.nil_append, List.flatMap_cons, capitalizeWord,
            toUpper_of_ascii hascii (isLower_of_isUpper hascii hupper), List.cons_append, hparts]
      case isFalse =>
        rw [hmore] at hwords ⊢
        exact ⟨d :: first, others, runs_extend hc hd hwords, congrArg (d :: ·) hparts⟩

theorem pascalChars_of_word (h : ∀ c ∈ cs, isWordChar c = true) :
    pascalChars cs = capitalizeWord cs := by
  cases cs with
  | nil => rfl
  | cons c rest =>
      obtain ⟨first, others, hwords, hparts⟩ := exists_words h
      rw [pascalChars, hwords, List.flatMap_cons, capitalizeWord, List.cons_append, hparts]
      rfl

/-- A word that starts with no capital can be read back from what it is with one. -/
theorem uncapitalize_capitalizeWord (h : ∀ c ∈ cs, isWordChar c = true)
    (hhead : ∀ c, cs.head? = some c → c.isUpper = false) :
    uncapitalize (capitalizeWord cs) = cs := by
  cases cs with
  | nil => rfl
  | cons c rest =>
      have hc := h c List.mem_cons_self
      have hascii : c.toNat < 128 := toNat_lt_of_isWordChar hc
      rw [capitalizeWord, uncapitalize, toLower_toUpper_of_ascii hascii (hhead c rfl)]

theorem isUpper_head_uncapitalize (h : ∀ c ∈ cs, isWordChar c = true) {c : Char}
    (hc : (uncapitalize cs).head? = some c) : c.isUpper = false := by
  cases cs with
  | nil => cases hc
  | cons first rest =>
      have hfirst := h first List.mem_cons_self
      cases hc
      exact isUpper_toLower_of_ascii (toNat_lt_of_isWordChar hfirst)

/-! ## Underscores at the ends -/

/-- A text without underscores at its ends. -/
structure IsBare (cs : List Char) : Prop where
  head : cs.head? ≠ some '_'
  last : cs.getLast? ≠ some '_'

/-- What is left of a text without the underscores at its ends. -/
def unmarked (cs : List Char) : List Char := (cs.dropWhile (· == '_')).rdropWhile (· == '_')

theorem IsBare.dropWhile (h : IsBare cs) : cs.dropWhile (· == '_') = cs := by
  cases cs with
  | nil => rfl
  | cons c rest =>
      apply List.dropWhile_cons_of_neg
      intro hc
      exact h.head (congrArg some (beq_iff_eq.mp hc))

theorem IsBare.rdropWhile (h : IsBare cs) : cs.rdropWhile (· == '_') = cs := by
  rw [List.rdropWhile_eq_self_iff]
  intro hne hlast
  apply h.last
  rw [List.getLast?_eq_getLast_of_ne_nil hne, beq_iff_eq.mp hlast]

theorem unmarked_of_isBare (h : IsBare cs) : unmarked cs = cs := by
  rw [unmarked, h.dropWhile, h.rdropWhile]

theorem unmarked_underscore_append (h : IsBare cs) : unmarked ('_' :: cs) = cs := by
  rw [unmarked, List.dropWhile_cons_of_pos rfl, h.dropWhile, h.rdropWhile]

theorem unmarked_append_underscore (hne : cs ≠ []) (h : IsBare cs) : unmarked (cs ++ ['_']) = cs := by
  obtain ⟨c, rest, rfl⟩ := List.exists_cons_of_ne_nil hne
  have hdrop : (c :: rest ++ ['_']).dropWhile (· == '_') = c :: rest ++ ['_'] :=
    List.dropWhile_cons_of_neg fun hc => h.head (congrArg some (beq_iff_eq.mp hc))
  rw [unmarked, hdrop, List.rdropWhile_concat_pos _ _ _ rfl, h.rdropWhile]

theorem isBare_of_word (h : ∀ c ∈ cs, isWordChar c = true) : IsBare cs where
  head := by
    intro hhead
    have hword := h '_' (List.mem_of_head? hhead)
    revert hword
    decide
  last := by
    intro hlast
    have hword := h '_' (List.mem_of_getLast? hlast)
    revert hword
    decide

theorem isBare_snakeChars (name : List Char) : IsBare (snakeChars name) := by
  have hpieces : ∀ piece ∈ (words name).map (List.map Char.toLower),
      piece ≠ [] ∧ ∀ c ∈ piece, isWordChar c = true := by
    intro piece hp
    obtain ⟨word, hword, rfl⟩ := List.mem_map.mp hp
    refine ⟨mt List.map_eq_nil_iff.mp (ne_nil_of_mem_runs hword), fun c hc => ?_⟩
    obtain ⟨d, hd, rfl⟩ := List.mem_map.mp hc
    exact isWordChar_toLower (mem_runs hword hd)
  constructor
  · intro hhead
    have hword := of_head?_joinWith hpieces hhead
    revert hword
    decide
  · intro hlast
    have hword := of_getLast?_joinWith hpieces hlast
    revert hword
    decide

end Naming

namespace Target

open Naming Text

variable {t : Target}

/-- The name of a field before it is escaped. -/
def spelling (t : Target) (name : String) : String :=
  orDefault (styled t.fieldStyle (sanitize name)) "value"

theorem isPlain_spelling (t : Target) (name : String) : IsPlain (t.spelling name) :=
  isPlain_styled _ _ (isPlain_of_all (by decide) rfl)

theorem isBare_styled (style : CaseStyle) (name : String) : IsBare (styled style name).toList := by
  cases style with
  | camel => exact isBare_of_word fun c hc => isWordChar_of_mem_camelCase hc
  | snake =>
      rw [styled, snakeCase, String.toList_ofList]
      exact isBare_snakeChars _

theorem isBare_spelling (t : Target) (name : String) : IsBare (t.spelling name).toList := by
  unfold spelling orDefault
  split
  · exact ⟨by decide, by decide⟩
  · exact isBare_styled _ _

/-- A field is a spelling, or one with an underscore in front or behind it. -/
theorem Escapes.fieldName_cases (ht : t.Escapes) (name : String) :
    t.fieldName name = t.spelling name ∨ t.fieldName name = "_" ++ t.spelling name
      ∨ t.reservedAffixes.after = "_" ∧ t.fieldName name = t.spelling name ++ "_" := by
  show escapeReserved (t.spelling name) _ _ _ = _ ∨ escapeReserved (t.spelling name) _ _ _ = _
    ∨ _ ∧ escapeReserved (t.spelling name) _ _ _ = _
  unfold escapeReserved
  split
  case isTrue => exact .inr (.inl rfl)
  case isFalse =>
    split
    case isTrue =>
      rcases ht.marks with ⟨hb, ha⟩ | ⟨hb, ha⟩
      · rw [hb, ha, String.append_empty]
        exact .inr (.inl rfl)
      · rw [hb, ha, String.empty_append]
        exact .inr (.inr ⟨rfl, rfl⟩)
    case isFalse => exact .inl rfl

/-- The spelling is read back from the field. -/
theorem Escapes.unmarked_fieldName (ht : t.Escapes) (name : String) :
    unmarked (t.fieldName name).toList = (t.spelling name).toList := by
  have hbare := t.isBare_spelling name
  rcases ht.fieldName_cases name with h | h | ⟨-, h⟩
  · rw [h, unmarked_of_isBare hbare]
  · rw [h, String.toList_append]
    exact unmarked_underscore_append hbare
  · rw [h, String.toList_append]
    exact unmarked_append_underscore (mt String.toList_eq_nil_iff.mp (t.isPlain_spelling name).nonempty)
      hbare

/-- Names share a field exactly if they share a spelling. -/
theorem Escapes.fieldName_eq_iff (ht : t.Escapes) {a b : String} :
    t.fieldName a = t.fieldName b ↔ t.spelling a = t.spelling b := by
  constructor
  · intro h
    rw [← String.toList_inj, ← ht.unmarked_fieldName, ← ht.unmarked_fieldName, h]
  · intro h
    show escapeReserved (t.spelling a) _ _ _ = escapeReserved (t.spelling b) _ _ _
    rw [h]

/-! ## Accessors -/

/-- A target whose fields are words with capitals, with an escape in front only. -/
structure PutsInFront (t : Target) : Prop where
  escapes : t.Escapes
  style : t.fieldStyle = .camel
  after : t.reservedAffixes.after = ""

theorem putsInFront_of_bean (h : t ∈ [jaxrsSpec, spring, python]) (hb : t.accessors = .bean) :
    t.PutsInFront := by
  have hesc := escapes_of_builtin h
  simp only [List.mem_cons, List.not_mem_nil, or_false] at h
  rcases h with rfl | rfl | rfl
  · exact ⟨hesc, rfl, rfl⟩
  · exact ⟨hesc, rfl, rfl⟩
  · cases hb

/-- What the targets in Java have in common of their words and accessors. -/
structure IsJava (t : Target) : Prop extends t.PutsInFront where
  accessors : t.accessors = .bean
  operationStyle : t.operationStyle = .camel
  booleanTypes : t.booleanTypes = ["Boolean"]
  reservedWords : t.reservedWords = Java.reservedWords

theorem isJava_of_mem (h : t ∈ [jaxrsSpec, spring]) : t.IsJava := by
  simp only [List.mem_cons, List.not_mem_nil, or_false] at h
  rcases h with rfl | rfl
  · exact ⟨putsInFront_of_bean (by simp) rfl, rfl, rfl, rfl, rfl⟩
  · exact ⟨putsInFront_of_bean (by simp) rfl, rfl, rfl, rfl, rfl⟩

namespace PutsInFront

variable (ht : t.PutsInFront)
include ht

theorem isWordChar_of_mem_spelling {name : String} :
    ∀ c ∈ (t.spelling name).toList, isWordChar c = true := by
  unfold spelling orDefault
  rw [ht.style]
  split
  · exact List.all_eq_true.mp (by decide)
  · exact fun c hc => isWordChar_of_mem_camelCase hc

theorem isUpper_head_spelling {name : String} {c : Char}
    (h : (t.spelling name).toList.head? = some c) : c.isUpper = false := by
  unfold spelling orDefault at h
  rw [ht.style] at h
  split at h
  · cases h
    decide
  · rw [styled, camelCase, String.toList_ofList] at h
    exact isUpper_head_uncapitalize (fun _ hd => isWordChar_of_mem_pascalChars hd) h

theorem accessorStem_fieldName (name : String) :
    accessorStem (t.fieldName name)
      = String.ofList (capitalizeWord (t.spelling name).toList) := by
  have hdrop : (t.fieldName name).toList.dropWhile (· == '_') = (t.spelling name).toList := by
    have hbare := t.isBare_spelling name
    rcases ht.escapes.fieldName_cases name with h | h | ⟨ha, -⟩
    · rw [h, hbare.dropWhile]
    · rw [h, String.toList_append]
      exact (List.dropWhile_cons_of_pos rfl).trans hbare.dropWhile
    · rw [ht.after] at ha
      exact absurd ha (by decide)
  rw [accessorStem, hdrop, pascalCase, String.toList_ofList,
    pascalChars_of_word ht.isWordChar_of_mem_spelling]

/-- The stem of an accessor tells fields apart. -/
theorem fieldName_of_accessorStem {a b : String}
    (h : accessorStem (t.fieldName a) = accessorStem (t.fieldName b)) :
    t.fieldName a = t.fieldName b := by
  rw [ht.accessorStem_fieldName, ht.accessorStem_fieldName, ← String.toList_inj,
    String.toList_ofList, String.toList_ofList] at h
  rw [ht.escapes.fieldName_eq_iff, ← String.toList_inj]
  rw [← uncapitalize_capitalizeWord ht.isWordChar_of_mem_spelling
      fun _ => ht.isUpper_head_spelling, h,
    uncapitalize_capitalizeWord ht.isWordChar_of_mem_spelling
      fun _ => ht.isUpper_head_spelling]

end PutsInFront

end Target

end ApiScaffold
