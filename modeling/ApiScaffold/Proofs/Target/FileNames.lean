import ApiScaffold.Proofs.Naming
import ApiScaffold.Target.Java
import ApiScaffold.Target.Names
import ApiScaffold.Target.Python
import Mathlib.Data.List.DropRight

/-!
# The names of files

Whatever a component or a group is called, its class consists of letters and digits of ASCII, and
the file of the class has letters, digits and underscores before the extension of the target: it is
one step of a path, never one that leads out of its folder.

* `IsPlain` and `IsWord`: names of letters, digits and underscores, and those without underscores.
  There is a lemma for each way in which names are made, from the words of a name to its case
  styles.
* `isWord_modelName` and `isWord_apiName`: classes are words, since where no letter is left a word
  stands in their place.
* `namesFile_fileName`: the file of a class has a name for a file, for every target (`NamesFile`).
-/

namespace ApiScaffold

namespace Text

/-- A character that passes the test is in a run. -/
theorem exists_mem_runs {p : Char → Bool} {c : Char} {cs : List Char} (hc : c ∈ cs)
    (hp : p c = true) : ∃ run ∈ runs p cs, c ∈ run := by
  fun_induction runs p cs with
  | case1 => cases hc
  | case2 d hd => exact ⟨[d], List.mem_singleton_self _, hc⟩
  | case3 d hd e cs he hnil ih =>
      simp only [hnil, List.not_mem_nil, false_and, exists_false, imp_false] at ih
      simp only [hnil]
      exact ⟨[d], List.mem_singleton_self _, by simpa [ih] using hc⟩
  | case4 d hd e cs he first rest heq ih =>
      simp only [heq] at ih ⊢
      rcases List.mem_cons.mp hc with rfl | hc
      · exact ⟨c :: first, List.mem_cons_self, List.mem_cons_self⟩
      · obtain ⟨run, hrun, hin⟩ := ih hc
        rcases List.mem_cons.mp hrun with rfl | hrun
        · exact ⟨d :: run, List.mem_cons_self, List.mem_cons_of_mem _ hin⟩
        · exact ⟨run, List.mem_cons_of_mem _ hrun, hin⟩
  | case5 d hd e cs he ih =>
      rcases List.mem_cons.mp hc with rfl | hc
      · exact ⟨[c], List.mem_cons_self, List.mem_singleton_self _⟩
      · obtain ⟨run, hrun, hin⟩ := ih hc
        exact ⟨run, List.mem_cons_of_mem _ hrun, hin⟩
  | case6 d cs hd ih =>
      -- the character that fails the test is not the one that passes it
      rcases List.mem_cons.mp hc with rfl | hc
      · exact absurd hp hd
      · exact ih hc

/-- What is joined is in a piece or in the separator. -/
theorem mem_joinWith {sep : List Char} {pieces : List (List Char)} {c : Char}
    (h : c ∈ joinWith sep pieces) : c ∈ sep ∨ ∃ piece ∈ pieces, c ∈ piece := by
  fun_induction joinWith sep pieces with
  | case1 => cases h
  | case2 piece => exact .inr ⟨piece, List.mem_cons_self, h⟩
  | case3 piece pieces _ ih =>
      rcases List.mem_append.mp h with h | h
      · rcases List.mem_append.mp h with h | h
        · exact .inr ⟨piece, List.mem_cons_self, h⟩
        · exact .inl h
      · rcases ih h with h | ⟨other, ho, h⟩
        · exact .inl h
        · exact .inr ⟨other, List.mem_cons_of_mem _ ho, h⟩

theorem mem_joinWith_of_mem {sep piece : List Char} {pieces : List (List Char)} {c : Char}
    (hp : piece ∈ pieces) (hc : c ∈ piece) : c ∈ joinWith sep pieces := by
  fun_induction joinWith sep pieces with
  | case1 => cases hp
  | case2 other => rwa [List.mem_singleton.mp hp] at hc
  | case3 other pieces _ ih =>
      rcases List.mem_cons.mp hp with rfl | hp
      · exact List.mem_append_left _ (List.mem_append_left _ hc)
      · exact List.mem_append_right _ (ih hp)

/-- A text without a slash at either end. -/
def IsTrimmed (s : String) : Prop := s.toList.head? ≠ some '/' ∧ s.toList.getLast? ≠ some '/'

theorem isTrimmed_trimSlashes (s : String) : IsTrimmed (trimSlashes s) := by
  have hkeeps : ∀ c ∈ (s.toList.dropWhile (· == '/')).head?, c ≠ '/' := by
    intro c hc
    have hfirst := List.head?_dropWhile_not (· == '/') s.toList
    rw [Option.mem_def.mp hc] at hfirst
    simpa using hfirst
  have hprefix := List.rdropWhile_prefix (· == '/') (s.toList.dropWhile (· == '/'))
  have hchars : (trimSlashes s).toList
      = List.rdropWhile (· == '/') (s.toList.dropWhile (· == '/')) := String.toList_ofList
  unfold IsTrimmed
  rw [hchars]
  constructor
  · -- the first character that is left was the first one after the slashes in front
    intro hhead
    refine hkeeps '/' ?_ rfl
    obtain ⟨rest, hrest⟩ := hprefix
    rw [← hrest, List.head?_append, hhead]
    rfl
  · intro hlast
    obtain ⟨before, hbefore⟩ := List.getLast?_eq_some_iff.mp hlast
    have hne := hbefore ▸ List.append_ne_nil_of_right_ne_nil before (List.cons_ne_nil '/' [])
    have hslash := List.rdropWhile_last_not (· == '/') _ hne
    simp [hbefore] at hslash

end Text

namespace Naming

/-- The spans of ASCII that letters and digits lie in. -/
theorem isWordChar_iff {c : Char} : isWordChar c = true ↔
    (65 ≤ c.val.toNat ∧ c.val.toNat ≤ 90) ∨ (97 ≤ c.val.toNat ∧ c.val.toNat ≤ 122)
      ∨ (48 ≤ c.val.toNat ∧ c.val.toNat ≤ 57) := by
  have hspans : isWordChar c = (decide (c.val ≥ 65 ∧ c.val ≤ 90)
      || (decide (c.val ≥ 97) && decide (c.val ≤ 122))
      || (decide (c.val ≥ 48) && decide (c.val ≤ 57))) := rfl
  rw [hspans]
  simp only [Bool.or_eq_true, Bool.and_eq_true, decide_eq_true_eq, ge_iff_le,
    UInt32.le_iff_toNat_le, or_assoc]
  rfl

theorem isIdentChar_of_isWordChar {c : Char} (h : isWordChar c = true) : isIdentChar c = true := by
  rw [isIdentChar, h, Bool.true_or]

theorem isWordChar_toUpper {c : Char} (h : isWordChar c = true) : isWordChar c.toUpper = true := by
  unfold Char.toUpper
  split
  case isTrue hc =>
    have hge : 97 ≤ c.val.toNat := UInt32.le_iff_toNat_le.mp hc.1
    have hle : c.val.toNat ≤ 122 := UInt32.le_iff_toNat_le.mp hc.2
    rw [isWordChar_iff]
    refine .inl ?_
    show 65 ≤ (c.val + ('A'.val - 'a'.val)).toNat ∧ (c.val + ('A'.val - 'a'.val)).toNat ≤ 90
    rw [UInt32.toNat_add]
    have hs : ('A'.val - 'a'.val).toNat = 4294967264 := rfl
    omega
  case isFalse => exact h

theorem isWordChar_toLower {c : Char} (h : isWordChar c = true) : isWordChar c.toLower = true := by
  unfold Char.toLower
  split
  case isTrue hc =>
    have hge : 65 ≤ c.val.toNat := UInt32.le_iff_toNat_le.mp hc.1
    have hle : c.val.toNat ≤ 90 := UInt32.le_iff_toNat_le.mp hc.2
    rw [isWordChar_iff]
    refine .inr (.inl ?_)
    show 97 ≤ (c.val + 32).toNat ∧ (c.val + 32).toNat ≤ 122
    rw [UInt32.toNat_add]
    have hs : (32 : UInt32).toNat = 32 := rfl
    omega
  case isFalse => exact h

theorem isWordChar_of_mem_pascalChars {name : List Char} {c : Char} (h : c ∈ pascalChars name) :
    isWordChar c = true := by
  obtain ⟨word, hword, hc⟩ := List.mem_flatMap.mp h
  have hall : ∀ d ∈ word, isWordChar d = true := fun _ hd => Text.mem_runs hword hd
  cases word with
  | nil => cases hc
  | cons first rest =>
      rcases List.mem_cons.mp hc with rfl | hc
      · exact isWordChar_toUpper (hall first List.mem_cons_self)
      · exact hall c (List.mem_cons_of_mem _ hc)

theorem isIdentChar_of_mem_snakeChars {name : List Char} {c : Char} (h : c ∈ snakeChars name) :
    isIdentChar c = true := by
  rcases Text.mem_joinWith h with h | ⟨piece, hpiece, hc⟩
  · rw [List.mem_singleton.mp h]
    decide
  · obtain ⟨word, hword, rfl⟩ := List.mem_map.mp hpiece
    obtain ⟨d, hd, rfl⟩ := List.mem_map.mp hc
    exact isIdentChar_of_isWordChar (isWordChar_toLower (Text.mem_runs hword hd))

/-- Marking words adds marks and takes nothing away. -/
theorem subset_markWords (mark : Char) (name : List Char) : name ⊆ markWords mark name := by
  fun_induction markWords mark name with
  | case1 => exact List.Subset.refl _
  | case2 c => exact List.Subset.refl _
  | case3 c d rest _ ih =>
      exact List.cons_subset_cons _ fun _ h => List.mem_cons_of_mem _ (ih h)
  | case4 c d rest _ ih => exact List.cons_subset_cons _ ih

/-- The snake form of a name keeps its letters and digits, small. -/
theorem toLower_mem_snakeChars {name : List Char} {c : Char} (hc : c ∈ name)
    (hw : isWordChar c = true) : c.toLower ∈ snakeChars name := by
  obtain ⟨word, hword, hmem⟩ := Text.exists_mem_runs (subset_markWords ' ' name hc) hw
  exact Text.mem_joinWith_of_mem (List.mem_map_of_mem hword) (List.mem_map_of_mem hmem)

/-- A name of letters, digits and underscores of ASCII, at least one of them. -/
structure IsPlain (name : String) : Prop where
  nonempty : name ≠ ""
  chars : ∀ c ∈ name.toList, isIdentChar c = true

/-- A name of letters and digits of ASCII, at least one of them. -/
structure IsWord (name : String) : Prop where
  nonempty : name ≠ ""
  chars : ∀ c ∈ name.toList, isWordChar c = true

theorem isWord_of_all {name : String} (hn : name ≠ "") (h : name.toList.all isWordChar = true) :
    IsWord name := ⟨hn, List.all_eq_true.mp h⟩

theorem IsWord.append {a b : String} (ha : IsWord a) (hb : IsWord b) : IsWord (a ++ b) where
  nonempty := by simp [ha.nonempty]
  chars := by
    intro c hc
    rw [String.toList_append] at hc
    exact (List.mem_append.mp hc).elim (ha.chars c) (hb.chars c)

theorem IsWord.isPlain {name : String} (h : IsWord name) : IsPlain name where
  nonempty := h.nonempty
  chars := fun c hc => isIdentChar_of_isWordChar (h.chars c hc)

theorem IsWord.snakeCase {name : String} (h : IsWord name) : IsPlain (snakeCase name) where
  nonempty := by
    obtain ⟨c, rest, hcons⟩ := List.exists_cons_of_ne_nil (mt String.toList_eq_nil_iff.mp h.nonempty)
    have hc : c ∈ name.toList := hcons ▸ List.mem_cons_self
    intro hempty
    have hmem := toLower_mem_snakeChars hc (h.chars c hc)
    rw [Naming.snakeCase, String.ofList_eq_empty_iff] at hempty
    rw [hempty] at hmem
    cases hmem
  chars := fun c hc => isIdentChar_of_mem_snakeChars (String.toList_ofList ▸ hc)

end Naming

namespace Target

open Naming

/-- The words of a name, or a word in their place, are a word. -/
theorem isWord_orDefault {name fallback : String} (hf : IsWord fallback) :
    IsWord (orDefault (pascalCase name) fallback) := by
  unfold orDefault
  split
  next => exact hf
  next hne =>
    exact ⟨hne, fun c hc => isWordChar_of_mem_pascalChars (String.toList_ofList ▸ hc)⟩

theorem isWord_modelName (t : Target) (name : String) : IsWord (t.modelName name) := by
  have hmodel : IsWord "Model" := isWord_of_all (by decide) rfl
  unfold modelName
  dsimp only
  split
  · exact hmodel.append (isWord_orDefault hmodel)
  · exact isWord_orDefault hmodel

theorem isWord_apiName (group : String) : IsWord (apiName group) :=
  (isWord_orDefault (isWord_of_all (by decide) rfl)).append (isWord_of_all (by decide) rfl)

/-- A name for a file of a target: plain up to the extension, and a single step of a path that goes
down. -/
structure NamesFile (t : Target) (file : String) : Prop where
  plain : ∃ stem, IsPlain stem ∧ file = stem ++ t.fileNaming.extension
  nonempty : file ≠ ""
  no_slash : '/' ∉ file.toList
  ne_dot : file ≠ "."
  ne_dots : file ≠ ".."

/-- A plain name with an extension without slashes is a name for a file. -/
theorem namesFile_of_plain {t : Target} {stem : String} (hs : IsPlain stem)
    (he : '/' ∉ t.fileNaming.extension.toList) : t.NamesFile (stem ++ t.fileNaming.extension) := by
  have hchars : ∀ c ∈ stem.toList, c ≠ '/' ∧ c ≠ '.' := by
    intro c hc
    have hident := hs.chars c hc
    constructor <;> rintro rfl <;> revert hident <;> decide
  obtain ⟨c, rest, hcons⟩ := List.exists_cons_of_ne_nil (mt String.toList_eq_nil_iff.mp hs.nonempty)
  have hlist : (stem ++ t.fileNaming.extension).toList
      = c :: (rest ++ t.fileNaming.extension.toList) := by
    rw [String.toList_append, hcons, List.cons_append]
  -- the name starts with a character of the stem, which is no dot
  have hfirst : ∀ file : String, file.toList.head? ≠ some c →
      stem ++ t.fileNaming.extension ≠ file := by
    rintro file hf rfl
    exact hf (by rw [hlist, List.head?_cons])
  have hdot : c ≠ '.' := (hchars c (hcons ▸ List.mem_cons_self)).2
  exact {
    plain := ⟨stem, hs, rfl⟩
    nonempty := hfirst "" (by simp)
    no_slash := by
      rw [String.toList_append, List.mem_append]
      rintro (h | h)
      · exact (hchars '/' h).1 rfl
      · exact he h
    ne_dot := hfirst "." (by simpa using hdot.symm)
    ne_dots := hfirst ".." (by simpa using hdot.symm) }

/-- The file of a class has a name for a file. -/
theorem namesFile_fileName {t : Target} (ht : t ∈ [jaxrsSpec, spring, python]) {cls : String}
    (hc : IsWord cls) : t.NamesFile (t.fileName cls) := by
  have hextension : '/' ∉ t.fileNaming.extension.toList := by
    simp only [List.mem_cons, List.not_mem_nil, or_false] at ht
    rcases ht with rfl | rfl | rfl <;> decide
  unfold fileName
  cases t.fileNaming.style with
  | camel => exact namesFile_of_plain hc.isPlain hextension
  | snake => exact namesFile_of_plain hc.snakeCase hextension

end Target

end ApiScaffold
