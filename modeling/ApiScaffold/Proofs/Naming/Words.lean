import ApiScaffold.Proofs.Document.Pointer
import ApiScaffold.Proofs.Target.Spelling
import Mathlib.Data.List.Chain

/-!
# The words of a name, read back

What can be read back from a name in a case style. The words of a name do not depend on the
characters between them, and they are read back from the snake form. From capitals they can be read
back where each word is one capital and small letters.

* `words_cut` and `words_extend`: where a word ends, by the two characters at the place. All other
  facts about words go by induction on the name with these.
* `words_sanitize`: a sanitized name has the words of the name.
* `capitalized_eq_iff`: a name in capitals is read back word by word where each word is a title
  (`IsTitle`).
* `pascalChars_eq_iff`, `camelCase_eq_iff` and `snakeCase_eq_iff`: when two names are one in each of
  the styles.
-/

namespace ApiScaffold

namespace Text

variable {sep : Char} {pieces others : List (List Char)}

/-- Pieces without the separator are what their joined text is split into. -/
theorem splitOn_joinWith (hne : pieces ≠ []) (h : ∀ piece ∈ pieces, sep ∉ piece) :
    splitOn sep (joinWith [sep] pieces) = pieces := by
  fun_induction joinWith [sep] pieces with
  | case1 => exact absurd rfl hne
  | case2 piece => exact splitOn_of_not_mem (h piece List.mem_cons_self)
  | case3 piece pieces hrest ih =>
      obtain ⟨hpiece, hpieces⟩ := List.forall_mem_cons.mp h
      rw [List.append_assoc, List.singleton_append, splitOn_append_cons hpiece, ih hrest hpieces]

theorem joinWith_ne_nil (hne : pieces ≠ []) (h : ∀ piece ∈ pieces, piece ≠ []) :
    joinWith [sep] pieces ≠ [] := by
  obtain ⟨piece, rest, rfl⟩ := List.exists_cons_of_ne_nil hne
  obtain ⟨c, hc⟩ := List.exists_mem_of_ne_nil piece (h piece List.mem_cons_self)
  exact List.ne_nil_of_mem (mem_joinWith_of_mem List.mem_cons_self hc)

/-- Pieces that are not empty and without the separator are told apart by their joined text. -/
theorem joinWith_eq_iff (h : ∀ piece ∈ pieces, piece ≠ [] ∧ sep ∉ piece)
    (ho : ∀ piece ∈ others, piece ≠ [] ∧ sep ∉ piece) :
    joinWith [sep] pieces = joinWith [sep] others ↔ pieces = others := by
  refine ⟨fun heq => ?_, fun heq => heq ▸ rfl⟩
  by_cases hp : pieces = []
  · subst hp
    by_contra hne
    exact joinWith_ne_nil (Ne.symm hne) (fun piece hin => (ho piece hin).1) heq.symm
  · by_cases hq : others = []
    · subst hq
      exact absurd heq (joinWith_ne_nil hp fun piece hin => (h piece hin).1)
    · rw [← splitOn_joinWith hp fun piece hin => (h piece hin).2, heq,
        splitOn_joinWith hq fun piece hin => (ho piece hin).2]

end Text

namespace Naming

open Text

variable {c d : Char} {cs name word : List Char} {rest ws vs : List (List Char)}

/-! ## One character more in front of a name -/

theorem isWordChar_of_isUpper (h : c.isUpper = true) : isWordChar c = true := by
  rw [isWordChar, isAlpha_eq, h, Bool.true_or, Bool.true_or]

theorem words_of_not_word (hc : isWordChar c = false) : words (c :: cs) = words cs := by
  have hskip : ∀ ds, runs isWordChar (c :: ds) = runs isWordChar ds := by
    intro ds
    rw [runs.eq_def]
    dsimp only
    rw [hc, if_neg Bool.false_ne_true]
  unfold words
  cases cs with
  | nil => exact hskip []
  | cons d cs =>
      rw [markWords]
      split
      · have hblank : isWordChar ' ' = false := by decide
        rw [hskip, runs.eq_def]
        dsimp only
        rw [hblank, if_neg Bool.false_ne_true]
      · exact hskip _

/-- A word ends in front of a character that is none of a word, and in front of a capital that
starts the next one. -/
theorem words_cut (hc : isWordChar c = true) (h : isWordChar d = false ∨ startsWord c d = true) :
    words (c :: d :: cs) = [c] :: words (d :: cs) := by
  unfold words
  rw [markWords]
  by_cases hs : startsWord c d = true
  · rw [if_pos hs, runs_cut hc (by decide)]
  · obtain ⟨more, hmore⟩ := exists_markWords_cons ' ' d cs
    have hd := h.resolve_right hs
    rw [if_neg hs, hmore, runs_cut hc hd, runs.eq_def isWordChar (d :: more)]
    dsimp only
    rw [hd, if_neg Bool.false_ne_true]

theorem words_extend (hc : isWordChar c = true) (hd : isWordChar d = true)
    (hs : startsWord c d = false) (h : words (d :: cs) = word :: rest) :
    words (c :: d :: cs) = (c :: word) :: rest := by
  obtain ⟨more, hmore⟩ := exists_markWords_cons ' ' d cs
  unfold words at h ⊢
  rw [markWords, hs, if_neg Bool.false_ne_true]
  rw [hmore] at h ⊢
  exact runs_extend hc hd h

/-- A name that starts with a letter or digit has a word that starts with it. -/
theorem exists_words_cons (hc : isWordChar c = true) :
    ∃ more rest, words (c :: cs) = (c :: more) :: rest := by
  induction cs generalizing c with
  | nil => exact ⟨[], [], by rw [words, markWords, runs, if_pos hc]⟩
  | cons d cs ih =>
      by_cases hd : isWordChar d = true
      · cases hs : startsWord c d with
        | true => exact ⟨[], _, words_cut hc (.inr hs)⟩
        | false =>
            obtain ⟨more, rest, hwords⟩ := ih hd
            exact ⟨_, rest, words_extend hc hd hs hwords⟩
      · exact ⟨[], _, words_cut hc (.inl (Bool.eq_false_iff.mpr hd))⟩

/-- The first word starts with the first letter or digit of the name. -/
theorem head_words (name : List Char) :
    (words name).head?.bind List.head? = name.find? isWordChar := by
  induction name with
  | nil => rfl
  | cons c cs ih =>
      rw [List.find?_cons]
      cases hc : isWordChar c with
      | true =>
          obtain ⟨more, rest, hwords⟩ := exists_words_cons hc
          rw [hwords]
          rfl
      | false => rw [words_of_not_word hc, ih]

/-- What is in front of the words of a text matters only as far as it goes on with the first of
them. -/
theorem words_cons_congr {ds : List Char} (h : words cs = words ds)
    (hhead : cs.head?.filter isWordChar = ds.head?.filter isWordChar) :
    words (c :: cs) = words (c :: ds) := by
  have hcut : isWordChar c = true → ∀ es : List Char, es.head?.filter isWordChar = none →
      words (c :: es) = [c] :: words es := by
    intro hc es hes
    cases es with
    | nil => rw [words, markWords, runs, if_pos hc, words, markWords, runs]
    | cons e es =>
        rw [List.head?_cons, Option.filter_eq_none_iff] at hes
        exact words_cut hc (.inl (Bool.eq_false_iff.mpr (hes e rfl)))
  cases hc : isWordChar c with
  | false => rw [words_of_not_word hc, words_of_not_word hc, h]
  | true =>
      cases hfirst : cs.head?.filter isWordChar with
      | none => rw [hcut hc cs hfirst, hcut hc ds (hhead ▸ hfirst), h]
      | some d =>
          -- both texts go on with the same letter or digit
          obtain ⟨hd, hword⟩ := Option.filter_eq_some_iff.mp hfirst
          obtain ⟨hd', -⟩ := Option.filter_eq_some_iff.mp (hhead ▸ hfirst)
          obtain ⟨cs, rfl⟩ := List.head?_eq_some_iff.mp hd
          obtain ⟨ds, rfl⟩ := List.head?_eq_some_iff.mp hd'
          cases hs : startsWord c d with
          | true => rw [words_cut hc (.inr hs), words_cut hc (.inr hs), h]
          | false =>
              obtain ⟨more, rest, hwords⟩ := @exists_words_cons d ds hword
              rw [words_extend hc hword hs (h.trans hwords), words_extend hc hword hs hwords]

/-! ## Sanitizing -/

theorem words_map {f : Char → Char}
    (hf : ∀ c, f c = c ∨ isWordChar c = false ∧ isWordChar (f c) = false) (name : List Char) :
    words (name.map f) = words name := by
  induction name with
  | nil => rfl
  | cons c cs ih =>
      rw [List.map_cons]
      rcases hf c with hc | ⟨hc, hfc⟩
      · rw [hc]
        refine words_cons_congr ih ?_
        cases cs with
        | nil => rfl
        | cons d ds =>
            rcases hf d with hd | ⟨hd, hfd⟩
            · rw [List.map_cons, List.head?_cons, hd, List.head?_cons]
            · have hnone : ∀ e, isWordChar e = false → (some e).filter isWordChar = none :=
                fun e he => Option.filter_some_neg he
              rw [List.map_cons, List.head?_cons, List.head?_cons, hnone _ hfd, hnone _ hd]
      · rw [words_of_not_word hc, words_of_not_word hfc, ih]

theorem head_collapse (cs : List Char) : (collapse cs).head? = cs.head? := by
  fun_induction collapse cs with
  | case1 => rfl
  | case2 c => rfl
  | case3 c d rest h ih => rw [ih, List.head?_cons, List.head?_cons, h.1, h.2]
  | case4 c d rest h ih => rfl

theorem words_collapse (cs : List Char) : words (collapse cs) = words cs := by
  fun_induction collapse cs with
  | case1 => rfl
  | case2 c => rfl
  | case3 c d rest h ih =>
      have hmark : isWordChar c = false := by
        rw [h.1]
        decide
      rw [ih, words_of_not_word hmark]
  | case4 c d rest h ih =>
      exact words_cons_congr ih (congrArg (·.filter isWordChar) (head_collapse _))

/-- A sanitized name has the words of the name. -/
theorem words_sanitize (name : String) : words (sanitize name).toList = words name.toList := by
  rw [sanitize, String.toList_ofList, sanitizeChars, words_collapse]
  refine words_map (fun c => ?_) _
  split
  · exact .inl rfl
  next h =>
    rw [isIdentChar, Bool.or_eq_true, not_or, Bool.not_eq_true] at h
    exact .inr ⟨h.1, by decide⟩

/-! ## Words and capitals -/

theorem isLower_iff {c : Char} : c.isLower = true ↔ 97 ≤ c.val.toNat ∧ c.val.toNat ≤ 122 := by
  have hspan : c.isLower = (decide (c.val ≥ 97) && decide (c.val ≤ 122)) := rfl
  rw [hspan]
  simp only [Bool.and_eq_true, decide_eq_true_eq, ge_iff_le, UInt32.le_iff_toNat_le]
  rfl

theorem isLower_toUpper (c : Char) : c.toUpper.isLower = false := by
  rw [Bool.eq_false_iff, ne_eq, isLower_iff]
  unfold Char.toUpper
  split
  case isTrue hc =>
    have hge : 97 ≤ c.val.toNat := UInt32.le_iff_toNat_le.mp hc.1
    have hle : c.val.toNat ≤ 122 := UInt32.le_iff_toNat_le.mp hc.2
    show ¬(97 ≤ (c.val + ('A'.val - 'a'.val)).toNat ∧ (c.val + ('A'.val - 'a'.val)).toNat ≤ 122)
    rw [UInt32.toNat_add]
    have hs : ('A'.val - 'a'.val).toNat = 4294967264 := rfl
    omega
  case isFalse hc =>
    exact fun h => hc ⟨UInt32.le_iff_toNat_le.mpr h.1, UInt32.le_iff_toNat_le.mpr h.2⟩

/-- Words with a capital each start with no small letter. -/
theorem isLower_head_capitalized (h : (ws.flatMap capitalizeWord).head? = some c) :
    c.isLower = false := by
  induction ws with
  | nil => cases h
  | cons word rest ih =>
      cases word with
      | nil => exact ih h
      | cons first more =>
          cases h
          exact isLower_toUpper first

/-- A word in which no other word starts. -/
def IsUnbroken (word : List Char) : Prop := word.IsChain fun c d => startsWord c d = false

theorem isUnbroken_of_mem_words (h : word ∈ words name) : IsUnbroken word := by
  induction name generalizing word with
  | nil => cases h
  | cons c cs ih =>
      cases hc : isWordChar c with
      | false =>
          rw [words_of_not_word hc] at h
          exact ih h
      | true =>
          cases cs with
          | nil =>
              rw [words, markWords, runs, if_pos hc, List.mem_singleton] at h
              subst h
              exact .singleton c
          | cons d cs =>
              by_cases hcut : isWordChar d = false ∨ startsWord c d = true
              · rw [words_cut hc hcut] at h
                rcases List.mem_cons.mp h with rfl | h
                · exact .singleton c
                · exact ih h
              · rw [not_or, Bool.not_eq_false, Bool.not_eq_true] at hcut
                obtain ⟨more, rest, hwords⟩ := @exists_words_cons d cs hcut.1
                rw [words_extend hc hcut.1 hcut.2 hwords] at h
                rw [hwords] at ih
                rcases List.mem_cons.mp h with rfl | h
                · exact (ih List.mem_cons_self).cons_cons hcut.2
                · exact ih (List.mem_cons_of_mem _ h)

/-- A capital and small letters, at least one of them. -/
inductive IsTitle : List Char → Prop
  | intro {c : Char} {small : List Char} (hc : c.isUpper = true) (hne : small ≠ [])
      (hs : ∀ d ∈ small, d.isLower = true) : IsTitle (c :: small)

instance : DecidablePred IsTitle
  | [] => isFalse nofun
  | c :: small =>
    decidable_of_iff (c.isUpper = true ∧ small ≠ [] ∧ small.all Char.isLower = true)
      ⟨fun ⟨hc, hne, hs⟩ => .intro hc hne (List.all_eq_true.mp hs),
        fun | .intro hc hne hs => ⟨hc, hne, List.all_eq_true.mpr hs⟩⟩

/-- No word goes on from a small letter to a capital. -/
theorem IsUnbroken.isUpper_head {front back : List Char} (h : IsUnbroken (front ++ back))
    (hlast : front.getLast? = some c) (hc : c.isLower = true) (hhead : back.head? = some d) :
    d.isUpper = false := by
  have hstarts : startsWord c d = false :=
    (List.isChain_append.mp h).2.2 c (Option.mem_def.mpr hlast) d (Option.mem_def.mpr hhead)
  rwa [startsWord, hc, Bool.true_or, Bool.true_and] at hstarts

/-- A text that starts with a title and goes on with words or titles is cut behind the title. -/
theorem capitalized_cons_inj {first : Char} {more small titles : List Char}
    (hw : IsUnbroken (c :: more)) (hv : IsTitle (first :: small))
    (hhead : ∀ d, titles.head? = some d → d.isUpper = true)
    (h : (first :: more) ++ ws.flatMap capitalizeWord = (first :: small) ++ titles) :
    more = small ∧ ws.flatMap capitalizeWord = titles := by
  obtain ⟨hcapital, hne, hsmall⟩ := hv
  have htail : more ++ ws.flatMap capitalizeWord = small ++ titles := List.tail_eq_of_cons_eq h
  rcases List.append_eq_append_iff.mp htail with ⟨others, rfl, hws⟩ | ⟨others, rfl, rfl⟩
  · -- the next word cannot start inside the title, with a small letter
    cases others with
    | nil => exact ⟨(List.append_nil _).symm, hws⟩
    | cons d others =>
        have hlower := hsmall d (List.mem_append_right _ List.mem_cons_self)
        have hfirst : (ws.flatMap capitalizeWord).head? = some d := by rw [hws]; rfl
        rw [isLower_head_capitalized hfirst] at hlower
        cases hlower
  · -- and the word cannot go on with the capital of the next title
    cases others with
    | nil => exact ⟨List.append_nil _, rfl⟩
    | cons d others =>
        have hupper := hhead d rfl
        have hlast := List.getLast?_eq_getLast_of_ne_nil hne
        have hword : IsUnbroken ((c :: small) ++ d :: others) := hw
        have hcons : (c :: small).getLast? = some (small.getLast hne) := by
          rw [List.getLast?_cons, hlast]
          rfl
        rw [hword.isUpper_head hcons (hsmall _ (List.getLast_mem hne)) rfl] at hupper
        cases hupper

/-- A name in capitals is read back word by word where each word is a title. -/
theorem capitalized_eq_iff (hws : ∀ w ∈ ws, w ≠ [] ∧ IsUnbroken w) (hvs : ∀ v ∈ vs, IsTitle v) :
    ws.flatMap capitalizeWord = vs.flatten ↔ ws.map capitalizeWord = vs := by
  refine ⟨fun h => ?_, fun h => by rw [← h, List.flatMap_def]⟩
  induction vs generalizing ws with
  | nil =>
      cases ws with
      | nil => rfl
      | cons w ws =>
          obtain ⟨c, more, rfl⟩ := List.exists_cons_of_ne_nil (hws w List.mem_cons_self).1
          cases h
  | cons v vs ih =>
      obtain ⟨hv, htitles⟩ := List.forall_mem_cons.mp hvs
      have hhead : ∀ d, vs.flatten.head? = some d → d.isUpper = true := by
        intro d hd
        cases vs with
        | nil => cases hd
        | cons v vs =>
            obtain ⟨hc, -, -⟩ := htitles v List.mem_cons_self
            cases hd
            exact hc
      cases ws with
      | nil =>
          cases hv
          cases h
      | cons w ws =>
          obtain ⟨⟨hne, hunbroken⟩, hothers⟩ := List.forall_mem_cons.mp hws
          obtain ⟨c, more, rfl⟩ := List.exists_cons_of_ne_nil hne
          obtain @⟨first, small, hc, hsmall, hlower⟩ := hv
          have hfirst : c.toUpper = first := List.head_eq_of_cons_eq h
          subst hfirst
          obtain ⟨rfl, hrest⟩ :=
            capitalized_cons_inj hunbroken (.intro hc hsmall hlower) hhead h
          rw [List.map_cons, ih hothers htitles hrest]
          rfl

/-! ## Case styles read back -/

/-- The words of a name, each with a capital. -/
def titleWords (name : String) : List String :=
  (words name.toList).map fun word => String.ofList (capitalizeWord word)

/-- The words of a name in small letters. -/
def smallWords (name : String) : List String :=
  (words name.toList).map fun word => String.ofList (word.map Char.toLower)

theorem titleWords_sanitize (name : String) : titleWords (sanitize name) = titleWords name := by
  rw [titleWords, words_sanitize, titleWords]

theorem smallWords_sanitize (name : String) : smallWords (sanitize name) = smallWords name := by
  rw [smallWords, words_sanitize, smallWords]

/-- A name in capitals starts with its first letter or digit. -/
theorem head_pascalChars (name : List Char) :
    (pascalChars name).head? = (name.find? isWordChar).map Char.toUpper := by
  rw [← head_words, pascalChars]
  cases hwords : words name with
  | nil => rfl
  | cons word rest =>
      obtain ⟨c, more, rfl⟩ :=
        List.exists_cons_of_ne_nil (ne_nil_of_mem_runs (hwords ▸ List.mem_cons_self))
      rfl

theorem pascalChars_eq_iff {titles : List String} (ht : ∀ v ∈ titles, IsTitle v.toList)
    {name : String} :
    pascalChars name.toList = titles.flatMap String.toList ↔ titleWords name = titles := by
  have hwords : ∀ w ∈ words name.toList, w ≠ [] ∧ IsUnbroken w :=
    fun w hw => ⟨ne_nil_of_mem_runs hw, isUnbroken_of_mem_words hw⟩
  have htitles : ∀ v ∈ titles.map String.toList, IsTitle v := List.forall_mem_map.mpr ht
  rw [pascalChars, List.flatMap_def (f := String.toList), capitalized_eq_iff hwords htitles,
    titleWords, ← List.map_inj_right (f := String.toList) fun _ _ => String.toList_inj.mp]
  simp only [List.map_map, Function.comp_def, String.toList_ofList]

/-- A capital is told by its small form from all other letters and digits but that form. -/
theorem toLower_inj_of_isUpper (hc : c.isUpper = true) (hd : isWordChar d = true)
    (hl : d.isLower = false) : d.toLower = c.toLower ↔ d = c := by
  have hascii := toNat_lt_of_isWordChar (isWordChar_of_isUpper hc)
  refine ⟨fun h => ?_, fun h => h ▸ rfl⟩
  rw [← toUpper_toLower_of_ascii (toNat_lt_of_isWordChar hd) hl, h,
    toUpper_toLower_of_ascii hascii (isLower_of_isUpper hascii hc)]

theorem camelCase_eq_iff {titles : List String} (hne : titles ≠ [])
    (ht : ∀ v ∈ titles, IsTitle v.toList) {name : String} :
    camelCase name = String.ofList (uncapitalize (titles.flatMap String.toList))
      ↔ titleWords name = titles := by
  rw [← pascalChars_eq_iff ht, camelCase, String.ofList_inj]
  obtain ⟨v, rest, rfl⟩ := List.exists_cons_of_ne_nil hne
  obtain ⟨hv, -⟩ := List.forall_mem_cons.mp ht
  rw [List.flatMap_cons]
  generalize v.toList = title at hv
  obtain @⟨first, small, hc, -, -⟩ := hv
  cases hchars : pascalChars name.toList with
  | nil => exact iff_of_false (fun h => by cases h) (fun h => by cases h)
  | cons d more =>
      have hd : isWordChar d = true :=
        isWordChar_of_mem_pascalChars (hchars ▸ List.mem_cons_self)
      have hlower : d.isLower = false := isLower_head_capitalized (congrArg List.head? hchars)
      rw [List.cons_append, uncapitalize, uncapitalize, List.cons.injEq, List.cons.injEq,
        toLower_inj_of_isUpper hc hd hlower]

theorem snakeCase_eq_iff {small : List String} (hs : ∀ w ∈ small, w ≠ "" ∧ '_' ∉ w.toList)
    {name : String} :
    snakeCase name = String.ofList (joinWith ['_'] (small.map String.toList))
      ↔ smallWords name = small := by
  have hwords : ∀ w ∈ (words name.toList).map (List.map Char.toLower), w ≠ [] ∧ '_' ∉ w := by
    refine List.forall_mem_map.mpr fun w hw => ⟨mt List.map_eq_nil_iff.mp (ne_nil_of_mem_runs hw), ?_⟩
    intro hmark
    obtain ⟨c, hc, hlower⟩ := List.mem_map.mp hmark
    have hword := isWordChar_toLower (mem_runs hw hc)
    rw [hlower] at hword
    revert hword
    decide
  have hsmall : ∀ w ∈ small.map String.toList, w ≠ [] ∧ '_' ∉ w :=
    List.forall_mem_map.mpr fun w hw => ⟨mt String.toList_eq_nil_iff.mp (hs w hw).1, (hs w hw).2⟩
  rw [snakeCase, String.ofList_inj, snakeChars, joinWith_eq_iff hwords hsmall, smallWords,
    ← List.map_inj_right (f := String.toList) fun _ _ => String.toList_inj.mp]
  simp only [List.map_map, Function.comp_def, String.toList_ofList]

end Naming

end ApiScaffold
