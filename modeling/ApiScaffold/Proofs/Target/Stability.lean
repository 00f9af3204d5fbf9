import ApiScaffold.Proofs.Naming.Constants
import ApiScaffold.Proofs.Target.ClassNames

/-!
# Names that a second pass leaves as they are

A name in capitals need not have the words that it was made from, but it is a word that starts with
no small letter, and those are what the case style keeps (`pascalChars_eq_self_iff`); a name in
small letters is read back word by word (`snakeChars_joinWith`). A target keeps its classes, since
they are capitalized and legal, and its fields and methods, since an escape adds no word to a name.

`IsStyled.of_words` is what fields and methods have in common: a name that is kept comes back from
every name that has its words. `names_stable` collects all cases, for the case styles and for the
names of the targets.
-/

namespace ApiScaffold

namespace Naming

open Text (joinWith)

variable {c : Char} {cs word : List Char} {pieces : List (List Char)}

/-! ## Names in capitals -/

/-- A word that starts with no small letter. -/
structure IsCapitalized (cs : List Char) : Prop where
  chars : ∀ c ∈ cs, isWordChar c = true
  head : ∀ c, cs.head? = some c → c.isLower = false

theorem isCapitalized_pascalChars (name : List Char) : IsCapitalized (pascalChars name) where
  chars := fun _ hc => isWordChar_of_mem_pascalChars hc
  head := fun _ hc => isLower_head_capitalized hc

theorem IsCapitalized.capitalizeWord_eq (h : IsCapitalized cs) : capitalizeWord cs = cs := by
  cases cs with
  | nil => rfl
  | cons c rest =>
      have hc := toNat_lt_of_isWordChar (h.chars c List.mem_cons_self)
      rw [capitalizeWord, Text.toUpper_of_ascii hc (h.head c rfl)]

theorem IsCapitalized.capitalizeWord_uncapitalize (h : IsCapitalized cs) :
    capitalizeWord (uncapitalize cs) = cs := by
  cases cs with
  | nil => rfl
  | cons c rest =>
      have hc := toNat_lt_of_isWordChar (h.chars c List.mem_cons_self)
      rw [uncapitalize, capitalizeWord, Text.toUpper_toLower_of_ascii hc (h.head c rfl)]

/-- Names in capitals are exactly what the case style keeps. -/
theorem pascalChars_eq_self_iff : pascalChars cs = cs ↔ IsCapitalized cs := by
  constructor
  · intro h
    rw [← h]
    exact isCapitalized_pascalChars cs
  · intro h
    rw [pascalChars_of_word h.chars, h.capitalizeWord_eq]

theorem pascalCase_eq_self_iff {name : String} :
    pascalCase name = name ↔ IsCapitalized name.toList := by
  rw [← pascalChars_eq_self_iff, pascalCase, ← String.toList_inj, String.toList_ofList]

@[simp] theorem pascalCase_pascalCase (name : String) :
    pascalCase (pascalCase name) = pascalCase name := by
  rw [pascalCase_eq_self_iff, pascalCase, String.toList_ofList]
  exact isCapitalized_pascalChars _

example : (words "x y".toList).length = 2 ∧ (words (pascalChars "x y".toList)).length = 1 := by decide

@[simp] theorem pascalCase_camelCase (name : String) :
    pascalCase (camelCase name) = pascalCase name := by
  have hcap := isCapitalized_pascalChars name.toList
  rw [pascalCase, camelCase, String.toList_ofList,
    pascalChars_of_word (isWordChar_of_mem_uncapitalize hcap.chars),
    hcap.capitalizeWord_uncapitalize, pascalCase]

theorem camelCase_eq (name : String) :
    camelCase name = String.ofList (uncapitalize (pascalCase name).toList) := by
  rw [camelCase, pascalCase, String.toList_ofList]

@[simp] theorem camelCase_camelCase (name : String) : camelCase (camelCase name) = camelCase name := by
  rw [camelCase_eq (camelCase name), pascalCase_camelCase, ← camelCase_eq]

/-! ## Names in small letters -/

/-- A small letter or digit: it stands in words, is its own small form and starts no word. -/
theorem isWordChar_of_isSmallChar (h : isSmallChar c = true) (hmark : c ≠ '_') :
    isWordChar c = true ∧ c.toLower = c ∧ c.isUpper = false :=
  Text.of_ascii (P := fun c => isSmallChar c = true → c ≠ '_' →
      isWordChar c = true ∧ c.toLower = c ∧ c.isUpper = false)
    (by decide) (toNat_lt_of_isIdentChar (isIdentChar_of_isSmallChar h)) h hmark

theorem IsSmallWord.map_toLower (h : IsSmallWord word) : word.map Char.toLower = word := by
  refine (List.map_congr_left fun c hc => ?_).trans (List.map_id word)
  obtain ⟨hsmall, hmark⟩ := h.2 c hc
  exact (isWordChar_of_isSmallChar hsmall hmark).2.1

/-- A word of small letters is the first word of what starts with it and goes on with no letter or
digit. -/
theorem IsSmallWord.words_append (h : IsSmallWord word)
    (hcs : ∀ c, cs.head? = some c → isWordChar c = false) :
    words (word ++ cs) = word :: words cs := by
  obtain ⟨hne, hchars⟩ := h
  -- without capitals no word starts inside, so that each character extends the word behind it
  induction word with
  | nil => exact absurd rfl hne
  | cons c more ih =>
      obtain ⟨hsmall, hrest⟩ := List.forall_mem_cons.mp hchars
      obtain ⟨hc, -, -⟩ := isWordChar_of_isSmallChar hsmall.1 hsmall.2
      cases more with
      | nil =>
          cases cs with
          | nil =>
              rw [List.append_nil, words, markWords, Text.runs, if_pos hc]
              rfl
          | cons d cs => exact words_cut hc (.inl (hcs d rfl))
      | cons d more =>
          obtain ⟨hd, -⟩ := List.forall_mem_cons.mp hrest
          obtain ⟨hword, -, hupper⟩ := isWordChar_of_isSmallChar hd.1 hd.2
          have hs : startsWord c d = false := by rw [startsWord, hupper, Bool.and_false]
          exact words_extend hc hword hs (ih (List.cons_ne_nil _ _) hrest)

theorem IsSmallWord.words_eq (h : IsSmallWord word) : words word = [word] := by
  have hwords : words (word ++ []) = [word] := h.words_append nofun
  rwa [List.append_nil] at hwords

/-- The words of a name in small letters are those that it is joined of. -/
theorem words_joinWith (h : ∀ piece ∈ pieces, IsSmallWord piece) :
    words (joinWith ['_'] pieces) = pieces := by
  fun_induction joinWith ['_'] pieces with
  | case1 => rfl
  | case2 piece => exact (h piece List.mem_cons_self).words_eq
  | case3 piece pieces _ ih =>
      obtain ⟨hpiece, hrest⟩ := List.forall_mem_cons.mp h
      have hmark : isWordChar '_' = false := by decide
      rw [List.append_assoc, List.singleton_append, hpiece.words_append, words_of_not_word hmark,
        ih hrest]
      intro c hc
      cases hc
      exact hmark

theorem snakeChars_joinWith (h : ∀ piece ∈ pieces, IsSmallWord piece) :
    snakeChars (joinWith ['_'] pieces) = joinWith ['_'] pieces := by
  have hsmall : pieces.map (List.map Char.toLower) = pieces :=
    (List.map_congr_left fun piece hp => (h piece hp).map_toLower).trans (List.map_id pieces)
  rw [snakeChars, words_joinWith h, hsmall]

@[simp] theorem snakeCase_snakeCase (name : String) : snakeCase (snakeCase name) = snakeCase name := by
  have hpieces : ∀ piece ∈ (smallWords name).map String.toList, IsSmallWord piece :=
    List.forall_mem_map.mpr fun _ hw => isSmallWord_of_mem_smallWords hw
  rw [snakeCase_eq_smallWords name, snakeCase, String.toList_ofList, snakeChars_joinWith hpieces]

/-! ## Underscores around a name -/

theorem words_underscore_append : words ('_' :: cs) = words cs :=
  words_of_not_word (by decide)

theorem words_append_underscore : words (cs ++ ['_']) = words cs := by
  induction cs with
  | nil => exact words_underscore_append
  | cons c cs ih =>
      refine words_cons_congr ih ?_
      cases cs with
      | nil => exact Option.filter_some_neg (by decide)
      | cons d cs => rfl

end Naming

namespace Target

open Naming

variable {t : Target} {style : CaseStyle} {name base fallback : String}

/-- A name in a case style depends on nothing but the words of what it is made from. -/
theorem styled_congr {a b : String} (h : words a.toList = words b.toList) :
    styled style a = styled style b := by
  cases style with
  | camel => rw [styled, camelCase, pascalChars, h, styled, camelCase, pascalChars]
  | snake => rw [styled, snakeCase, snakeChars, h, styled, snakeCase, snakeChars]

@[simp] theorem styled_styled (style : CaseStyle) (name : String) :
    styled style (styled style name) = styled style name := by
  cases style with
  | camel => exact camelCase_camelCase name
  | snake => exact snakeCase_snakeCase name

/-! ## Spellings -/

/-- A name that its case style keeps. -/
structure IsStyled (style : CaseStyle) (name : String) : Prop where
  nonempty : name ≠ ""
  kept : styled style name = name

theorem isStyled_value (style : CaseStyle) : IsStyled style "value" := by
  cases style with
  | camel => exact ⟨by decide, by decide⟩
  | snake => exact ⟨by decide, by decide⟩

theorem isStyled_operation (style : CaseStyle) : IsStyled style "operation" := by
  cases style with
  | camel => exact ⟨by decide, by decide⟩
  | snake => exact ⟨by decide, by decide⟩

theorem isStyled_orDefault (hf : IsStyled style fallback) (name : String) :
    IsStyled style (orDefault (styled style name) fallback) := by
  unfold orDefault
  split
  case isTrue => exact hf
  case isFalse hne => exact ⟨hne, styled_styled style name⟩

/-- A name that is kept comes back from every name that has its words. -/
theorem IsStyled.of_words (h : IsStyled style base) (hwords : words name.toList = words base.toList)
    (fallback : String) : orDefault (styled style (sanitize name)) fallback = base := by
  rw [styled_congr ((words_sanitize name).trans hwords), h.kept, orDefault, if_neg h.nonempty]

/-! ## Classes -/

theorem isCapitalized_modelName (t : Target) (name : String) :
    IsCapitalized (t.modelName name).toList where
  chars := (isWord_modelName t name).chars
  head := fun _ hc => isLower_head_modelName hc

/-- The classes of a target are its legal names in capitals. -/
theorem Escapes.modelName_eq_self_iff (ht : t.Escapes) :
    t.modelName name = name ↔ IsCapitalized name.toList ∧ t.IsLegal name := by
  constructor
  · intro h
    rw [← h]
    exact ⟨isCapitalized_modelName t name, ht.legal_modelName name⟩
  · rintro ⟨hcap, hlegal⟩
    have hcls : orDefault (pascalCase (sanitize name)) "Model" = name := by
      rw [pascalCase, pascalChars, words_sanitize, ← pascalChars, ← pascalCase,
        pascalCase_eq_self_iff.mpr hcap, orDefault, if_neg hlegal.nonempty]
    unfold modelName
    dsimp only
    rw [hcls, isReserved_eq_false_iff.mpr hlegal.free, hlegal.startsWithDigit_eq, Bool.or_self,
      if_neg Bool.false_ne_true]

theorem Escapes.modelName_modelName (ht : t.Escapes) (name : String) :
    t.modelName (t.modelName name) = t.modelName name :=
  ht.modelName_eq_self_iff.mpr ⟨isCapitalized_modelName t name, ht.legal_modelName name⟩

/-! ## Fields -/

/-- An escape adds no word to a field. -/
theorem Escapes.words_fieldName (ht : t.Escapes) (name : String) :
    words (t.fieldName name).toList = words (t.spelling name).toList := by
  rcases ht.fieldName_cases name with h | h | ⟨-, h⟩
  · rw [h]
  · rw [h, String.toList_append]
    exact words_underscore_append
  · rw [h, String.toList_append]
    exact words_append_underscore

theorem Escapes.spelling_fieldName (ht : t.Escapes) (name : String) :
    t.spelling (t.fieldName name) = t.spelling name :=
  (isStyled_orDefault (isStyled_value t.fieldStyle) _).of_words (ht.words_fieldName name) "value"

theorem Escapes.fieldName_fieldName (ht : t.Escapes) (name : String) :
    t.fieldName (t.fieldName name) = t.fieldName name :=
  ht.fieldName_eq_iff.mpr (ht.spelling_fieldName name)

/-! ## Methods -/

theorem words_operationName (t : Target) (name : String) :
    words (t.operationName name).toList = words (t.methodSpelling name).toList := by
  rw [operationName_eq]
  split
  case isTrue =>
    rw [String.toList_append]
    exact words_underscore_append
  case isFalse => rfl

theorem Escapes.isStyled_methodSpelling (ht : t.Escapes) (name : String) :
    IsStyled t.operationStyle (t.methodSpelling name) := by
  unfold methodSpelling
  dsimp only
  split
  case isTrue => exact ⟨(ht.legal_styled_call _ _).nonempty, styled_styled _ _⟩
  case isFalse => exact isStyled_orDefault (isStyled_operation _) _

theorem Escapes.methodSpelling_operationName (ht : t.Escapes) (name : String) :
    t.methodSpelling (t.operationName name) = t.methodSpelling name := by
  have hbase := (ht.isStyled_methodSpelling name).of_words (t.words_operationName name) "operation"
  rw [methodSpelling, hbase, ht.isReserved_methodSpelling, if_neg Bool.false_ne_true]

theorem Escapes.operationName_operationName (ht : t.Escapes) (name : String) :
    t.operationName (t.operationName name) = t.operationName name := by
  rw [operationName_eq, ht.methodSpelling_operationName, operationName_eq]

/-! ## A second pass -/

/-- A second pass changes no name: a case style keeps what is in it, capitals put on a name that
starts small are those of the name it was made from, and a target keeps its classes, fields and
methods. -/
theorem names_stable (name : String) :
    (pascalCase (pascalCase name) = pascalCase name
      ∧ pascalCase (camelCase name) = pascalCase name
      ∧ snakeCase (snakeCase name) = snakeCase name)
    ∧ ∀ t ∈ [jaxrsSpec, spring, python],
      t.modelName (t.modelName name) = t.modelName name
        ∧ t.fieldName (t.fieldName name) = t.fieldName name
        ∧ t.operationName (t.operationName name) = t.operationName name := by
  refine ⟨⟨pascalCase_pascalCase name, pascalCase_camelCase name, snakeCase_snakeCase name⟩, ?_⟩
  intro t ht
  have hesc := escapes_of_builtin ht
  exact ⟨hesc.modelName_modelName name, hesc.fieldName_fieldName name,
    hesc.operationName_operationName name⟩

/-- A reserved word: its class and its methods get a word in front, its fields an underscore on one
side, and none of them gets another one. -/
theorem names_stable_class :
    jaxrsSpec ∈ [jaxrsSpec, spring, python] ∧ python ∈ [jaxrsSpec, spring, python]
    ∧ [jaxrsSpec.modelName "class", jaxrsSpec.fieldName "class", jaxrsSpec.operationName "class"]
      = ["ModelClass", "_class", "callClass"]
    ∧ [python.modelName "class", python.fieldName "class", python.operationName "class"]
      = ["ModelClass", "class_", "call_class"]
    ∧ (jaxrsSpec.modelName "ModelClass" = "ModelClass" ∧ jaxrsSpec.fieldName "_class" = "_class"
      ∧ jaxrsSpec.operationName "callClass" = "callClass")
    ∧ python.modelName "ModelClass" = "ModelClass" ∧ python.fieldName "class_" = "class_"
      ∧ python.operationName "call_class" = "call_class" := by
  have hjava : jaxrsSpec.modelName "class" = "ModelClass" ∧ jaxrsSpec.fieldName "class" = "_class"
      ∧ jaxrsSpec.operationName "class" = "callClass" := by decide +kernel
  have hpython : python.modelName "class" = "ModelClass" ∧ python.fieldName "class" = "class_"
      ∧ python.operationName "class" = "call_class" := by decide +kernel
  have hkept := (names_stable "class").2
  have hj := hkept jaxrsSpec (by simp)
  have hp := hkept python (by simp)
  rw [hjava.1, hjava.2.1, hjava.2.2] at hj
  rw [hpython.1, hpython.2.1, hpython.2.2] at hp
  refine ⟨by simp, by simp, ?_, ?_, hj, hp⟩
  · rw [hjava.1, hjava.2.1, hjava.2.2]
  · rw [hpython.1, hpython.2.1, hpython.2.2]

end Target

end ApiScaffold
