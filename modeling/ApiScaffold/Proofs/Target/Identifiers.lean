import ApiScaffold.Proofs.Target.FileNames
import ApiScaffold.Proofs.Text.Ascii
import ApiScaffold.Spec

/-!
# The identifiers of a target

Whatever a component, a property or an operation is called, its class, its field and its method are
letters, digits and underscores of ASCII, start with no digit and are no reserved word in any case;
and a method stays so with an HTTP method or a number behind it.

* `Escapes` says of a target what it escapes with and what its reserved words are like; that the
  targets that can be asked for by name are so is computed once (`escapes_of_builtin`).
* `legal_of_mem` and `legal_of_start`: a name that an underscore or a digit stands in is no reserved
  word, which is why an escape makes a name legal (`legal_escapeReserved`).
* `legal_fieldName`, `legal_modelName` and `legal_operationName`: the names are legal whatever they
  are made from. `operationName_eq` brings methods into the form of fields first: a reserved word
  has its verb in front.
-/

namespace ApiScaffold

namespace Text

/-- What all characters of certain texts satisfy, computed for each text. -/
theorem forall_chars_of_all {p : Char → Bool} {names : List String} {f : String → List Char}
    (h : (names.all fun name => (f name).all p) = true) :
    ∀ name ∈ names, ∀ c ∈ f name, p c = true :=
  fun name hname => List.all_eq_true.mp (List.all_eq_true.mp h name hname)

/-! A number is written in digits, and in one at least. -/

theorem isDigit_of_mem_toString {n : Nat} {c : Char} (h : c ∈ (toString n).toList) :
    c.isDigit = true := by
  rw [Nat.toString_eq_repr, Nat.toList_repr] at h
  exact Nat.isDigit_of_mem_toDigits (by decide) (by decide) h

theorem exists_mem_toString (n : Nat) : ∃ c, c ∈ (toString n).toList :=
  List.exists_mem_of_ne_nil _ (mt String.toList_eq_nil_iff.mp Nat.repr_ne_empty)

end Text

namespace Naming

open Text

theorem toNat_lt_of_isIdentChar {c : Char} (h : isIdentChar c = true) : c.toNat < 128 := by
  rw [isIdentChar, Bool.or_eq_true, isWordChar_iff, beq_iff_eq] at h
  rcases h with h | rfl
  · show c.val.toNat < 128
    omega
  · decide

theorem toNat_lt_of_isWordChar {c : Char} (h : isWordChar c = true) : c.toNat < 128 :=
  toNat_lt_of_isIdentChar (isIdentChar_of_isWordChar h)

theorem IsPlain.isAscii {name : String} (h : IsPlain name) : IsAscii name.toList :=
  fun c hc => toNat_lt_of_isIdentChar (h.chars c hc)

theorem isPlain_of_all {name : String} (hn : name ≠ "") (h : name.toList.all isIdentChar = true) :
    IsPlain name := ⟨hn, List.all_eq_true.mp h⟩

/-- A plain name with plain characters behind it. -/
theorem IsPlain.append {name suffix : String} (h : IsPlain name)
    (hs : ∀ c ∈ suffix.toList, isIdentChar c = true) : IsPlain (name ++ suffix) where
  nonempty := by simp [h.nonempty]
  chars := by
    intro c hc
    rw [String.toList_append, List.mem_append] at hc
    exact hc.elim (h.chars c) (hs c)

theorem IsPlain.exists_cons {name : String} (h : IsPlain name) :
    ∃ c rest, name.toList = c :: rest :=
  List.exists_cons_of_ne_nil (mt String.toList_eq_nil_iff.mp h.nonempty)

/-- A plain name starts with a digit if the first of its characters is one of ASCII. -/
theorem IsPlain.startsWithDigit_eq {name : String} (h : IsPlain name) {c : Char} {rest : List Char}
    (hcons : name.toList = c :: rest) : startsWithDigit name = c.isDigit := by
  have hc : c ∈ name.toList := by simp [hcons]
  rw [startsWithDigit, hcons]
  exact isDigit_of_ascii (h.isAscii c hc)

/-- A plain name that starts with no digit. -/
structure IsIdentifier (name : String) : Prop extends IsPlain name where
  starts : ∀ c, name.toList.head? = some c → c.isDigit = false

theorem IsPlain.isIdentifier {name : String} (h : IsPlain name)
    (hd : startsWithDigit name = false) : IsIdentifier name where
  toIsPlain := h
  starts := by
    intro c hc
    obtain ⟨rest, hcons⟩ := List.head?_eq_some_iff.mp hc
    rw [← h.startsWithDigit_eq hcons, hd]

theorem IsIdentifier.startsWithDigit_eq {name : String} (h : IsIdentifier name) :
    startsWithDigit name = false := by
  obtain ⟨c, rest, hcons⟩ := h.exists_cons
  rw [h.toIsPlain.startsWithDigit_eq hcons]
  exact h.starts c (by rw [hcons, List.head?_cons])

theorem IsIdentifier.append {name suffix : String} (h : IsIdentifier name)
    (hs : ∀ c ∈ suffix.toList, isIdentChar c = true) : IsIdentifier (name ++ suffix) where
  toIsPlain := h.toIsPlain.append hs
  starts := by
    intro c hc
    obtain ⟨first, rest, hcons⟩ := h.exists_cons
    rw [String.toList_append, hcons] at hc
    apply h.starts
    rw [hcons]
    exact hc

/-! ## Case styles -/

theorem isWordChar_of_mem_uncapitalize {word : List Char} (h : ∀ c ∈ word, isWordChar c = true) :
    ∀ c ∈ uncapitalize word, isWordChar c = true := by
  cases word with
  | nil => exact h
  | cons first rest =>
      rw [List.forall_mem_cons] at h
      rw [uncapitalize, List.forall_mem_cons]
      exact ⟨isWordChar_toLower h.1, h.2⟩

theorem isWordChar_of_mem_camelCase {name : String} {c : Char} (h : c ∈ (camelCase name).toList) :
    isWordChar c = true := by
  rw [camelCase, String.toList_ofList] at h
  exact isWordChar_of_mem_uncapitalize (fun _ hd => isWordChar_of_mem_pascalChars hd) c h

/-- What is put in front of a name with an underscore is a word of its own. -/
theorem words_call (name : List Char) :
    words ("call_".toList ++ name) = "call".toList :: words name := by
  have hmark : markWords ' ' ('_' :: name) = '_' :: markWords ' ' name := by
    cases name with
    | nil => rfl
    | cons d rest =>
        have hsame : startsWord '_' d = false := Bool.false_and _
        rw [markWords, hsame, if_neg Bool.false_ne_true]
  show Text.runs isWordChar ('c' :: 'a' :: 'l' :: 'l' :: markWords ' ' ('_' :: name)) = _
  rw [hmark]
  rfl

theorem isReserved_eq_false_iff {reserved : List String} {name : String} :
    isReserved reserved name = false ↔ ∀ word ∈ reserved, lower name ≠ lower word := by
  simp only [isReserved, Bool.eq_false_iff, ne_eq, List.contains_iff_mem, List.mem_map, not_exists,
    not_and]
  exact ⟨fun h word hw heq => h word hw heq.symm, fun h word hw heq => h word hw heq.symm⟩

theorem isIdentChar_of_mem_method {method : String} (hm : method ∈ Spec.methods) :
    ∀ c ∈ (capitalize (upper method)).toList, isIdentChar c = true :=
  forall_chars_of_all (f := fun method => (capitalize (upper method)).toList) (by decide) method hm

end Naming

namespace Target

open Naming Text

/-- What a target escapes with, and its reserved words, which are made of letters and neither start
nor end with what is put to names. -/
structure Escapes (t : Target) : Prop where
  /-- A reserved word gets an underscore, on one side or the other. -/
  marks : t.reservedAffixes.before = "_" ∧ t.reservedAffixes.after = ""
    ∨ t.reservedAffixes.before = "" ∧ t.reservedAffixes.after = "_"
  letters : ∀ word ∈ t.reservedWords, ∀ c ∈ (lower word).toList, c.isLower = true
  starts : ∀ word ∈ t.reservedWords, ∀ start ∈ ["model", "call"],
    ¬start.toList <+: (lower word).toList
  ends : ∀ word ∈ t.reservedWords, ∀ method ∈ Spec.methods,
    ¬method.toList <:+ (lower word).toList

theorem escapes_of_builtin {t : Target} (h : t ∈ [jaxrsSpec, spring, python]) : t.Escapes := by
  simp only [List.mem_cons, List.not_mem_nil, or_false] at h
  rcases h with rfl | rfl | rfl
  · exact ⟨.inl ⟨rfl, rfl⟩, forall_chars_of_all (by decide), by decide, by decide⟩
  · exact ⟨.inl ⟨rfl, rfl⟩, forall_chars_of_all (by decide), by decide, by decide⟩
  · exact ⟨.inr ⟨rfl, rfl⟩, forall_chars_of_all (by decide), by decide, by decide⟩

/-- An identifier that is no reserved word of a target, whatever the case of its letters. -/
structure IsLegal (t : Target) (name : String) : Prop extends IsIdentifier name where
  free : ∀ word ∈ t.reservedWords, lower name ≠ lower word

namespace Escapes

variable {t : Target} (ht : t.Escapes) {name : String}
include ht

/-- A name that an underscore or a digit stands in is no reserved word. -/
theorem legal_of_mem (h : IsIdentifier name) {c : Char} (hc : c ∈ name.toList)
    (hl : c.isAlpha = false) : t.IsLegal name where
  toIsIdentifier := h
  free := by
    intro word hw heq
    have hchars : (lower word).toList = name.toList.map Char.toLower := by
      rw [← heq, toList_lower h.isAscii]
    have hlower := ht.letters word hw c.toLower (hchars ▸ List.mem_map_of_mem hc)
    rw [isLower_toLower_of_ascii (h.isAscii c hc) hl] at hlower
    cases hlower

theorem legal_of_start (h : IsIdentifier name) {start : String} (hs : start ∈ ["model", "call"])
    (hp : start.toList <+: (lower name).toList) : t.IsLegal name where
  toIsIdentifier := h
  free := by
    intro word hw heq
    apply ht.starts word hw start hs
    rwa [← heq]

/-- A plain name with an underscore in front is legal. -/
theorem legal_underscore (h : IsPlain name) : t.IsLegal ("_" ++ name) := by
  have hmark : IsIdentifier "_" := (isPlain_of_all (by decide) rfl).isIdentifier (by decide)
  exact ht.legal_of_mem (hmark.append h.chars) (by simp) (by decide : '_'.isAlpha = false)

/-- A name with its escape is legal. -/
theorem legal_escapeReserved (h : IsPlain name) : t.IsLegal (escapeReserved name t.reservedWords
    t.reservedAffixes.before t.reservedAffixes.after) := by
  unfold escapeReserved
  split
  case isTrue => exact ht.legal_underscore h
  case isFalse hd =>
    have hname := h.isIdentifier (Bool.eq_false_iff.mpr hd)
    split
    case isTrue =>
      rcases ht.marks with ⟨hb, ha⟩ | ⟨hb, ha⟩
      · rw [hb, ha, String.append_empty]
        exact ht.legal_underscore h
      · rw [hb, ha, String.empty_append]
        exact ht.legal_of_mem (hname.append (List.all_eq_true.mp (by decide))) (by simp)
          (by decide : '_'.isAlpha = false)
    case isFalse hr => exact ⟨hname, isReserved_eq_false_iff.mp (Bool.eq_false_iff.mpr hr)⟩

/-- A legal name with an HTTP method behind it. -/
theorem legal_append_method (h : t.IsLegal name) {method : String} (hm : method ∈ Spec.methods) :
    t.IsLegal (name ++ capitalize (upper method)) where
  toIsIdentifier := h.toIsIdentifier.append (isIdentChar_of_mem_method hm)
  free := by
    have hback : ∀ method ∈ Spec.methods,
        (capitalize (upper method)).toList.map Char.toLower = method.toList := by decide
    have hall := (h.toIsIdentifier.append (isIdentChar_of_mem_method hm)).isAscii
    -- a reserved word with this name in small letters would end in the method
    intro word hw heq
    apply ht.ends word hw method hm
    rw [← heq, toList_lower hall, String.toList_append, List.map_append, hback method hm]
    exact List.suffix_append _ _

/-- A legal name with a number behind it. -/
theorem legal_append_number (h : t.IsLegal name) (n : Nat) : t.IsLegal (name ++ toString n) := by
  have hident : ∀ c ∈ (toString n).toList, isIdentChar c = true := by
    intro c hc
    simp [isIdentChar, isWordChar, isDigit_of_mem_toString hc]
  -- any digit of the number will do, since reserved words consist of letters
  obtain ⟨c, hc⟩ := exists_mem_toString n
  have hin : c ∈ (name ++ toString n).toList := by
    rw [String.toList_append]
    exact List.mem_append_right _ hc
  exact ht.legal_of_mem (h.toIsIdentifier.append hident) hin
    (isAlpha_of_isDigit (toNat_lt_of_isIdentChar (hident c hc)) (isDigit_of_mem_toString hc))

end Escapes

/-! ## The names -/

theorem isIdentChar_of_mem_styled {style : CaseStyle} {name : String} {c : Char}
    (h : c ∈ (styled style name).toList) : isIdentChar c = true := by
  cases style with
  | camel => exact isIdentChar_of_isWordChar (isWordChar_of_mem_camelCase h)
  | snake =>
      rw [styled, snakeCase, String.toList_ofList] at h
      exact isIdentChar_of_mem_snakeChars h

theorem isPlain_styled (style : CaseStyle) (name : String) {fallback : String}
    (hf : IsPlain fallback) : IsPlain (orDefault (styled style name) fallback) := by
  unfold orDefault
  split
  case isTrue => exact hf
  case isFalse hne => exact ⟨hne, fun c hc => isIdentChar_of_mem_styled hc⟩

/-- A verb in front of a name stays in front of it in either case style. -/
theorem exists_styled_call (style : CaseStyle) (name : String) :
    ∃ rest, (styled style ("call_" ++ name)).toList = "call".toList ++ rest := by
  cases style with
  | camel =>
      refine ⟨pascalChars name.toList, ?_⟩
      rw [styled, camelCase, String.toList_ofList, String.toList_append, pascalChars, words_call]
      rfl
  | snake =>
      rw [styled, snakeCase, String.toList_ofList, String.toList_append, snakeChars, words_call]
      cases words name.toList with
      | nil => exact ⟨[], rfl⟩
      | cons word rest => exact ⟨_, rfl⟩

/-- The name of a method before it is escaped. A reserved word has its verb in front. -/
def methodSpelling (t : Target) (name : String) : String :=
  let base := orDefault (styled t.operationStyle (sanitize name)) "operation"
  if isReserved t.reservedWords base then styled t.operationStyle ("call_" ++ base) else base

/-- The escape of a method reserves no word, so that it is an underscore before a digit or nothing.
-/
theorem operationName_eq (t : Target) (name : String) : t.operationName name
    = if startsWithDigit (t.methodSpelling name) then "_" ++ t.methodSpelling name
      else t.methodSpelling name := rfl

namespace Escapes

variable {t : Target} (ht : t.Escapes)
include ht

theorem legal_fieldName (name : String) : t.IsLegal (t.fieldName name) :=
  ht.legal_escapeReserved (isPlain_styled _ _ (isPlain_of_all (by decide) rfl))

theorem legal_modelName (name : String) : t.IsLegal (t.modelName name) := by
  have hcls : IsPlain (orDefault (pascalCase (sanitize name)) "Model") :=
    (isWord_orDefault (isWord_of_all (by decide) rfl)).isPlain
  unfold modelName
  dsimp only
  generalize orDefault (pascalCase (sanitize name)) "Model" = cls at hcls ⊢
  split
  case isTrue =>
    have hmodel : IsIdentifier "Model" := (isPlain_of_all (by decide) rfl).isIdentifier (by decide)
    have hall := hmodel.append hcls.chars
    refine ht.legal_of_start hall (by decide : "model" ∈ _) ?_
    rw [toList_lower hall.isAscii, String.toList_append, List.map_append]
    exact List.prefix_append _ _
  case isFalse h =>
    simp only [Bool.or_eq_true, not_or, Bool.not_eq_true] at h
    exact ⟨hcls.isIdentifier h.2, isReserved_eq_false_iff.mp h.1⟩

/-- A reserved word with a verb in front is legal. -/
theorem legal_styled_call (style : CaseStyle) (name : String) :
    t.IsLegal (styled style ("call_" ++ name)) := by
  obtain ⟨rest, hrest⟩ := exists_styled_call style name
  have hne : styled style ("call_" ++ name) ≠ "" := by
    intro hempty
    rw [hempty] at hrest
    cases hrest
  have hcall : IsIdentifier (styled style ("call_" ++ name)) := by
    refine ⟨⟨hne, fun c hc => isIdentChar_of_mem_styled hc⟩, fun c hc => ?_⟩
    rw [hrest] at hc
    cases hc
    decide
  refine ht.legal_of_start hcall (by decide : "call" ∈ _) ?_
  rw [toList_lower hcall.isAscii, hrest, List.map_append]
  exact List.prefix_append _ _

/-- A verb in front makes a word free, and any other spelling is free already. -/
theorem isReserved_methodSpelling (name : String) :
    isReserved t.reservedWords (t.methodSpelling name) = false := by
  unfold methodSpelling
  dsimp only
  split
  case isTrue => exact isReserved_eq_false_iff.mpr (ht.legal_styled_call _ _).free
  case isFalse hfree => exact Bool.eq_false_iff.mpr hfree

theorem isPlain_methodSpelling (name : String) : IsPlain (t.methodSpelling name) := by
  unfold methodSpelling
  dsimp only
  split
  case isTrue => exact (ht.legal_styled_call _ _).toIsPlain
  case isFalse => exact isPlain_styled _ _ (isPlain_of_all (by decide) rfl)

theorem legal_operationName (name : String) : t.IsLegal (t.operationName name) := by
  have hplain := ht.isPlain_methodSpelling name
  -- what is reserved has its verb by now, so that only a digit in front is escaped
  rw [operationName_eq]
  split
  case isTrue => exact ht.legal_underscore hplain
  case isFalse hd =>
    exact ⟨hplain.isIdentifier (Bool.eq_false_iff.mpr hd),
      isReserved_eq_false_iff.mp (ht.isReserved_methodSpelling name)⟩

end Escapes

end Target

end ApiScaffold
