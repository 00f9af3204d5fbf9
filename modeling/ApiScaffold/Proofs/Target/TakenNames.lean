import ApiScaffold.Proofs.Model.Accessors
import ApiScaffold.Proofs.Naming.Words

/-!
# Names that are taken in a class

The names that are taken in a class before any document is read: the literals of its language, the
method that every object in Java has for its class, and the methods that each data class in Python
is written with. A name of a document comes to one of them exactly if it has certain words.

A taken name is kept as it is (`IsKept`): it needs no word in its place and no escape. So a field is
called so exactly if it is spelled so (`Escapes.fieldName_eq_iff_spelling`), and a spelling is told
by the words of the name (`spelling_eq_iff_titleWords`, `spelling_eq_iff_smallWords`). Getters and
methods are brought to spellings first, and the sections for Java and Python are about the names
that are taken there.
-/

namespace ApiScaffold

namespace Naming

/-- A name that is kept as it is, without a fallback and without an escape. -/
structure IsKept (fallback : String) (reserved : List String) (name : String) : Prop where
  nonempty : name ≠ ""
  proper : name ≠ fallback
  starts : startsWithDigit name = false
  free : isReserved reserved name = false

instance (fallback : String) (reserved : List String) : DecidablePred (IsKept fallback reserved) :=
  fun name => decidable_of_iff (name ≠ "" ∧ name ≠ fallback ∧ startsWithDigit name = false
      ∧ isReserved reserved name = false)
    ⟨fun ⟨hne, hp, hs, hf⟩ => ⟨hne, hp, hs, hf⟩, fun ⟨hne, hp, hs, hf⟩ => ⟨hne, hp, hs, hf⟩⟩

theorem IsKept.escapeReserved {fallback name before after : String} {reserved : List String}
    (h : IsKept fallback reserved name) : escapeReserved name reserved before after = name := by
  rw [Naming.escapeReserved, h.starts, if_neg Bool.false_ne_true, h.free, if_neg Bool.false_ne_true]

end Naming

namespace Target

open Naming

variable {t : Target} {name x : String} {type : TargetType}

theorem orDefault_eq_iff {fallback : String} (hx : x ≠ "") (hf : x ≠ fallback) :
    orDefault name fallback = x ↔ name = x := by
  unfold orDefault
  split
  next h =>
    rw [h]
    exact iff_of_false (Ne.symm hf) (Ne.symm hx)
  next => exact .rfl

/-- A field is a certain name where it is spelled so, as long as the name needs no escape. -/
theorem Escapes.fieldName_eq_iff_spelling (ht : t.Escapes) (hx : IsKept "value" t.reservedWords x)
    (hbare : IsBare x.toList) : t.fieldName name = x ↔ t.spelling name = x := by
  constructor
  · intro h
    rw [← String.toList_inj, ← ht.unmarked_fieldName, h, unmarked_of_isBare hbare]
  · intro h
    show escapeReserved (t.spelling name) _ _ _ = x
    rw [h, hx.escapeReserved]

theorem spelling_eq_iff (hx : x ≠ "") (hv : x ≠ "value") :
    t.spelling name = x ↔ styled t.fieldStyle (sanitize name) = x :=
  orDefault_eq_iff hx hv

/-- A word is the spelling of a name in camel case whose only word it is. -/
theorem spelling_eq_iff_titleWords (hs : t.fieldStyle = .camel) {title : String}
    (htitle : IsTitle title.toList) (hx : x = String.ofList (uncapitalize title.toList))
    (hne : x ≠ "") (hv : x ≠ "value") : t.spelling name = x ↔ titleWords name = [title] := by
  have hcamel := @camelCase_eq_iff [title] (List.cons_ne_nil _ _) (by simpa using htitle)
    (sanitize name)
  rw [List.flatMap_cons, List.flatMap_nil, List.append_nil, ← hx, titleWords_sanitize] at hcamel
  rw [spelling_eq_iff hne hv, hs, styled, hcamel]

/-- Small words are the spelling of a name in snake case whose words they are. -/
theorem spelling_eq_iff_smallWords (hs : t.fieldStyle = .snake) {small : List String}
    (hsmall : ∀ w ∈ small, w ≠ "" ∧ '_' ∉ w.toList)
    (hx : x = String.ofList (Text.joinWith ['_'] (small.map String.toList))) (hne : x ≠ "")
    (hv : x ≠ "value") : t.spelling name = x ↔ smallWords name = small := by
  rw [spelling_eq_iff hne hv, hs, styled, hx, snakeCase_eq_iff hsmall, smallWords_sanitize]

/-- An accessor has a certain stem where the field is spelled so, be it escaped or not. -/
theorem PutsInFront.accessorStem_eq_iff (ht : t.PutsInFront)
    (hword : ∀ c ∈ x.toList, isWordChar c = true)
    (hhead : ∀ c, x.toList.head? = some c → c.isUpper = false) :
    accessorStem (t.fieldName name) = String.ofList (capitalizeWord x.toList)
      ↔ t.spelling name = x := by
  rw [ht.accessorStem_fieldName, String.ofList_inj]
  refine ⟨fun h => ?_, fun h => by rw [h]⟩
  rw [← String.toList_inj, ← uncapitalize_capitalizeWord ht.isWordChar_of_mem_spelling
    fun _ => ht.isUpper_head_spelling, h, uncapitalize_capitalizeWord hword hhead]

theorem getter_eq_get_iff (hb : t.accessors = .bean) {field stem : String} :
    t.getter field type = "get" ++ stem
      ↔ type.base ∉ t.booleanTypes ∧ accessorStem field = stem := by
  rw [getter_eq_of_bean hb]
  split
  next hq =>
    refine iff_of_false (fun h => ?_) fun h => h.1 hq
    exact absurd (accessor_injective (by simp) (by simp) h).1 (by decide)
  next hq =>
    refine ⟨fun h => ⟨hq, (accessor_injective (by simp) (by simp) h).2⟩, fun h => by rw [h.2]⟩

/-- A method is spelled so where the id comes to it, as long as the name has no verb in front. -/
theorem methodSpelling_eq_iff (hx : IsKept "operation" t.reservedWords x)
    (hcall : ¬"call".toList <+: x.toList) :
    t.methodSpelling name = x ↔ styled t.operationStyle (sanitize name) = x := by
  rw [← @orDefault_eq_iff (styled t.operationStyle (sanitize name)) x _ hx.nonempty hx.proper]
  unfold methodSpelling
  dsimp only
  split
  next hr =>
    refine iff_of_false (fun h => hcall ?_) fun h => ?_
    · obtain ⟨rest, hrest⟩ := exists_styled_call t.operationStyle
        (orDefault (styled t.operationStyle (sanitize name)) "operation")
      rw [← h, hrest]
      exact List.prefix_append _ _
    · rw [h, hx.free] at hr
      cases hr
  next => exact .rfl

/-- A method has a certain name where the id comes to it, as long as the name needs neither a verb
nor an underscore in front and has neither. -/
theorem operationName_eq_iff (hx : IsKept "operation" t.reservedWords x)
    (hmark : x.toList.head? ≠ some '_') (hcall : ¬"call".toList <+: x.toList) :
    t.operationName name = x ↔ styled t.operationStyle (sanitize name) = x := by
  rw [← methodSpelling_eq_iff hx hcall, operationName_eq]
  split
  next hd =>
    refine iff_of_false (fun h => hmark ?_) fun h => ?_
    · rw [← h, String.toList_append]
      rfl
    · rw [h, hx.starts] at hd
      cases hd
  next => exact .rfl

/-! ## Java -/

/-- The literals of Java, which are no identifiers. -/
def Java.literals : List String := ["true", "false", "null"]

/-- The method of every object in Java that no class can replace, which tells its class. -/
def Java.classGetter : String := "getClass"

section

variable (ht : t.IsJava)
include ht

/-- A field is a literal exactly if its name is one of the two truth values; nothing is reserved
against them, other than against null. -/
theorem IsJava.fieldName_mem_literals_iff :
    t.fieldName name ∈ Java.literals ↔ titleWords name ∈ [["True"], ["False"]] := by
  have hnull : t.fieldName name ≠ "null" := by
    have hreserved : "null" ∈ t.reservedWords := by
      rw [ht.reservedWords]
      decide
    intro h
    exact (ht.escapes.legal_fieldName name).free "null" hreserved (by rw [h])
  have htrue : t.fieldName name = "true" ↔ titleWords name = ["True"] := by
    have hkept : IsKept "value" t.reservedWords "true" := ht.reservedWords ▸ by decide
    rw [ht.escapes.fieldName_eq_iff_spelling hkept ⟨by decide, by decide⟩]
    exact spelling_eq_iff_titleWords ht.style (by decide) (by decide) hkept.nonempty hkept.proper
  have hfalse : t.fieldName name = "false" ↔ titleWords name = ["False"] := by
    have hkept : IsKept "value" t.reservedWords "false" := ht.reservedWords ▸ by decide
    rw [ht.escapes.fieldName_eq_iff_spelling hkept ⟨by decide, by decide⟩]
    exact spelling_eq_iff_titleWords ht.style (by decide) (by decide) hkept.nonempty hkept.proper
  simp only [Java.literals, List.mem_cons, List.not_mem_nil, or_false, htrue, hfalse, hnull]

/-- The getter of a field is that of the class exactly if the only word of its name is class, and it
asks no question. That the word is reserved does not help: accessors leave the escape out. -/
theorem IsJava.getter_eq_classGetter_iff :
    t.getter (t.fieldName name) type = Java.classGetter
      ↔ type.base ≠ "Boolean" ∧ titleWords name = ["Class"] := by
  have hparts : Java.classGetter = "get" ++ String.ofList (capitalizeWord "class".toList) := by
    decide
  have hword : ∀ c ∈ "class".toList, isWordChar c = true := List.all_eq_true.mp (by decide)
  have hhead : ∀ c, "class".toList.head? = some c → c.isUpper = false := by
    have hfirst : "class".toList.head? = some 'c' := by decide
    intro c hc
    rw [hfirst, Option.some.injEq] at hc
    exact hc ▸ by decide
  have hspelled := @spelling_eq_iff_titleWords t name "class" ht.style "Class" (by decide)
    (by decide) (by decide) (by decide)
  rw [hparts, getter_eq_get_iff ht.accessors, ht.accessorStem_eq_iff hword hhead, hspelled,
    ht.booleanTypes, List.mem_singleton]

/-- A method is the getter of the class exactly if the words of its id are get and class. -/
theorem IsJava.operationName_eq_classGetter_iff :
    t.operationName name = Java.classGetter ↔ titleWords name = ["Get", "Class"] := by
  have hparts : Java.classGetter
      = String.ofList (uncapitalize (["Get", "Class"].flatMap String.toList)) := by
    decide
  have hkept : IsKept "operation" t.reservedWords Java.classGetter := ht.reservedWords ▸ by decide
  rw [operationName_eq_iff hkept (by decide) (by decide), ht.operationStyle, styled, hparts,
    camelCase_eq_iff (by decide) (by decide), titleWords_sanitize]

end

/-! ## Python -/

/-- The methods that every data class in Python is written with. -/
def Python.converters : List String := ["to_dict", "from_dict"]

/-- A field of a data class is a method of it exactly if the words of its name are those of the
method. -/
theorem fieldName_mem_converters_iff :
    python.fieldName name ∈ Python.converters
      ↔ smallWords name ∈ [["to", "dict"], ["from", "dict"]] := by
  have hesc : python.Escapes := escapes_of_builtin (by simp)
  have hkept : ∀ x ∈ Python.converters, IsKept "value" python.reservedWords x := by decide
  have hto : python.fieldName name = "to_dict" ↔ smallWords name = ["to", "dict"] := by
    have hk := hkept "to_dict" (by decide)
    rw [hesc.fieldName_eq_iff_spelling hk ⟨by decide, by decide⟩]
    exact spelling_eq_iff_smallWords rfl (by decide) (by decide) hk.nonempty hk.proper
  have hfrom : python.fieldName name = "from_dict" ↔ smallWords name = ["from", "dict"] := by
    have hk := hkept "from_dict" (by decide)
    rw [hesc.fieldName_eq_iff_spelling hk ⟨by decide, by decide⟩]
    exact spelling_eq_iff_smallWords rfl (by decide) (by decide) hk.nonempty hk.proper
  simp only [Python.converters, List.mem_cons, List.not_mem_nil, or_false, hto, hfrom]

end Target

end ApiScaffold
