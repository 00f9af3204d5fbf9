import ApiScaffold.Proofs.Document.Value
import ApiScaffold.Proofs.Target.Identifiers
import ApiScaffold.Proofs.Text.Literal
import ApiScaffold.Target.Java

/-!
# The literals of the targets in Java

A keyword stands for null and for either truth value, digits with a sign for an integer, with a
letter behind them if it is wide, and quotes for a text. What a literal starts with tells which of
them it is, so whatever type a literal is of, the scalar can be read back from it (`scalar?`).

* `scalar?_of_isScalar`: the literal of a scalar is read as that scalar, so that two scalars of one
  type never share a literal.
* `literal_faithful`: that, and what the literal of a text is: printable ASCII that denotes the text
  by the rules that JSON and Java share, for every text of characters.
-/

namespace ApiScaffold

/-- The scalars of JSON but for fractions; a text is one of characters. -/
inductive Value.IsScalar : Value → Prop where
  | null : IsScalar .null
  | bool (b : Bool) : IsScalar (.bool b)
  | int (n : Int) : IsScalar (.int n)
  | str (s : String) : IsScalar (.str (Text.spelt s))

namespace Target

/-- The words and the suffix that the targets in Java have in common. -/
structure HasJavaLiterals (t : Target) : Prop where
  null : t.nullLiteral = "null"
  true : t.trueLiteral = "true"
  false : t.falseLiteral = "false"
  suffix : t.wideIntegerSuffix = "L"

/-- The number of digits with a minus in front if it is negative. -/
def signedNumber : List Char → Int
  | '-' :: digits => -(Nat.ofDigitChars 10 digits 0)
  | digits => Nat.ofDigitChars 10 digits 0

/-- An integer as it is written, where a wide one has a letter behind it. -/
def writtenInteger (isWide : Bool) (text : String) : Int :=
  signedNumber (if isWide then text.toList.dropLast else text.toList)

/-- The scalar that a literal in Java stands for. -/
def scalar? (isWide : Bool) (text : String) : Option Value :=
  if text = "null" then some .null
  else if text = "true" then some (.bool true)
  else if text = "false" then some (.bool false)
  else if text.toList.head? = some '"' then
    (fun s => .str (Text.spelt s)) <$> Text.denoted? text
  else some (.int (writtenInteger isWide text))

variable {t : Target} {type : TargetType} {v w : Value} {text : String}

theorem hasJavaLiterals (ht : t ∈ [jaxrsSpec, spring]) : t.HasJavaLiterals := by
  simp only [List.mem_cons, List.not_mem_nil, or_false] at ht
  rcases ht with rfl | rfl <;> exact ⟨rfl, rfl, rfl, rfl⟩

/-! ## Reading a literal back -/

theorem exists_cons_toString (n : Nat) :
    ∃ c rest, (toString n).toList = c :: rest ∧ c.isDigit = true := by
  obtain ⟨c, rest, hcons⟩ :=
    List.exists_cons_of_ne_nil (mt String.toList_eq_nil_iff.mp (Nat.repr_ne_empty (n := n)))
  refine ⟨c, rest, hcons, Text.isDigit_of_mem_toString (n := n) ?_⟩
  rw [Nat.toString_eq_repr, hcons]
  exact List.mem_cons_self

theorem toList_negSucc (n : Nat) :
    (toString (Int.negSucc n)).toList = '-' :: (toString (n + 1)).toList :=
  String.toList_append

/-- An integer starts with a digit or a minus. -/
theorem head?_toString_int (n : Int) :
    ∃ c, (toString n).toList.head? = some c ∧ (c = '-' ∨ c.isDigit = true) := by
  cases n with
  | ofNat n =>
      obtain ⟨c, rest, hcons, hc⟩ := exists_cons_toString n
      exact ⟨c, congrArg List.head? hcons, .inr hc⟩
  | negSucc n => exact ⟨'-', congrArg List.head? (toList_negSucc n), .inl rfl⟩

theorem signedNumber_toString (n : Int) : signedNumber (toString n).toList = n := by
  have hdigits (n : Nat) : Nat.ofDigitChars 10 (toString n).toList 0 = n := by simp
  cases n with
  | ofNat n =>
      obtain ⟨c, rest, hcons, hc⟩ := exists_cons_toString n
      have hint : (toString (Int.ofNat n)).toList = c :: rest := hcons
      rw [hint, signedNumber, ← hcons, hdigits]
      · rfl
      · intro digits hminus
        obtain rfl := (List.cons.inj hminus).1
        exact Bool.false_ne_true hc
  | negSucc n =>
      rw [toList_negSucc, signedNumber, hdigits]
      rfl

/-- What starts like an integer is read as one. -/
theorem scalar?_of_head {isWide : Bool} {c : Char} (hhead : text.toList.head? = some c)
    (hc : c = '-' ∨ c.isDigit = true) :
    scalar? isWide text = some (.int (writtenInteger isWide text)) := by
  have other {first : Char} (hminus : first ≠ '-') (hdigit : first.isDigit = false) :
      c ≠ first := by
    rintro rfl
    rcases hc with h | h
    · exact hminus h
    · exact Bool.false_ne_true (hdigit.symm.trans h)
  have hword {word : String} (first : Char) (hfirst : word.toList.head? = some first)
      (hne : c ≠ first) : text ≠ word := by
    rintro rfl
    exact hne (Option.some.inj (hhead.symm.trans hfirst))
  rw [scalar?, if_neg (hword 'n' rfl (other (by decide) rfl)),
    if_neg (hword 't' rfl (other (by decide) rfl)),
    if_neg (hword 'f' rfl (other (by decide) rfl)), hhead,
    if_neg (mt Option.some.inj (other (by decide) rfl))]

theorem scalar?_integer (ht : t.HasJavaLiterals) (n : Int) :
    scalar? type.isWideInteger (t.literal (.int n) type) = some (.int n) := by
  obtain ⟨c, hhead, hc⟩ := head?_toString_int n
  rw [literal, ht.suffix]
  cases type.isWideInteger with
  | false =>
      rw [if_neg Bool.false_ne_true, scalar?_of_head hhead hc, writtenInteger,
        if_neg Bool.false_ne_true, signedNumber_toString]
  | true =>
      have happ : (toString n ++ "L").toList = (toString n).toList ++ ['L'] :=
        String.toList_append
      have hhead' : (toString n ++ "L").toList.head? = some c := by
        rw [happ, List.head?_append, hhead, Option.some_or]
      rw [if_pos rfl, scalar?_of_head hhead' hc, writtenInteger, if_pos rfl, happ,
        List.dropLast_concat, signedNumber_toString]

/-- What is in quotes is read as a text. -/
theorem scalar?_literal {isWide : Bool} (s : String) :
    scalar? isWide (Text.literal s)
      = (fun s => .str (Text.spelt s)) <$> Text.denoted? (Text.literal s) := by
  have hhead : (Text.literal s).toList.head? = some '"' := by
    rw [Text.literal, String.toList_ofList]
    rfl
  have hword {word : String} (hfirst : word.toList.head? ≠ some '"') : Text.literal s ≠ word := by
    rintro rfl
    exact hfirst hhead
  rw [scalar?, if_neg (hword (by decide)), if_neg (hword (by decide)), if_neg (hword (by decide)),
    if_pos hhead]

/-- A scalar is read back from its literal. -/
theorem scalar?_of_isScalar (ht : t.HasJavaLiterals) (hv : v.IsScalar) :
    scalar? type.isWideInteger (t.literal v type) = some v := by
  cases hv with
  | null => rw [literal, ht.null]; rfl
  | bool b => cases b <;> simp only [literal, ht.true, ht.false] <;> rfl
  | int n => exact scalar?_integer ht n
  | str s =>
      have hlit : t.literal (.str (Text.spelt s)) type = Text.literal (Text.spelt s) := rfl
      rw [hlit, scalar?_literal, Text.denoted?_literal]
      rfl

theorem eq_literal_of_literal? (h : t.literal? v type = some text) : t.literal v type = text := by
  unfold literal? at h
  split at h
  · exact Option.some.inj h
  · cases h

/-- In Java two scalars of one type have one literal only if they are equal, and the literal of a
text is printable ASCII and denotes the text. -/
theorem literal_faithful (ht : t ∈ [jaxrsSpec, spring]) (type : TargetType) :
    (∀ v w text, v.IsScalar → w.IsScalar → t.literal? v type = some text →
      t.literal? w type = some text → v = w)
    ∧ ∀ s, ∃ text, t.literal? (.str (Text.spelt s)) type = some text
        ∧ (∀ c ∈ text.toList, Text.isPlain c = true)
        ∧ Text.denoted? text = some s := by
  refine ⟨fun v w text hv hw hvt hwt => ?_, fun s => ⟨Text.literal (Text.spelt s), rfl, ?_, ?_⟩⟩
  · have hjava := hasJavaLiterals ht
    have hread : scalar? type.isWideInteger (t.literal v type) = some v :=
      scalar?_of_isScalar hjava hv
    rw [eq_literal_of_literal? hvt, ← eq_literal_of_literal? hwt,
      scalar?_of_isScalar hjava hw] at hread
    exact (Option.some.inj hread).symm
  · exact Text.isPlain_literal _
  · exact Text.denoted?_literal s

/-- The type of a long integer. -/
def longType : TargetType := TypeMapping.toType
  { name := "Long", default := "null", imports := ["Long"], isPrimitive := false
    isWideInteger := true }

/-- A text with quotes, a tabulator, a character beyond the units of UTF-16, and one that the
spelling of texts takes up. -/
def oddText : String := "\"\\7\t\x7f😀" ++ String.ofList [Char.ofNat 0x10D800, Char.ofNat 0xE001]

theorem literal_faithful_long :
    spring ∈ [jaxrsSpec, spring]
    ∧ spring.literal? (.int 7) longType = some "7L"
    ∧ spring.literal? (.str (Text.spelt "7L")) longType ≠ some "7L"
    ∧ ∃ text, spring.literal? (.str (Text.spelt oddText)) longType = some text
        ∧ text = "\"\\\"\\\\7\\t\\u007f\\ud83d\\ude00\\udbf6\\udc00\\ue001\""
        ∧ (∀ c ∈ text.toList, Text.isPlain c = true)
        ∧ Text.denoted? text = some oddText := by
  have hmem : spring ∈ [jaxrsSpec, spring] := by simp
  have hseven : spring.literal? (.int 7) longType = some "7L" := by
    rw [literal?, if_pos (Value.isWritable_of_lt_ten (by decide))]
    rfl
  obtain ⟨hone, htexts⟩ := literal_faithful hmem longType
  refine ⟨hmem, hseven, fun hquoted => ?_, ?_⟩
  · cases hone (.int 7) (.str (Text.spelt "7L")) "7L" (.int 7) (.str "7L") hseven hquoted
  · obtain ⟨text, htext, hplain, hdenoted⟩ := htexts oddText
    have hliteral : spring.literal? (.str (Text.spelt oddText)) longType
        = some (Text.literal (Text.spelt oddText)) := rfl
    refine ⟨text, htext, ?_, hplain, hdenoted⟩
    obtain rfl := Option.some.inj (hliteral.symm.trans htext)
    decide +kernel

end Target

end ApiScaffold
