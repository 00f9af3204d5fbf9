import ApiScaffold.Proofs.Naming.Words

/-!
# The constants of texts

A constant is made of capitals, digits and underscores and starts with no digit, whatever the text
(`isConstant_constant`). It tells of the text no more than its words in small letters, so two texts
have one constant exactly if those are the same (`constant_eq_iff`).

`constant_eq` brings the definition into the form that both are read from: the words in capitals,
joined by underscores, with an underscore before a digit at the start. What comes after is about one
word at a time (`IsSmallWord`), and reading a constant back undoes these steps in the other order
(`unmarked_constant`).
-/

namespace ApiScaffold.Naming

open Text (joinWith IsAscii)

variable {s a b : String} {c : Char}

/-- A small letter, a digit or an underscore. -/
def isSmallChar (c : Char) : Bool := c.isLower || c.isDigit || c == '_'

/-- A name of capitals, digits and underscores that starts with no digit. -/
structure IsConstant (name : String) : Prop where
  nonempty : name ≠ ""
  chars : ∀ c ∈ name.toList, (c.isUpper || c.isDigit || c == '_') = true
  starts : ∀ c, name.toList.head? = some c → c.isDigit = false

/-- The words that the constant of a text is made of: its own, or one that stands for none. -/
def constantWords (s : String) : List String :=
  if smallWords s = [] then ["empty"] else smallWords s

/-- The words of a constant in small letters, joined by underscores. -/
def constantChars (s : String) : List Char := joinWith ['_'] ((constantWords s).map String.toList)

/-- An underscore before a digit at the start. -/
def marked (name : String) : String := if startsWithDigit name then "_" ++ name else name

theorem toList_marked (name : String) : (marked name).toList
    = if startsWithDigit name then '_' :: name.toList else name.toList := by
  unfold marked
  split
  · rw [String.toList_append]
    rfl
  · rfl

/-! ## The characters of a constant -/

theorem isIdentChar_of_isSmallChar (h : isSmallChar c = true) : isIdentChar c = true := by
  rw [isSmallChar, Bool.or_eq_true, Bool.or_eq_true] at h
  rw [isIdentChar, isWordChar, Text.isAlpha_eq]
  rcases h with (h | h) | h <;> simp [h]

theorem isAscii_of_isSmallChar {cs : List Char} (h : ∀ c ∈ cs, isSmallChar c = true) : IsAscii cs :=
  fun c hc => toNat_lt_of_isIdentChar (isIdentChar_of_isSmallChar (h c hc))

/-- A small letter, a digit or an underscore in a constant, and read back from it. -/
theorem toUpper_of_isSmallChar (h : isSmallChar c = true) :
    (c.toUpper.isUpper || c.toUpper.isDigit || c.toUpper == '_') = true
      ∧ c.toUpper.toLower = c ∧ (c.toUpper = '_' → c = '_') :=
  Text.of_ascii (P := fun c => isSmallChar c = true →
      (c.toUpper.isUpper || c.toUpper.isDigit || c.toUpper == '_') = true
        ∧ c.toUpper.toLower = c ∧ (c.toUpper = '_' → c = '_'))
    (by decide) (toNat_lt_of_isIdentChar (isIdentChar_of_isSmallChar h)) h

/-- A letter or digit in small form. -/
theorem isSmallChar_toLower (h : isWordChar c = true) :
    isSmallChar c.toLower = true ∧ c.toLower ≠ '_' :=
  Text.of_ascii (P := fun c => isWordChar c = true →
      isSmallChar c.toLower = true ∧ c.toLower ≠ '_')
    (by decide) (toNat_lt_of_isWordChar h) h

/-! ## The words of a constant -/

/-- A word of a constant: not empty, and of small letters and digits. -/
def IsSmallWord (word : List Char) : Prop :=
  word ≠ [] ∧ ∀ c ∈ word, isSmallChar c = true ∧ c ≠ '_'

theorem isSmallWord_of_mem_smallWords {word : String} (h : word ∈ smallWords s) :
    IsSmallWord word.toList := by
  obtain ⟨w, hw, rfl⟩ := List.mem_map.mp h
  rw [String.toList_ofList]
  refine ⟨mt List.map_eq_nil_iff.mp (Text.ne_nil_of_mem_runs hw), List.forall_mem_map.mpr ?_⟩
  exact fun c hc => isSmallChar_toLower (Text.mem_runs hw hc)

theorem isSmallWord_of_mem_constantWords :
    ∀ word ∈ (constantWords s).map String.toList, IsSmallWord word := by
  rw [List.forall_mem_map]
  intro word h
  unfold constantWords at h
  split at h
  · rw [List.mem_singleton] at h
    subst h
    have hall : ("empty".toList.all fun c => isSmallChar c && c != '_') = true := by decide
    refine ⟨by decide, fun c hc => ?_⟩
    have hc := List.all_eq_true.mp hall c hc
    rwa [Bool.and_eq_true, bne_iff_ne] at hc
  · exact isSmallWord_of_mem_smallWords h

theorem constantWords_ne_nil (s : String) : (constantWords s).map String.toList ≠ [] := by
  unfold constantWords
  split
  next => exact List.cons_ne_nil _ _
  next h => exact mt List.map_eq_nil_iff.mp h

theorem isSmallChar_of_mem_constantChars (h : c ∈ constantChars s) : isSmallChar c = true := by
  rcases Text.mem_joinWith h with hsep | ⟨word, hword, hc⟩
  · rw [List.mem_singleton.mp hsep]
    decide
  · exact ((isSmallWord_of_mem_constantWords word hword).2 c hc).1

/-- A constant starts with a letter or a digit, unless an underscore keeps the digit from the start.
-/
theorem head_constantChars (s : String) : ∃ c rest, constantChars s = c :: rest ∧ c ≠ '_' := by
  have hwords := @isSmallWord_of_mem_constantWords s
  obtain ⟨c, rest, hcons⟩ := List.exists_cons_of_ne_nil
    (@Text.joinWith_ne_nil '_' _ (constantWords_ne_nil s) fun word hw => (hwords word hw).1)
  have hmarks : ∀ word ∈ (constantWords s).map String.toList, word ≠ [] ∧ ∀ d ∈ word, d ≠ '_' :=
    fun word hw => ⟨(hwords word hw).1, fun d hd => ((hwords word hw).2 d hd).2⟩
  have hhead : (constantChars s).head? = some c := congrArg List.head? hcons
  exact ⟨c, rest, hcons, Text.of_head?_joinWith (P := (· ≠ '_')) hmarks hhead⟩

theorem snakeCase_eq_smallWords (s : String) :
    snakeCase s = String.ofList (joinWith ['_'] ((smallWords s).map String.toList)) := by
  refine (snakeCase_eq_iff fun word hw => ?_).mpr rfl
  obtain ⟨hne, hchars⟩ := isSmallWord_of_mem_smallWords hw
  exact ⟨mt String.toList_eq_nil_iff.mpr hne, fun hmark => (hchars '_' hmark).2 rfl⟩

/-- A constant is made of its words in capitals. -/
theorem constant_eq (s : String) :
    constant s = marked (String.ofList ((constantChars s).map Char.toUpper)) := by
  have hcapitals : (if Text.upper (snakeCase s) = "" then "EMPTY" else Text.upper (snakeCase s))
      = String.ofList ((constantChars s).map Char.toUpper) := by
    rw [snakeCase_eq_smallWords]
    by_cases hnone : smallWords s = []
    · rw [constantChars, constantWords, if_pos hnone, hnone]
      decide
    · have hchars : constantChars s = joinWith ['_'] ((smallWords s).map String.toList) := by
        rw [constantChars, constantWords, if_neg hnone]
      obtain ⟨c, rest, hcons, -⟩ := head_constantChars s
      have hupper : Text.upper (String.ofList (constantChars s))
          = String.ofList ((constantChars s).map Char.toUpper) := by
        rw [← String.toList_inj, Text.toList_upper, String.toList_ofList, String.toList_ofList]
        rw [String.toList_ofList]
        exact isAscii_of_isSmallChar fun c hc => isSmallChar_of_mem_constantChars hc
      rw [← hchars, hupper, if_neg]
      rw [hcons, String.ofList_eq_empty_iff]
      exact List.cons_ne_nil _ _
  rw [constant, hcapitals, marked]

/-! ## What a constant tells -/

/-- What is left of a constant without underscores in front, in small letters, are its words. -/
theorem unmarked_constant (s : String) :
    ((constant s).toList.dropWhile (· == '_')).map Char.toLower = constantChars s := by
  have hback : ((constantChars s).map Char.toUpper).map Char.toLower = constantChars s := by
    rw [List.map_map]
    refine (List.map_congr_left fun c hc => ?_).trans (List.map_id _)
    exact (toUpper_of_isSmallChar (isSmallChar_of_mem_constantChars hc)).2.1
  have hstays : ((constantChars s).map Char.toUpper).dropWhile (· == '_')
      = (constantChars s).map Char.toUpper := by
    obtain ⟨c, rest, hcons, hc⟩ := head_constantChars s
    have hsmall : isSmallChar c = true :=
      isSmallChar_of_mem_constantChars (hcons ▸ List.mem_cons_self)
    rw [hcons, List.map_cons, List.dropWhile_cons_of_neg]
    rw [beq_iff_eq]
    exact mt (toUpper_of_isSmallChar hsmall).2.2 hc
  rw [constant_eq, toList_marked, String.toList_ofList]
  generalize startsWithDigit _ = digit
  cases digit with
  | true =>
      rw [if_pos rfl, List.dropWhile_cons_of_pos (p := (· == '_')) (by decide), hstays, hback]
  | false => rw [if_neg Bool.false_ne_true, hstays, hback]

/-- Two texts have one constant exactly if they have the same words. -/
theorem constant_eq_iff : constant a = constant b ↔ constantWords a = constantWords b := by
  refine ⟨fun h => ?_, fun h => by rw [constant_eq, constant_eq, constantChars, constantChars, h]⟩
  have hchars : constantChars a = constantChars b := by
    rw [← unmarked_constant, h, unmarked_constant]
  have hwords : ∀ s, ∀ word ∈ (constantWords s).map String.toList, word ≠ [] ∧ '_' ∉ word := by
    intro s word hw
    obtain ⟨hne, hall⟩ := isSmallWord_of_mem_constantWords word hw
    exact ⟨hne, fun hmark => (hall '_' hmark).2 rfl⟩
  have htexts := (Text.joinWith_eq_iff (hwords a) (hwords b)).mp hchars
  exact (List.map_inj_right fun _ _ => String.toList_inj.mp).mp htexts

/-- A constant is a name of capitals, digits and underscores that starts with no digit. -/
theorem isConstant_constant (s : String) : IsConstant (constant s) := by
  obtain ⟨c, rest, hcons, -⟩ := head_constantChars s
  have hchars : ∀ d ∈ (constantChars s).map Char.toUpper,
      (d.isUpper || d.isDigit || d == '_') = true := by
    rw [List.forall_mem_map]
    exact fun d hd => (toUpper_of_isSmallChar (isSmallChar_of_mem_constantChars hd)).1
  have hdigit : startsWithDigit (String.ofList ((constantChars s).map Char.toUpper))
      = c.toUpper.isDigit := by
    have hsmall : isSmallChar c = true :=
      isSmallChar_of_mem_constantChars (hcons ▸ List.mem_cons_self)
    rw [startsWithDigit, String.toList_ofList, hcons, List.map_cons]
    exact Text.of_ascii (P := fun c => Text.isDigit c.toUpper = c.toUpper.isDigit) (by decide)
      (toNat_lt_of_isIdentChar (isIdentChar_of_isSmallChar hsmall))
  have hlist : (constant s).toList = if c.toUpper.isDigit then
      '_' :: (constantChars s).map Char.toUpper else (constantChars s).map Char.toUpper := by
    rw [constant_eq, toList_marked, hdigit, String.toList_ofList]
  refine ⟨fun hempty => ?_, fun d hd => ?_, fun d hd => ?_⟩
  · rw [hempty, hcons] at hlist
    split at hlist
    · cases hlist
    · cases hlist
  · rw [hlist] at hd
    split at hd
    · rcases List.mem_cons.mp hd with rfl | hd
      · decide
      · exact hchars d hd
    · exact hchars d hd
  · rw [hlist, hcons, List.map_cons] at hd
    split at hd
    next =>
      cases hd
      decide
    next hfree =>
      cases hd
      exact Bool.eq_false_iff.mpr hfree

end ApiScaffold.Naming
