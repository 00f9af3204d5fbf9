import ApiScaffold.Number.Numeral
import ApiScaffold.Proofs.Text.Whole

/-!
# Reading a literal

The rules are those that JSON and Java share: between the quotes stand short escapes, UTF-16 units
as `\uXXXX` and characters as they are, and two units that are a pair denote one character
(`writtenUnits?`, `unitChars?`, `denoted?`).

A literal is written letter by letter, and `LiteralForm` says what may stand for a code point: a
short escape, the character itself or the escapes of its units. All proofs about literals go through
these three cases, also those for readers with other rules.

* `writtenUnits?_body`: read so, the literal of a text writes the units of its code points, lone
  halves as they are.
* `denoted?_literal`: the literal of the spelling of characters denotes these characters, all of
  them.
* `isPlain_literal`: a literal is printable ASCII.
-/

namespace ApiScaffold.Text

/-! ## The rules -/

/-- The unit of an escape that is one letter. -/
def shortUnit? : Char → Option Nat
  | '"' => some 34
  | '\\' => some 92
  | 'b' => some 8
  | 't' => some 9
  | 'n' => some 10
  | 'f' => some 12
  | 'r' => some 13
  | _ => none

/-- Whether a unit ends a line or a text or opens an escape. Java reads the escape of such a unit
as if the character stood there itself. -/
def isSyntax (unit : Nat) : Bool := [10, 13, 34, 92].contains unit

/-- The units that a literal writes behind its opening quote, up to the closing one at its end. -/
def writtenUnits? : List Char → Option (List Nat)
  | [] => none
  | ['"'] => some []
  | '\\' :: 'u' :: a :: b :: c :: d :: rest => do
    let unit ← Numeral.ofDigits? 16 [a, b, c, d]
    if isSyntax unit then none else return unit :: (← writtenUnits? rest)
  | '\\' :: e :: rest => do return (← shortUnit? e) :: (← writtenUnits? rest)
  | c :: rest =>
    if c = '"' ∨ c = '\\' ∨ c.toNat < 32 then none
    else (utf16Units c.toNat ++ ·) <$> writtenUnits? rest

/-- The characters that units denote, if there is no half alone among them. -/
def unitChars? : List Nat → Option (List Char)
  | [] => some []
  | [unit] => if isHalfUnit unit then none else some [Char.ofNat unit]
  | unit :: next :: rest =>
    if isFirstHalf unit then
      if isSecondHalf next then (Char.ofNat (joinHalves unit next) :: ·) <$> unitChars? rest
      else none
    else if isSecondHalf unit then none
    else (Char.ofNat unit :: ·) <$> unitChars? (next :: rest)

/-- The characters that a literal denotes. -/
def denoted? (literal : String) : Option String :=
  match literal.toList with
  | '"' :: rest => do return String.ofList (← unitChars? (← writtenUnits? rest))
  | _ => none

/-! ## Units as escapes -/

variable {unit n : Nat} {c : Char} {cs rest : List Char} {letter : Letter}

theorem hexDigits_one {n : Nat} (h : n < 16) : hexDigits 1 n = [n.digitChar] := by
  rw [hexDigits, Nat.toDigits_of_lt_base h]
  rfl

/-- The last digit of a padded number is apart from the others. -/
theorem hexDigits_succ {width : Nat} (hw : 0 < width) (n : Nat) :
    hexDigits (width + 1) n = hexDigits width (n / 16) ++ [Nat.digitChar (n % 16)] := by
  unfold hexDigits
  dsimp only
  by_cases h : n < 16
  · -- all others are zeros
    obtain ⟨w, rfl⟩ := Nat.exists_eq_add_of_lt hw
    rw [Nat.toDigits_of_lt_base h, Nat.div_eq_of_lt h, Nat.mod_eq_of_lt h, Nat.toDigits_zero]
    simp [List.replicate_succ']
  · rw [Nat.toDigits_of_base_le (by decide) (by omega), List.length_append, ← List.append_assoc]
    simp

/-- A unit has four hexadecimal digits. -/
theorem hexDigits_four (h : unit < 0x10000) : hexDigits 4 unit =
    [Nat.digitChar (unit / 16 / 16 / 16), Nat.digitChar (unit / 16 / 16 % 16),
      Nat.digitChar (unit / 16 % 16), Nat.digitChar (unit % 16)] := by
  rw [hexDigits_succ (by decide), hexDigits_succ (by decide), hexDigits_succ (by decide),
    hexDigits_one (by omega)]
  rfl

theorem digitValue?_digitChar {n : Nat} (h : n < 16) :
    Numeral.digitValue? n.digitChar = some n := by
  have hall : ∀ m < 16, Numeral.digitValue? (Nat.digitChar m) = some m := by decide
  exact hall n h

/-- An escaped unit is read back. -/
theorem writtenUnits?_unitEscape (h : unit < 0x10000) (hs : isSyntax unit = false) :
    writtenUnits? (unitEscape unit ++ rest) = (unit :: ·) <$> writtenUnits? rest := by
  have hread : Numeral.ofDigits? 16 (hexDigits 4 unit) = some unit := by
    rw [hexDigits_four h]
    simp only [Numeral.ofDigits?, List.foldl_cons, List.foldl_nil, Option.bind_eq_bind,
      Option.bind_some, digitValue?_digitChar (show unit / 16 / 16 / 16 < 16 by omega),
      digitValue?_digitChar (Nat.mod_lt _ (show 0 < 16 by decide))]
    rw [if_pos (by omega), Option.bind_some, if_pos (by omega), Option.bind_some,
      if_pos (by omega), Option.bind_some, if_pos (by omega)]
    exact congrArg some (by omega)
  rw [unitEscape, hexDigits_four h]
  rw [hexDigits_four h] at hread
  rw [List.cons_append, List.cons_append, List.cons_append, List.cons_append, List.cons_append,
    List.cons_append, List.nil_append, writtenUnits?, hread, Option.bind_eq_bind, Option.bind_some,
    if_neg (by simp [hs])]
  cases writtenUnits? rest <;> rfl

/-! ## The units of a code point -/

theorem utf16Units_of_lt (h : n < 0x10000) : utf16Units n = [n] := if_pos h

/-- A unit of a code point is the code point itself or a half. -/
theorem mem_utf16Units (hn : n < 0x110000) (h : unit ∈ utf16Units n) :
    unit < 0x10000 ∧ unit = n ∨ isHalfUnit unit = true := by
  unfold utf16Units at h
  split at h
  next hlt =>
    obtain rfl := List.mem_singleton.mp h
    exact .inl ⟨hlt, rfl⟩
  next =>
    rw [isHalfUnit_iff]
    simp only [List.mem_cons, List.not_mem_nil, or_false] at h
    omega

theorem utf16Units_lt (hn : n < 0x110000) (h : unit ∈ utf16Units n) : unit < 0x10000 := by
  rcases mem_utf16Units hn h with ⟨hlt, -⟩ | hhalf
  · exact hlt
  · rw [isHalfUnit_iff] at hhalf
    omega

theorem isSyntax_iff : isSyntax unit = true ↔ unit = 10 ∨ unit = 13 ∨ unit = 34 ∨ unit = 92 := by
  simp [isSyntax]

/-- Only the characters of the syntax have its units. -/
theorem isSyntax_of_mem_utf16Units (hn : n < 0x110000) (hs : isSyntax n = false)
    (h : unit ∈ utf16Units n) : isSyntax unit = false := by
  rcases mem_utf16Units hn h with ⟨-, rfl⟩ | hhalf
  · exact hs
  · rw [isHalfUnit_iff] at hhalf
    rw [← Bool.not_eq_true, isSyntax_iff]
    omega

/-! ## How a code point stands in a literal -/

/-- A code point is written by a short escape of it, as it is or by escapes of its units; one of the
syntax is written by a short escape only. -/
inductive LiteralForm (keeps : Char → Bool) : Nat → List Char → Prop
  | short {n : Nat} {e : Char} (h : shortUnit? e = some n) : LiteralForm keeps n ['\\', e]
  | kept {n : Nat} {c : Char} (hc : c.toNat = n) (hs : isSyntax n = false) (hk : keeps c = true) :
      LiteralForm keeps n [c]
  | units {n : Nat} (hs : isSyntax n = false) : LiteralForm keeps n (unitEscapes n)

theorem point_singleton (h : isHalf c = false) : point [c] = c.toNat := by
  rw [point, h, if_neg Bool.false_ne_true]

/-- A character that spells a half has neither a short escape nor a place of its own. -/
theorem literalForm_half {keeps : Char → Bool} (hk : ∀ c, keeps c = true → isHalf c = false)
    (h : isHalf c = true) : LiteralForm keeps (point [c]) (literalChar keeps c) := by
  have hkept : ¬keeps c = true := fun hkc => Bool.false_ne_true ((hk c hkc).symm.trans h)
  have hpoint : point [c] = 0xD800 + (c.toNat - 0xE000) := by rw [point, if_pos h]; rfl
  have hs : isSyntax (point [c]) = false := by
    rw [Bool.eq_false_iff, Ne, isSyntax_iff]
    omega
  rw [isHalf_iff] at h
  have other {d : Char} (hd : d.toNat < 0xE000) : c ≠ d := by
    rintro rfl
    omega
  rw [literalChar, if_neg (other (by decide)), if_neg (other (by decide)),
    if_neg (other (by decide)), if_neg (other (by decide)), if_neg (other (by decide)),
    if_neg (by omega), if_neg (by omega), if_neg hkept]
  exact .units hs

theorem literalForm_literalChar {keeps : Char → Bool}
    (hk : ∀ c, keeps c = true → isHalf c = false) (c : Char) :
    LiteralForm keeps (point [c]) (literalChar keeps c) := by
  by_cases hhalf : isHalf c = true
  · exact literalForm_half hk hhalf
  rw [point_singleton (Bool.eq_false_iff.mpr hhalf)]
  by_cases hs : isSyntax c.toNat = true
  · rw [isSyntax_iff] at hs
    have eq {d : Char} (h : c.toNat = d.toNat) : c = d := Char.toNat_inj.mp h
    rcases hs with h | h | h | h
    · obtain rfl : c = '\n' := eq h
      exact .short rfl
    · obtain rfl : c = '\r' := eq h
      exact .short rfl
    · obtain rfl : c = '"' := eq h
      exact .short rfl
    · obtain rfl : c = '\\' := eq h
      exact .short rfl
  · -- what is left of the short escapes are the tabulator, the backspace and the form feed
    rw [Bool.not_eq_true] at hs
    have other {d : Char} (hd : isSyntax d.toNat = true) : c ≠ d := by
      rintro rfl
      exact Bool.false_ne_true (hs.symm.trans hd)
    have hunits : unitEscapes (point [c]) = unitEscapes c.toNat := by
      rw [point_singleton (Bool.eq_false_iff.mpr hhalf)]
    rw [literalChar, if_neg (other rfl), if_neg (other rfl), if_neg (other rfl),
      if_neg (other rfl), hunits]
    split
    next h => subst h; exact .short rfl
    split
    next h => exact .short (h ▸ rfl)
    split
    next h => exact .short (h ▸ rfl)
    split
    next hk => exact .kept rfl hs hk
    next => exact .units hs

/-- What stands for a letter of a text is one of the forms of its code point. -/
theorem literalForm_literalLetter {keeps : Char → Bool}
    (hk : ∀ c, keeps c = true → isHalf c = false) (h : letter ∈ letters cs) :
    LiteralForm keeps (point letter) (literalLetter keeps letter) := by
  rcases letter_cases h with ⟨c, -, rfl⟩ | ⟨a, -, b, -, ha, hb, rfl⟩
  · exact literalForm_literalChar hk c
  · refine .units (Bool.eq_false_iff.mpr fun hs => ?_)
    have hpoint : 0xE000 ≤ point [a, b] := by
      rw [point, halfStart]
      omega
    rw [isSyntax_iff] at hs
    omega

theorem shortUnit?_eq_some {e : Char} (h : shortUnit? e = some unit) :
    isPlain e = true ∧ unit < 0x10000 := by
  unfold shortUnit? at h
  split at h <;> cases h <;> exact ⟨by decide, by decide⟩

/-! ## The literal of a text -/

/-- Escaped units are read back. -/
theorem writtenUnits?_escapes {units : List Nat}
    (h : ∀ unit ∈ units, unit < 0x10000 ∧ isSyntax unit = false) :
    writtenUnits? (units.flatMap unitEscape ++ rest) = (units ++ ·) <$> writtenUnits? rest := by
  induction units with
  | nil => cases hw : writtenUnits? rest <;> simp [hw]
  | cons unit units ih =>
      rw [List.forall_mem_cons] at h
      rw [List.flatMap_cons, List.append_assoc, writtenUnits?_unitEscape h.1.1 h.1.2, ih h.2]
      cases writtenUnits? rest <;> rfl

theorem writtenUnits?_short {e : Char} (he : shortUnit? e = some n) :
    writtenUnits? ('\\' :: e :: rest) = (utf16Units n ++ ·) <$> writtenUnits? rest := by
  have hu : e ≠ 'u' := by
    rintro rfl
    cases he
  rw [writtenUnits?, he, utf16Units_of_lt (shortUnit?_eq_some he).2]
  · cases writtenUnits? rest <;> rfl
  · intros
    exact hu ‹_›

theorem writtenUnits?_kept (hs : isSyntax c.toNat = false) (hc : isPlain c = true) :
    writtenUnits? (c :: rest) = (utf16Units c.toNat ++ ·) <$> writtenUnits? rest := by
  obtain ⟨hlow, -⟩ : 32 ≤ c.toNat ∧ c.toNat < 127 := by simpa [isPlain] using hc
  have hquote : c ≠ '"' := by
    rintro rfl
    cases hs
  have hslash : c ≠ '\\' := by
    rintro rfl
    cases hs
  have hkept : ¬(c = '"' ∨ c = '\\' ∨ c.toNat < 32) := by
    rintro (h | h | h)
    exacts [hquote h, hslash h, absurd h (by omega)]
  rw [writtenUnits?, if_neg hkept]
  · exact fun h _ => hquote h
  · exact fun _ _ _ _ _ h _ => hslash h
  · exact fun _ _ h _ => hslash h

/-- What stands for a code point writes its units. -/
theorem writtenUnits?_form (hn : n < 0x110000) (h : LiteralForm isPlain n cs) :
    writtenUnits? (cs ++ rest) = (utf16Units n ++ ·) <$> writtenUnits? rest := by
  cases h with
  | short he => exact writtenUnits?_short he
  | kept hc hs hplain =>
      subst hc
      exact writtenUnits?_kept hs hplain
  | units hs =>
      exact writtenUnits?_escapes fun unit hunit =>
        ⟨utf16Units_lt hn hunit, isSyntax_of_mem_utf16Units hn hs hunit⟩

/-- A reader that takes what stands for a code point as its units takes the literal of a text as the
units of its code points. -/
theorem read_body {read : List Char → Option (List Nat)} (hend : read ['"'] = some [])
    (hform : ∀ {n cs rest}, n < 0x110000 → LiteralForm isPlain n cs →
      read (cs ++ rest) = (utf16Units n ++ ·) <$> read rest) (s : String) :
    read ((letters s.toList).flatMap (literalLetter isPlain) ++ ['"'])
      = some ((points s).flatMap utf16Units) := by
  have hletters (ls : List Letter) (h : ∀ letter ∈ ls, letter ∈ letters s.toList) :
      read (ls.flatMap (literalLetter isPlain) ++ ['"'])
        = some ((ls.map point).flatMap utf16Units) := by
    induction ls with
    | nil => exact hend
    | cons letter ls ih =>
        rw [List.forall_mem_cons] at h
        have hletter := literalForm_literalLetter (fun _ => isHalf_of_isPlain) h.1
        rw [List.flatMap_cons, List.append_assoc, hform (point_lt h.1) hletter, ih h.2]
        rfl
  exact hletters _ fun _ h => h

/-- The literal of a text writes the units of its code points. -/
theorem writtenUnits?_body (s : String) :
    writtenUnits? ((letters s.toList).flatMap (literalLetter isPlain) ++ ['"'])
      = some ((points s).flatMap utf16Units) :=
  read_body rfl writtenUnits?_form s

/-- The units of a character denote it. -/
theorem unitChars?_utf16Units (c : Char) (units : List Nat) :
    unitChars? (utf16Units c.toNat ++ units) = (c :: ·) <$> unitChars? units := by
  have hvalid := toNat_valid c
  unfold utf16Units
  split
  next hlt =>
    have hfirst : isFirstHalf c.toNat = false := by
      simp only [isFirstHalf, Bool.and_eq_false_iff, decide_eq_false_iff_not]
      omega
    have hsecond : isSecondHalf c.toNat = false := by
      simp only [isSecondHalf, Bool.and_eq_false_iff, decide_eq_false_iff_not]
      omega
    cases units with
    | nil => simp [unitChars?, isHalfUnit, hfirst, hsecond, Char.ofNat_toNat]
    | cons next units =>
        simp [unitChars?, hfirst, hsecond, Char.ofNat_toNat]
  next hge =>
    -- the halves of a pair
    have hfirst : isFirstHalf (0xD800 + (c.toNat - 0x10000) / 0x400) = true := by
      simp only [isFirstHalf, Bool.and_eq_true, decide_eq_true_eq]
      omega
    have hsecond : isSecondHalf (0xDC00 + (c.toNat - 0x10000) % 0x400) = true := by
      simp only [isSecondHalf, Bool.and_eq_true, decide_eq_true_eq]
      omega
    have hjoin : joinHalves (0xD800 + (c.toNat - 0x10000) / 0x400)
        (0xDC00 + (c.toNat - 0x10000) % 0x400) = c.toNat := by
      have hsum : 0x10000 + (0xD800 + (c.toNat - 0x10000) / 0x400 - 0xD800) * 0x400
          + (0xDC00 + (c.toNat - 0x10000) % 0x400 - 0xDC00) = c.toNat := by omega
      exact hsum
    rw [List.cons_append, List.cons_append, List.nil_append, unitChars?, if_pos hfirst,
      if_pos hsecond, hjoin, Char.ofNat_toNat]

theorem unitChars?_units (cs : List Char) :
    unitChars? ((cs.map Char.toNat).flatMap utf16Units) = some cs := by
  induction cs with
  | nil => rfl
  | cons c cs ih =>
      rw [List.map_cons, List.flatMap_cons, unitChars?_utf16Units, ih]
      rfl

/-- The literal of what is spelt denotes what is spelt. -/
theorem denoted?_literal (s : String) : denoted? (literal (spelt s)) = some s := by
  rw [denoted?, literal, String.toList_ofList]
  simp only [List.cons_append, Option.bind_eq_bind]
  rw [writtenUnits?_body, Option.bind_some, points_spelt, unitChars?_units]
  exact congrArg some String.ofList_toList

example : denoted? "\"\\u007f\\ud83d\\ude00\"" = some "\x7f😀" := by decide

theorem isPlain_digitChar : ∀ d < 16, isPlain (Nat.digitChar d) = true := by decide

theorem isPlain_unitEscape (h : unit < 0x10000) : ∀ c ∈ unitEscape unit, isPlain c = true := by
  rw [unitEscape, hexDigits_four h]
  simp only [List.forall_mem_cons, List.not_mem_nil, false_imp_iff, implies_true, and_true]
  exact ⟨by decide, by decide, isPlain_digitChar _ (by omega), isPlain_digitChar _ (by omega),
    isPlain_digitChar _ (by omega), isPlain_digitChar _ (by omega)⟩

/-- What stands for a code point is printable ASCII. -/
theorem LiteralForm.isPlain (hn : n < 0x110000) (h : LiteralForm Text.isPlain n cs) :
    ∀ d ∈ cs, Text.isPlain d = true := by
  intro d hd
  cases h with
  | short he =>
      simp only [List.mem_cons, List.not_mem_nil, or_false] at hd
      rcases hd with rfl | rfl
      · decide
      · exact (shortUnit?_eq_some he).1
  | kept _ _ hplain => rwa [List.mem_singleton.mp hd]
  | units _ =>
      obtain ⟨unit, hunit, hd⟩ := List.mem_flatMap.mp hd
      exact isPlain_unitEscape (utf16Units_lt hn hunit) d hd

theorem isPlain_literal (s : String) : ∀ c ∈ (literal s).toList, isPlain c = true := by
  rw [literal, String.toList_ofList, List.cons_append]
  simp only [List.forall_mem_cons, List.mem_append, List.mem_flatMap, List.mem_singleton]
  refine ⟨by decide, ?_⟩
  rintro d (⟨letter, hletter, hd⟩ | rfl)
  · exact (literalForm_literalLetter (fun _ => isHalf_of_isPlain) hletter).isPlain
      (point_lt hletter) d hd
  · decide

end ApiScaffold.Text
