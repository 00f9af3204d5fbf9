import ApiScaffold.Text.Case
import ApiScaffold.Text.Kind

/-!
# Characters of ASCII

What is said of characters of ASCII is decided for all 128 of them (`of_ascii`): which are letters
and digits, and how small forms and capitals are read back from each other. The tables of letter
case give them no other forms, so a text of ASCII is put into small letters and into capitals
character by character (`toList_lower`, `toList_upper`).
-/

namespace ApiScaffold.Text

/-- A text of ASCII. -/
def IsAscii (cs : List Char) : Prop := ∀ c ∈ cs, c.toNat < 128

theorem of_ascii {P : Char → Prop} (h : ∀ n < 128, P (Char.ofNat n)) {c : Char}
    (hc : c.toNat < 128) : P c := by
  have hcode := h c.toNat hc
  rwa [Char.ofNat_toNat] at hcode

theorem isAlpha_eq (c : Char) : c.isAlpha = (c.isUpper || c.isLower) := rfl

/-- The only digits of ASCII are the decimal ones. -/
theorem isDigit_of_ascii {c : Char} (hc : c.toNat < 128) : isDigit c = c.isDigit :=
  of_ascii (P := fun c => isDigit c = c.isDigit) (by decide) hc

theorem isAlpha_of_isDigit {c : Char} (hc : c.toNat < 128) (h : c.isDigit = true) :
    c.isAlpha = false :=
  of_ascii (P := fun c => c.isDigit = true → c.isAlpha = false) (by decide) hc h

/-- What is no letter has no small form that is one. -/
theorem isLower_toLower_of_ascii {c : Char} (hc : c.toNat < 128) (h : c.isAlpha = false) :
    c.toLower.isLower = false :=
  of_ascii (P := fun c => c.isAlpha = false → c.toLower.isLower = false) (by decide) hc h

theorem isLower_of_isUpper {c : Char} (hc : c.toNat < 128) (h : c.isUpper = true) :
    c.isLower = false :=
  of_ascii (P := fun c => c.isUpper = true → c.isLower = false) (by decide) hc h

/-- What is no small letter is its own capital form. -/
theorem toUpper_of_ascii {c : Char} (hc : c.toNat < 128) (h : c.isLower = false) : c.toUpper = c :=
  of_ascii (P := fun c => c.isLower = false → c.toUpper = c) (by decide) hc h

theorem isUpper_toLower_of_ascii {c : Char} (hc : c.toNat < 128) : c.toLower.isUpper = false :=
  of_ascii (P := fun c => c.toLower.isUpper = false) (by decide) hc

/-- A capital form is a digit only of the digit. -/
theorem isDigit_toUpper_of_ascii {c : Char} (hc : c.toNat < 128) : c.toUpper.isDigit = c.isDigit :=
  of_ascii (P := fun c => c.toUpper.isDigit = c.isDigit) (by decide) hc

/-- A character that is no capital can be read back from its capital form. -/
theorem toLower_toUpper_of_ascii {c : Char} (hc : c.toNat < 128) (h : c.isUpper = false) :
    c.toUpper.toLower = c :=
  of_ascii (P := fun c => c.isUpper = false → c.toUpper.toLower = c) (by decide) hc h

/-- What is no small letter can be read back from its small form. -/
theorem toUpper_toLower_of_ascii {c : Char} (hc : c.toNat < 128) (h : c.isLower = false) :
    c.toLower.toUpper = c :=
  of_ascii (P := fun c => c.isLower = false → c.toLower.toUpper = c) (by decide) hc h

theorem lowerFrom_of_ascii {before cs : List Char} (h : IsAscii cs) :
    lowerFrom before cs = cs.map Char.toLower := by
  induction cs generalizing before with
  | nil => rfl
  | cons c rest ih =>
      have hc : c.toNat < 128 := h c List.mem_cons_self
      have hsigma : c.toNat ≠ 0x3A3 := by omega
      have hrest := @ih (c :: before) fun d hd => h d (List.mem_cons_of_mem _ hd)
      rw [lowerFrom, if_neg hsigma, lowerChar, if_pos hc, hrest]
      rfl

theorem toList_lower {s : String} (h : IsAscii s.toList) :
    (lower s).toList = s.toList.map Char.toLower := by
  rw [lower, String.toList_ofList, lowerFrom_of_ascii h]

theorem toList_upper {s : String} (h : IsAscii s.toList) :
    (upper s).toList = s.toList.map Char.toUpper := by
  rw [upper, String.toList_ofList]
  generalize s.toList = cs at h
  induction cs with
  | nil => rfl
  | cons c rest ih =>
      have hc : c.toNat < 128 := h c List.mem_cons_self
      have hrest := ih fun d hd => h d (List.mem_cons_of_mem _ hd)
      rw [List.flatMap_cons, hrest, upperChar, if_pos hc]
      rfl

end ApiScaffold.Text
