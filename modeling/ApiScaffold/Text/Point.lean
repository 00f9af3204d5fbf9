/-!
# Code points

A text is a row of code points, and 2048 code points are no characters: the halves of the pairs that
UTF-16 writes for what is beyond its units. An escape may give one half alone, and it has to come
out again as it went in. A `String` holds characters only, so texts are spelt in it.

* A half is spelt by one private character, from U+E000 on (`isHalf`).
* What halves take up, and what this rule itself does, is spelt by two private characters: a lead
  and a trail (`isLead`, `isTrail`).
* Any other code point is a character and spells itself.

A letter is the spelling of one code point. Leads and trails stand in no other place, so a text
falls into letters in one way (`letters`), and the order of texts is the order of their code points.
Every text in this library is spelt. What comes from outside is spelt when it is read (`spelt`), and
what goes there is written as the characters that it spells (`plain`).
-/

namespace ApiScaffold.Text

/-! ## Halves -/

/-- Whether a unit is the first half of a pair. -/
def isFirstHalf (unit : Nat) : Bool := 0xD800 ≤ unit && unit < 0xDC00

/-- Whether a unit is the second half of a pair. -/
def isSecondHalf (unit : Nat) : Bool := 0xDC00 ≤ unit && unit < 0xE000

def isHalfUnit (unit : Nat) : Bool := isFirstHalf unit || isSecondHalf unit

/-- The code point that two halves denote. -/
def joinHalves (first second : Nat) : Nat :=
  0x10000 + (first - 0xD800) * 0x400 + (second - 0xDC00)

/-- The UTF-16 units of a code point. -/
def utf16Units (n : Nat) : List Nat :=
  if n < 0x10000 then [n]
  else [0xD800 + (n - 0x10000) / 0x400, 0xDC00 + (n - 0x10000) % 0x400]

/-! ## Spelling -/

/-- What spells one code point. -/
abbrev Letter := List Char

/-- The character that spells the first half. -/
def halfStart : Nat := 0xE000

/-- The first lead; halves are spelt below it. -/
def leadStart : Nat := 0xE800

/-- The first trail; leads are below it. -/
def trailStart : Nat := 0xE830

/-- The first character that spells itself again. -/
def spellEnd : Nat := 0xE860

/-- How many trails there are. -/
def trails : Nat := 48

/-- Whether a character spells a half. -/
def isHalf (c : Char) : Bool := halfStart ≤ c.toNat && c.toNat < leadStart

def isLead (c : Char) : Bool := leadStart ≤ c.toNat && c.toNat < trailStart

def isTrail (c : Char) : Bool := trailStart ≤ c.toNat && c.toNat < spellEnd

/-- The letter of a code point. -/
def spell (n : Nat) : Letter :=
  if isHalfUnit n then [Char.ofNat (halfStart + (n - 0xD800))]
  else if halfStart ≤ n && n < spellEnd then
    [Char.ofNat (leadStart + (n - halfStart) / trails),
      Char.ofNat (trailStart + (n - halfStart) % trails)]
  else [Char.ofNat n]

/-- The code point of a letter. -/
def point : Letter → Nat
  | [c] => if isHalf c then 0xD800 + (c.toNat - halfStart) else c.toNat
  | [lead, trail] => halfStart + (lead.toNat - leadStart) * trails + (trail.toNat - trailStart)
  | _ => 0

/-- The letters of a text. -/
def letters : List Char → List Letter
  | c :: d :: rest =>
    if isLead c && isTrail d then [c, d] :: letters rest else [c] :: letters (d :: rest)
  | [c] => [[c]]
  | [] => []

/-- The code points of a text. -/
def points (s : String) : List Nat := (letters s.toList).map point

def ofPoints (ns : List Nat) : String := String.ofList (ns.flatMap spell)

/-- The text of some characters. -/
def spelt (s : String) : String := ofPoints (s.toList.map Char.toNat)

/-- The characters of a text without halves. -/
def plain (s : String) : String := String.ofList ((points s).map Char.ofNat)

/-- How many bytes the characters of a text are in UTF-8. -/
def byteCount (s : String) : Nat := (plain s).utf8ByteSize

end ApiScaffold.Text
