import ApiScaffold.Text.Case.Table

/-!
# Letter case

The change of letter case by the full mappings of Unicode: one character may become several, and a
capital sigma becomes the final form where a word ends. That is the one mapping that looks at the
neighbours, so texts are put into small letters with what came before at hand (`lowerFrom`), and
into capitals character by character.

ASCII letters are mapped without a look at the tables. Identifiers are made from them only, and what
is proved of identifiers needs nothing of the tables.
-/

namespace ApiScaffold.Text

def isCaseIgnorable (c : Char) : Bool := inSpans caseIgnorableSpans c.toNat

/-- Whether the nearest character that is not skipped exists and has a case. -/
def nearestIsCased (cs : List Char) : Bool :=
  match cs.dropWhile isCaseIgnorable with
  | [] => false
  | c :: _ => inSpans casedSpans c.toNat

/-- The small form of a character other than the capital sigma. -/
def lowerChar (c : Char) : List Char :=
  if c.toNat < 128 then [c.toLower]
  else if c.toNat = 0x130 then ['i', Char.ofNat 0x307]
  else [Char.ofNat ((CaseSpan.map? lowerSpans c.toNat).getD c.toNat)]

/-- The small form of the characters that follow `before`, which is kept in reverse. A capital
sigma becomes a final sigma at the end of a word. -/
def lowerFrom (before : List Char) : List Char → List Char
  | [] => []
  | c :: rest =>
    (if c.toNat = 0x3A3 then
      [Char.ofNat (if nearestIsCased before && !nearestIsCased rest then 0x3C2 else 0x3C3)]
    else lowerChar c) ++ lowerFrom (c :: before) rest

/-- The capital form of a character, which may be several characters. -/
def upperChar (c : Char) : List Char :=
  if c.toNat < 128 then [c.toUpper]
  else match upperExpansions.lookup c.toNat with
    | some ns => ns.map Char.ofNat
    | none => [Char.ofNat ((CaseSpan.map? upperSpans c.toNat).getD c.toNat)]

/-- The form of a character at the head of a capitalized word. -/
def titleChar (c : Char) : List Char :=
  match titleExceptions.lookup c.toNat with
  | some ns => ns.map Char.ofNat
  | none => upperChar c

def lower (s : String) : String := String.ofList (lowerFrom [] s.toList)

def upper (s : String) : String := String.ofList (s.toList.flatMap upperChar)

/-- A text with a capital at its head and small letters after it. -/
def capitalize (s : String) : String :=
  match s.toList with
  | [] => ""
  | c :: rest => String.ofList (titleChar c ++ lowerFrom [c] rest)

/-- A text with a small letter at its head and the rest unchanged. -/
def lowerFirst (s : String) : String :=
  match s.toList with
  | [] => ""
  | c :: rest => String.ofList (lowerFrom [] [c] ++ rest)

end ApiScaffold.Text
