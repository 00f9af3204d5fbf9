/-!
# Kinds of characters

What a character counts as when text is trimmed, cut into lines or read as a number: blanks, line
ends and digits, each by the tables of Unicode. A table is a list of closed spans of code points, or
of the first code points of runs, in ascending order.

Letters, which make words and names, have longer tables and are kept apart.
-/

namespace ApiScaffold.Text

/-- Whether a code point lies in one of the spans. -/
def inSpans (spans : List (Nat × Nat)) (n : Nat) : Bool :=
  spans.any fun span => span.1 ≤ n && n ≤ span.2

/-! ## Blanks -/

/-- The code points of the blank characters: the separators of Unicode and the control characters
that separate lines, fields and records. -/
def blankSpans : List (Nat × Nat) := [
  (9, 13), (28, 32), (133, 133), (160, 160), (5760, 5760), (8192, 8202),
  (8232, 8233), (8239, 8239), (8287, 8287), (12288, 12288)]

/-- Whether a character counts as blank when text is trimmed. -/
def isBlank (c : Char) : Bool := inSpans blankSpans c.toNat

/-- Drops from the end of a list what satisfies the test. -/
def dropTail {α : Type} (p : α → Bool) (xs : List α) : List α :=
  (xs.reverse.dropWhile p).reverse

/-- Drops from both ends of a list what satisfies the test. -/
def dropEnds {α : Type} (p : α → Bool) (xs : List α) : List α :=
  dropTail p (xs.dropWhile p)

/-- A text without the blanks at its ends. -/
def trim (s : String) : String := String.ofList (dropEnds isBlank s.toList)

/-- A text without the slashes at its ends. -/
def trimSlashes (s : String) : String := String.ofList (dropEnds (· == '/') s.toList)

/-! ## Lines -/

/-- The code points that end a line. -/
def lineEnds : List Nat := [10, 11, 12, 13, 0x1C, 0x1D, 0x1E, 0x85, 0x2028, 0x2029]

def isLineEnd (c : Char) : Bool := lineEnds.contains c.toNat

/-- The lines of a text without their ends; `line` holds the line so far in reverse. A carriage
return and a line feed after it are one end, and nothing after the last end is no line. -/
def linesFrom (line : List Char) : List Char → List (List Char)
  | [] => if line.isEmpty then [] else [line.reverse]
  | '\r' :: '\n' :: rest => line.reverse :: linesFrom [] rest
  | c :: rest =>
    if isLineEnd c then line.reverse :: linesFrom [] rest else linesFrom (c :: line) rest

/-- A text with line feeds in the place of all carriage returns. -/
def plainLineEnds : List Char → List Char
  | '\r' :: '\n' :: rest => '\n' :: plainLineEnds rest
  | '\r' :: rest => '\n' :: plainLineEnds rest
  | c :: rest => c :: plainLineEnds rest
  | [] => []

def lines (s : String) : List String := (linesFrom [] s.toList).map String.ofList

/-! ## Digits -/

/-- The code points of the zeros; the nine digits of each script follow its zero. -/
def decimalZeros : List Nat := [
  48, 1632, 1776, 1984, 2406, 2534, 2662, 2790, 2918, 3046, 3174, 3302,
  3430, 3558, 3664, 3792, 3872, 4160, 4240, 6112, 6160, 6470, 6608, 6784,
  6800, 6992, 7088, 7232, 7248, 42528, 43216, 43264, 43472, 43504, 43600, 44016,
  65296, 66720, 68912, 69734, 69872, 69942, 70096, 70384, 70736, 70864, 71248, 71360,
  71472, 71904, 72016, 72784, 73040, 73120, 92768, 92864, 93008, 120782, 120792, 120802,
  120812, 120822, 123200, 123632, 125264, 130032]

/-- The spans of digit forms that are no decimal digits, such as superscripts and circled digits. -/
def digitFormSpans : List (Nat × Nat) := [
  (178, 179), (185, 185), (4969, 4977), (6618, 6618), (8304, 8304), (8308, 8313),
  (8320, 8329), (9312, 9320), (9332, 9340), (9352, 9360), (9450, 9450), (9461, 9469),
  (9471, 9471), (10102, 10110), (10112, 10120), (10122, 10130), (68160, 68163), (69216, 69224),
  (69714, 69722), (127232, 127242)]

/-- The value of a decimal digit of any script. -/
def decimalValue? (c : Char) : Option Nat :=
  (decimalZeros.find? fun start => start ≤ c.toNat && c.toNat < start + 10).map (c.toNat - ·)

/-- Whether a character is a decimal digit of any script. -/
def isDecimal (c : Char) : Bool := (decimalValue? c).isSome

/-- Whether a character is a digit, decimal or in another form. -/
def isDigit (c : Char) : Bool := isDecimal c || inSpans digitFormSpans c.toNat

end ApiScaffold.Text
