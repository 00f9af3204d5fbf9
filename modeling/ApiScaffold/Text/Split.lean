/-!
# Cutting text

Cutting text at separators, into runs of characters of a kind, or at the first or last occurrence of
a separator, and putting it together again. All of it is recursion on the characters, so what is
said of the pieces is proved by induction on the text.

Separators are single characters of ASCII, which stand for themselves in every text, so nothing here
can cut a letter in two.
-/

namespace ApiScaffold.Text

/-- The pieces of a text between the occurrences of a separator, one more than there are
separators. -/
def splitOn (sep : Char) : List Char → List (List Char)
  | [] => [[]]
  | c :: cs =>
    if c = sep then [] :: splitOn sep cs
    else match splitOn sep cs with
      | [] => [[c]]
      | piece :: pieces => (c :: piece) :: pieces

/-- Puts pieces together with a separator between neighbours. -/
def joinWith (sep : List Char) : List (List Char) → List Char
  | [] => []
  | [piece] => piece
  | piece :: pieces => piece ++ sep ++ joinWith sep pieces

/-- The pieces of a string between the occurrences of a separator. -/
def splitString (sep : Char) (s : String) : List String :=
  (splitOn sep s.toList).map String.ofList

/-- The maximal runs of characters that satisfy the test. -/
def runs (p : Char → Bool) : List Char → List (List Char)
  | [] => []
  | c :: cs =>
    if p c then
      match cs with
      | [] => [[c]]
      | d :: _ =>
        if p d then
          match runs p cs with
          | [] => [[c]]
          | run :: rest => (c :: run) :: rest
        else [c] :: runs p cs
    else runs p cs

/-- Replaces every occurrence of the pair `a b` by `c`, from left to right. -/
def replacePair (a b c : Char) : List Char → List Char
  | [] => []
  | [x] => [x]
  | x :: y :: rest =>
    if x = a ∧ y = b then c :: replacePair a b c rest
    else x :: replacePair a b c (y :: rest)

/-- The part of a text after the last occurrence of a separator, or all of it. -/
def afterLast (sep : Char) (cs : List Char) : List Char :=
  (cs.reverse.takeWhile (· ≠ sep)).reverse

/-- The part of a text before the last occurrence of a separator, or nothing. -/
def beforeLast (sep : Char) (cs : List Char) : List Char :=
  ((cs.reverse.dropWhile (· ≠ sep)).drop 1).reverse

/-- A text is cut at the first occurrence of a separator, which belongs to neither part. -/
def cutAt? {α : Type} [DecidableEq α] (sep : α) (cs : List α) : Option (List α × List α) :=
  match cs.dropWhile (· ≠ sep) with
  | [] => none
  | _ :: after => some (cs.takeWhile (· ≠ sep), after)

/-- Pads a text with blanks on the right up to a width. -/
def padRight (width : Nat) (s : String) : String :=
  s ++ String.ofList (List.replicate (width - s.length) ' ')

end ApiScaffold.Text
