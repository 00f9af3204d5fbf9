import ApiScaffold.Text.Quoted

/-!
# Base 64

Letters, digits, `+` and `/` stand for six bits each, and equals signs fill up the last group of
four. Other characters of ASCII do not count at all, so a text may be broken into lines.

The digits are read first and the bytes made from their values afterwards, because whether a text is
complete depends on the number of its digits alone (`decodeGroups`). A character beyond ASCII is a
fault before any digit is looked at; it is counted in letters, as messages count.
-/

namespace ApiScaffold.Text.Base64

/-- The digits by their values. -/
def alphabet : List Char :=
  "ABCDEFGHIJKLMNOPQRSTUVWXYZabcdefghijklmnopqrstuvwxyz0123456789+/".toList

/-- The values of the digits of a text, and whether equals signs fill up their last group; nothing
counts behind such a group. `count` is the number of the digits so far, and `fill` that of the
equals signs since the last of them. -/
def scan (count fill : Nat) : List Char → List Nat × Bool
  | [] => ([], false)
  | c :: rest =>
    if c = '=' then
      if count % 4 < 2 then scan count fill rest
      else if 4 ≤ count % 4 + fill + 1 then ([], true)
      else scan count (fill + 1) rest
    else match alphabet.idxOf? c with
      | none => scan count fill rest
      | some value =>
        let (values, filled) := scan (count + 1) 0 rest
        (value :: values, filled)

/-- The bytes that digits denote; bits that make up no byte are left out. -/
def bytesOf : List Nat → List UInt8
  | a :: b :: c :: d :: rest =>
    (a * 4 + b / 16).toUInt8 :: (b % 16 * 16 + c / 4).toUInt8 :: (c % 4 * 64 + d).toUInt8
      :: bytesOf rest
  | [a, b, c] => [(a * 4 + b / 16).toUInt8, (b % 16 * 16 + c / 4).toUInt8]
  | [a, b] => [(a * 4 + b / 16).toUInt8]
  | _ => []

/-- The bytes of a text whose last group is complete. -/
def decodeGroups (cs : List Char) : Except String (List UInt8) :=
  let (values, filled) := scan 0 0 cs
  if filled || values.length % 4 == 0 then .ok (bytesOf values)
  else if values.length % 4 = 1 then
    .error ("Invalid base64-encoded string: number of data characters (" ++ toString values.length
      ++ ") cannot be 1 more than a multiple of 4")
  else .error "Incorrect padding"

def isAscii (c : Char) : Bool := c.toNat < 128

/-- The first letters beyond ASCII, by their place and their number. -/
def foreignFault? (cs : List Char) : Option String :=
  let start := (cs.takeWhile isAscii).length
  match letters (cs.drop start) with
  | [] => none
  | letter :: rest =>
    let more := (rest.takeWhile fun l => !l.all isAscii).length
    let which :=
      if more = 0 then
        "character '" ++ String.ofList (numbered (point letter)) ++ "' in position " ++ toString start
      else "characters in position " ++ toString start ++ "-" ++ toString (start + more)
    some ("'ascii' codec can't encode " ++ which ++ ": ordinal not in range(128)")

/-- The bytes that a text stands for, or what is wrong with it. -/
def decode (s : String) : Except String (List UInt8) :=
  match foreignFault? s.toList with
  | some detail => .error ("failed to convert base64 data into ascii: " ++ detail)
  | none => (decodeGroups s.toList).mapError ("failed to decode base64 data: " ++ ·)

end ApiScaffold.Text.Base64
