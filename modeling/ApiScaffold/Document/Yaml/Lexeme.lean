import ApiScaffold.Document.Yaml.Fault
import ApiScaffold.Document.Yaml.Token
import ApiScaffold.Number.Numeral
import ApiScaffold.Text.Utf8

/-!
# Names, tags and directives

The lexemes of a YAML text that are neither scalars nor marks of structure, each read from its first
character on: the names of anchors and aliases, tags with their handles, and the two directives.

The characters of a tag may be escaped by percent signs, which give bytes. A run of them has to be
UTF-8, and its code points are spelt into the tag.
-/

namespace ApiScaffold.Yaml

/-- A letter, a digit, a hyphen or an underscore of ASCII. -/
def isNameChar (c : Char) : Bool := c.isAlphanum || c == '-' || c == '_'

/-- The characters of tags besides letters and digits. -/
def tagSigns : List Char := "-;/?:@&=+$,_.!~*'()[]%".toList

def isTagChar (c : Char) : Bool := c.isAlphanum || tagSigns.contains c

/-- Whether a name may end before a character. -/
def endsName : Option Char → Bool
  | none => true
  | some c => endsWord (some c) || "?:,]\x7d%@\x60".toList.contains c

namespace Cursor

/-- The name behind the indicator of an anchor or an alias. -/
def anchorName (c : Cursor) (what : String) : Except Stop (String × Cursor) :=
  let context := "while scanning an " ++ what
  let problem := fun (here : Cursor) =>
    "expected alphabetic or numeric character, but found " ++ here.quotedLetter
  let (name, after) := c.next.span isNameChar
  if name.isEmpty then failIn context c.mark (problem after) after.mark
  else if !endsName after.head? then failIn context c.mark (problem after) after.mark
  else .ok (String.ofList name, after)

/-- The bytes of a run of percent escapes. -/
def escapedBytes (what : String) (began : Mark) : Nat → Cursor → Except Stop (List Nat × Cursor)
  | 0, c => .ok ([], c)
  | fuel + 1, c =>
    if c.head? ≠ some '%' then .ok ([], c)
    else
      let digits := c.next
      let wrong := (digits.rest.take 2).findIdx fun ch => (Numeral.digitValue? ch).isNone
      if wrong < 2 then
        failIn ("while scanning a " ++ what) began
          ("expected URI escape sequence of 2 hexadecimal numbers, but found "
            ++ (digits.skip wrong).quotedLetter) digits.mark
      else do
        let byte := (Numeral.ofDigits? 16 (digits.rest.take 2)).getD 0
        let (bytes, after) ← escapedBytes what began fuel (digits.skip 2)
        return (byte :: bytes, after)

/-- The characters of a tag from the cursor on, escapes replaced by what they stand for. -/
def tagChars (what : String) (began : Mark) : Nat → Cursor → Except Stop (List Char × Cursor)
  | 0, c => .ok ([], c)
  | fuel + 1, c =>
    match c.head? with
    | none => .ok ([], c)
    | some '%' => do
      let (bytes, after) ← escapedBytes what began fuel c
      match Text.Utf8.decode bytes with
      | .error fault => failIn ("while scanning a " ++ what) began fault.message c.mark
      | .ok cs =>
        let (more, after) ← tagChars what began fuel after
        return (cs.flatMap Text.spell ++ more, after)
    | some ch =>
      if isTagChar ch then do
        let (more, after) ← tagChars what began fuel c.next
        return (ch :: more, after)
      else .ok ([], c)

/-- The characters of a tag, of which there has to be one. -/
def tagText (c : Cursor) (what : String) (began : Mark) : Except Stop (String × Cursor) := do
  let (cs, after) ← c.tagChars what began (c.total + 1)
  if after.mark.index = c.mark.index then
    failIn ("while parsing a " ++ what) began ("expected URI, but found " ++ c.quotedLetter)
      c.mark
  else return (String.ofList cs, after)

/-- The handle of a tag with its marks at both ends. -/
def tagHandle (c : Cursor) (what : String) (began : Mark) : Except Stop (String × Cursor) :=
  let context := "while scanning a " ++ what
  let problem := fun (here : Cursor) => "expected '!', but found " ++ here.quotedLetter
  if c.head? ≠ some '!' then failIn context began (problem c) c.mark
  else if c.ahead? 1 = some ' ' then .ok ("!", c.next)
  else
    let (name, after) := c.next.span isNameChar
    if after.head? ≠ some '!' then failIn context began (problem after) after.mark
    else .ok (String.ofList ('!' :: name ++ ['!']), after.next)

/-- Whether a second mark ends a handle before the tag ends. -/
def hasHandle (c : Cursor) : Bool :=
  (c.next.rest.takeWhile fun ch => !endsField (some ch)).contains '!'

/-- The tag at the cursor. -/
def tag (c : Cursor) : Except Stop (TokenKind × Cursor) := do
  let began := c.mark
  let (kind, after) ← match c.ahead? 1 with
    | some '<' => do
      let (suffix, after) ← (c.skip 2).tagText "tag" began
      if after.head? ≠ some '>' then
        failIn "while parsing a tag" began ("expected '>', but found " ++ after.quotedLetter)
          after.mark
      else pure (TokenKind.tag none suffix, after.next)
    | sign =>
      if endsWord sign then pure (TokenKind.tag none "!", c.next)
      else do
        let (handle, after) ← if c.hasHandle then c.tagHandle "tag" began else pure ("!", c.next)
        let (suffix, after) ← after.tagText "tag" began
        pure (TokenKind.tag (some handle) suffix, after)
  if endsField after.head? then return (kind, after)
  else
    failIn "while scanning a tag" began ("expected ' ', but found " ++ after.quotedLetter)
      after.mark

/-- A number of a version. -/
def versionNumber (c : Cursor) (began : Mark) : Except Stop (Nat × Cursor) :=
  let (digits, after) := c.span Char.isDigit
  if digits.isEmpty then
    failIn "while scanning a directive" began
      ("expected a digit, but found " ++ c.quotedLetter) c.mark
  else .ok ((Numeral.ofDigits? 10 digits).getD 0, after)

/-- The version that a directive names. -/
def versionDirective (c : Cursor) (began : Mark) : Except Stop (Directive × Cursor) := do
  let (major, after) ← (c.skipWhile (· == ' ')).versionNumber began
  if after.head? ≠ some '.' then
    failIn "while scanning a directive" began
      ("expected a digit or '.', but found " ++ after.quotedLetter) after.mark
  else
    let (minor, after) ← after.next.versionNumber began
    if endsField after.head? then return (.version major minor, after)
    else
      failIn "while scanning a directive" began
        ("expected a digit or ' ', but found " ++ after.quotedLetter) after.mark

/-- The handle that a directive gives a meaning. -/
def handleDirective (c : Cursor) (began : Mark) : Except Stop (Directive × Cursor) := do
  let wanted := fun (here : Cursor) => "expected ' ', but found " ++ here.quotedLetter
  let (handle, after) ← (c.skipWhile (· == ' ')).tagHandle "directive" began
  if after.head? ≠ some ' ' then
    failIn "while scanning a directive" began (wanted after) after.mark
  else
    let (before, after) ← (after.skipWhile (· == ' ')).tagText "directive" began
    if endsField after.head? then return (.tagHandle handle before, after)
    else failIn "while scanning a directive" began (wanted after) after.mark

/-- The end of a line that may hold a comment but nothing more. -/
def restOfLine (c : Cursor) (context : String) (began : Mark) : Except Stop Cursor :=
  let after := c.skipWhile (· == ' ')
  let after := if after.head? = some '#' then after.skipWhile fun ch => !isLineEnd ch else after
  if endsLine after.head? then .ok after.lineBreak.2
  else
    failIn context began
      ("expected a comment or a line break, but found " ++ after.quotedLetter) after.mark

/-- The directive at the cursor, the place of its end and the cursor behind its line. -/
def directive (c : Cursor) : Except Stop (Directive × Mark × Cursor) := do
  let began := c.mark
  let context := "while scanning a directive"
  let (name, after) := c.next.span isNameChar
  if name.isEmpty || !endsField after.head? then
    failIn context began
      ("expected alphabetic or numeric character, but found " ++ after.quotedLetter) after.mark
  else
    let (d, after) ← match String.ofList name with
      | "YAML" => after.versionDirective began
      | "TAG" => after.handleDirective began
      | _ => pure (Directive.other, after)
    let stop := after.mark
    let after := match d with
      | .other => after.skipWhile fun ch => !isLineEnd ch
      | _ => after
    return (d, stop, ← after.restOfLine context began)

end Cursor

end ApiScaffold.Yaml
