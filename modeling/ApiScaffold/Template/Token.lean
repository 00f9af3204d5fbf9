import ApiScaffold.Failure
import ApiScaffold.Number.Numeral
import ApiScaffold.Text.Kind
import ApiScaffold.Text.Quoted
import ApiScaffold.Text.Split
import ApiScaffold.Text.Word

/-!
# The tokens of a template

Stretches of text, and between double braces or percent braces the names, literals and marks of an
expression or a tag. Comments are no tokens, and between the tags `raw` and `endraw` all is text.

A tag or comment takes the blanks before it on its line, and the line end after it, with it; a minus
at its edge takes all blanks on that side. This is settled here, so the nodes of a template know
nothing of it.

The tokens end with the first part of the text that is none (`Lexeme.broken`): what comes before it
is read, and may be at fault itself. Places in its description are counted in letters.
-/

namespace ApiScaffold.Template

/-- What is wrong with the text of a template, and the line where it shows. -/
structure Malformed where
  line : Nat
  detail : String

/-- Why a template is not read: what is wrong with its text, or nothing that can be told, where it
uses what exists but is not described here. -/
abbrev Refusal := Option Malformed

/-- The two kinds of places where an expression stands. -/
inductive Place where
  | print
  | tag
deriving DecidableEq

inductive Lexeme where
  | text (s : String)
  | opening (p : Place)
  | closing (p : Place)
  | name (s : String)
  | str (s : String)
  | number (v : Value)
  | mark (s : String)
  | ending
  /-- Text that is no token; nothing after it is read. -/
  | broken (detail : String)
deriving Inhabited

structure Token where
  line : Nat
  lexeme : Lexeme
deriving Inhabited

namespace Lexeme

/-- The description of a token in messages. -/
def describe : Lexeme → String
  | text _ => "template data / text"
  | opening .print => "begin of print statement"
  | opening .tag => "begin of statement block"
  | closing .print => "end of print statement"
  | closing .tag => "end of statement block"
  | name s => s
  | str _ => "string"
  | number (.float _) => "float"
  | number _ => "integer"
  | mark s => s
  | ending => "end of template"
  | broken detail => detail

end Lexeme

/-- A place in the text: what is left, its line, and the character before it. -/
structure Cursor where
  rest : List Char
  line : Nat
  before : Option Char

namespace Cursor

def ofText (cs : List Char) : Cursor where
  rest := cs
  line := 1
  before := none

/-- Moves past characters that are the head of the rest. -/
def past (c : Cursor) (taken : List Char) : Cursor where
  rest := c.rest.drop taken.length
  line := c.line + taken.count '\n'
  before := taken.getLast?

def atLineStart (c : Cursor) : Bool := c.before.all (· == '\n')

end Cursor

/-- What opens behind a stretch of text. -/
inductive Opening where
  | print
  | tag
  | comment
deriving DecidableEq

/-- What opens at the start of a text. -/
def opening? : List Char → Option Opening
  | '\x7b' :: '\x7b' :: _ => some .print
  | '\x7b' :: '%' :: _ => some .tag
  | '\x7b' :: '#' :: _ => some .comment
  | _ => none

/-- The text before the first opening, and what opens there. -/
def textBefore : List Char → List Char × Option Opening
  | [] => ([], none)
  | c :: cs =>
    match opening? (c :: cs) with
    | some o => ([], some o)
    | none =>
      let (text, o) := textBefore cs
      (c :: text, o)

/-- The text before a tag or comment without the blanks on its last line, if nothing else stands
there. -/
def dropIndent (atLineStart : Bool) (text : List Char) : List Char :=
  let lastLine := (text.reverse.takeWhile (· ≠ '\n')).reverse
  if (atLineStart || text.contains '\n') && lastLine.all Text.isBlank then
    text.take (text.length - lastLine.length)
  else text

/-- The text before an opening with a sign, as it is kept. -/
def keptText (atLineStart : Bool) (o : Opening) (sign : Option Char) (text : List Char) :
    List Char :=
  if sign = some '-' then Text.dropTail Text.isBlank text
  else if sign = some '+' || o = .print then text
  else dropIndent atLineStart text

/-- The sign right after an opening. -/
def signOf : List Char → Option Char
  | '-' :: _ => some '-'
  | '+' :: _ => some '+'
  | _ => none

/-- The characters of a closing of tags or comments whose last two characters are given: with a
minus all blanks after it belong to it, without a sign one line end. -/
def tagEnd? (last : List Char) (cs : List Char) : Option (List Char) :=
  match cs with
  | '-' :: rest =>
    if last.isPrefixOf rest then
      some ('-' :: last ++ (rest.drop last.length).takeWhile Text.isBlank)
    else none
  | '+' :: rest => if last.isPrefixOf rest then some ('+' :: last) else none
  | _ =>
    if last.isPrefixOf cs then
      some (last ++ ((cs.drop last.length).take 1).filter (· == '\n'))
    else none

/-- The characters of the closing of a place, if it stands at the start of a text. -/
def placeEnd? : Place → List Char → Option (List Char)
  | .tag, cs => tagEnd? ['%', '\x7d'] cs
  | .print, cs =>
    match cs with
    | '-' :: '\x7d' :: '\x7d' :: rest =>
      some (['-', '\x7d', '\x7d'] ++ rest.takeWhile Text.isBlank)
    | '\x7d' :: '\x7d' :: _ => some ['\x7d', '\x7d']
    | _ => none

/-- The characters of a comment up to its end and of the end. -/
def commentBody? : List Char → Option (List Char)
  | [] => none
  | c :: cs =>
    match tagEnd? ['#', '\x7d'] (c :: cs) with
    | some closing => some closing
    | none => (commentBody? cs).map (c :: ·)

/-- The characters after an opening that make it the tag of a name, up to where the tag ends. -/
def tagNamed? (name : String) (cs : List Char) : Option (List Char × List Char) :=
  let lead := cs.takeWhile Text.isBlank
  let rest := cs.drop lead.length
  if name.toList.isPrefixOf rest then
    let rest := rest.drop name.length
    let trail := rest.takeWhile Text.isBlank
    some (lead ++ name.toList ++ trail, rest.drop trail.length)
  else none

/-- The characters after an opening that make it the start of raw text. A line end after it belongs
to the text. -/
def rawStart? (cs : List Char) : Option (List Char) := do
  let (taken, rest) ← tagNamed? "raw" cs
  match rest with
  | '-' :: '%' :: '\x7d' :: rest =>
    some (taken ++ ['-', '%', '\x7d'] ++ rest.takeWhile Text.isBlank)
  | '%' :: '\x7d' :: _ => some (taken ++ ['%', '\x7d'])
  | _ => none

/-- Raw text, the sign of the tag behind it, and that tag. -/
def rawText? : List Char → Option (List Char × Option Char × List Char)
  | [] => none
  | c :: cs =>
    let closing? := do
      if opening? (c :: cs) ≠ some .tag then none
      else
        let sign := signOf (cs.drop 1)
        let opened := 2 + (if sign.isSome then 1 else 0)
        let (taken, rest) ← tagNamed? "endraw" ((c :: cs).drop opened)
        let closing ← tagEnd? ['%', '\x7d'] rest
        return (sign, (c :: cs).take opened ++ taken ++ closing)
    match closing? with
    | some (sign, closing) => some ([], sign, closing)
    | none => (rawText? cs).map fun (text, after) => (c :: text, after)

/-- The characters of a string literal from its opening quote to its closing one. -/
def stringChars? (quote : Char) : List Char → Option (List Char)
  | [] => none
  | '\\' :: c :: cs => (stringChars? quote cs).map fun more => '\\' :: c :: more
  | c :: cs => if c = quote then some [c] else (stringChars? quote cs).map (c :: ·)

/-- A letter of a string literal in ASCII: others are written as escapes. -/
def asciiForm (letter : Text.Letter) : List Char :=
  let n := Text.point letter
  if n < 0x80 then letter else Text.numbered n

/-- The characters that one letter after a backslash stands for. -/
def letterEscapes : List (Char × List Char) := [
  ('\n', []), ('\\', ['\\']), ('\'', ['\'']), ('"', ['"']), ('a', ['\x07']), ('b', ['\x08']),
  ('f', ['\x0c']), ('n', ['\n']), ('r', ['\r']), ('t', ['\t']), ('v', ['\x0b'])]

/-- The letters that a code in hexadecimal digits follows, with the number of digits. -/
def codeEscapes : List (Char × Nat) := [('x', 2), ('u', 4), ('U', 8)]

/-- The letter of a code. -/
def letterOfCode (n : Nat) : Except String Text.Letter :=
  if 0x10FFFF < n then .error "illegal Unicode character" else .ok (Text.spell n)

/-- What an escape stands for, and how many characters after the backslash belong to it. A letter
without a meaning leaves the backslash as it is. -/
def escape : List Char → Except String (List Char × Nat)
  | [] => .error "\\ at end of string"
  | letter :: rest =>
    match letterEscapes.lookup letter, codeEscapes.lookup letter with
    | some cs, _ => .ok (cs, 1)
    | none, some width =>
      match Numeral.ofDigits? 16 (rest.take width) with
      | some n =>
        if rest.length < width then .error (truncated letter width)
        else return (← letterOfCode n, width + 1)
      | none => .error (truncated letter width)
    | none, none =>
      match ((letter :: rest).take 3).takeWhile fun d => '0' ≤ d && d ≤ '7' with
      | [] =>
        if letter = 'N' then .error "malformed \\N character escape" else .ok (['\\'], 0)
      | digits => return (← letterOfCode ((Numeral.ofDigits? 8 digits).getD 0), digits.length)
where
  truncated (letter : Char) (width : Nat) : String :=
    "truncated \\" ++ String.ofList (letter :: List.replicate width 'X') ++ " escape"

/-- The text that the ASCII form of a string literal stands for. -/
def unescape : List Char → Except String (List Char)
  | [] => .ok []
  | c :: cs =>
    if c = '\\' then do
      let (text, taken) ← escape cs
      return text ++ (← unescape (cs.drop taken))
    else return c :: (← unescape cs)
termination_by cs => cs.length
decreasing_by all_goals grind

/-- The longest run of digits at the head, where single underscores may stand between them. -/
def digitRun (isDigit : Char → Bool) : List Char → List Char
  | [] => []
  | c :: cs =>
    if !isDigit c then []
    else match cs with
      | '_' :: d :: rest => if isDigit d then c :: '_' :: digitRun isDigit (d :: rest) else [c]
      | cs => c :: digitRun isDigit cs
termination_by cs => cs.length

/-- The exponent at the head: its characters, whether it is below zero, and its digits. -/
def exponent? (cs : List Char) : Option (List Char × Bool × List Char) :=
  match cs with
  | e :: rest =>
    let sign := rest.takeWhile (fun c => c == '-' || c == '+') |>.take 1
    let digits := digitRun Char.isDigit (rest.drop sign.length)
    if e.toLower ≠ 'e' ∨ digits.isEmpty then none
    else some (e :: sign ++ digits, sign = ['-'], digits)
  | [] => none

/-- A number with a fraction or an exponent at the head and its value. -/
def float? (cs : List Char) : Option (List Char × Value) :=
  let whole := digitRun Char.isDigit cs
  let rest := cs.drop whole.length
  let fraction := match rest with
    | '.' :: more => digitRun Char.isDigit more
    | _ => []
  let point := if fraction.isEmpty then [] else '.' :: fraction
  let value := fun (exponent : Int) =>
    let plain := fun (digits : List Char) => digits.filter (· ≠ '_')
    Value.float (Numeral.decimal false (plain whole) (plain fraction) exponent)
  if whole.isEmpty then none
  else match exponent? (rest.drop point.length) with
    | some (taken, below, digits) =>
      let size := Int.ofNat ((Numeral.ofDigits? 10 (digits.filter (· ≠ '_'))).getD 0)
      some (whole ++ point ++ taken, value (if below then -size else size))
    | none => if fraction.isEmpty then none else some (whole ++ point, value 0)

/-- The digits of a base behind its announcement at the head. -/
def announced? (base : Nat) (cs : List Char) : Option (List Char) :=
  match cs with
  | '0' :: letter :: rest =>
    let gap := if rest.head? = some '_' then ['_'] else []
    let isDigit := fun c => ((Numeral.digitValue? c).any fun d => decide (d < base))
    let digits := digitRun isDigit (rest.drop gap.length)
    if Numeral.baseSign? base = some letter.toLower ∧ !digits.isEmpty then
      some ('0' :: letter :: gap ++ digits)
    else none
  | _ => none

/-- An integer at the head and its value. Without an announced base no zero leads other digits. -/
def integer? (cs : List Char) : Option (List Char × Value) :=
  let valued := fun (base : Nat) (taken : List Char) =>
    (taken, Value.int ((Numeral.integerIn? base (String.ofList taken)).getD 0))
  match [2, 8, 16].findSome? fun base => (announced? base cs).map (valued base) with
  | some found => some found
  | none => match cs with
    | '0' :: _ => some (valued 10 (digitRun (· == '0') cs))
    | c :: _ => if c.isDigit then some (valued 10 (digitRun Text.isDecimal cs)) else none
    | [] => none

/-- A number at the head and its value, given the character before it: behind a point there is no
fraction. -/
def number? (before : Option Char) (cs : List Char) : Option (List Char × Value) :=
  (if before = some '.' then none else float? cs).or (integer? cs)

/-- The marks of expressions, longer ones first. -/
def marks : List String := [
  "//", "**", "==", "!=", ">=", "<=", "+", "-", "/", "*", "%", "~", "[", "]", "(", ")", "\x7b",
  "\x7d", ">", "<", "=", ".", ":", "|", ",", ";"]

def mark? (cs : List Char) : Option String := marks.find? fun m => m.toList.isPrefixOf cs

/-- The bracket that closes another. -/
def closingOf? : String → Option String
  | "(" => some ")"
  | "[" => some "]"
  | "\x7b" => some "\x7d"
  | _ => none

/-- The brackets that are open after a mark, or what is wrong with it. -/
def balance (opened : List String) (m : String) : Except String (List String) :=
  match closingOf? m with
  | some closing => .ok (closing :: opened)
  | none =>
    if [")", "]", "\x7d"].contains m then
      match opened with
      | [] => .error ("unexpected " ++ Text.quoted m)
      | expected :: outer =>
        if expected = m then .ok outer
        else .error ("unexpected " ++ Text.quoted m ++ ", expected " ++ Text.quoted expected)
    else .ok opened

/-- The tokens inside a place up to its closing, and where the text goes on, if all of them can be
read; `length` counts the letters of the whole text, `opened` holds the brackets that are open, and
`fuel` bounds the number of characters. -/
def insideTokens (p : Place) (length : Nat) :
    Nat → List String → Cursor → List Token × Option Cursor
  | 0, _, c => ([], some c)
  | fuel + 1, opened, c =>
    let emit := fun (l : Lexeme) (taken : List Char) (opened : List String) =>
      let (more, after) := insideTokens p length fuel opened (c.past taken)
      ({ line := c.line, lexeme := l : Token } :: more, after)
    let stop := fun (detail : String) =>
      ([{ line := c.line, lexeme := .broken detail : Token }], none)
    match c.rest with
    | [] => ([], some c)
    | first :: rest =>
      match (if opened.isEmpty then placeEnd? p c.rest else none) with
      | some taken => ([{ line := c.line, lexeme := .closing p }], some (c.past taken))
      | none =>
        if Text.isBlank first then insideTokens p length fuel opened (c.past [first])
        else match number? c.before c.rest with
          | some (taken, v) => emit (.number v) taken opened
          | none =>
            if Text.isWordChar first then
              let taken := c.rest.takeWhile Text.isWordChar
              if Text.isName taken then emit (.name (String.ofList taken)) taken opened
              else stop "Invalid character in identifier"
            else match (if first = '\'' ∨ first = '"' then stringChars? first rest else none) with
              | some body => match unescape ((Text.letters body.dropLast).flatMap asciiForm) with
                | .ok text => emit (.str (String.ofList text)) (first :: body) opened
                | .error detail => stop detail
              | none => match mark? c.rest with
                | some m => match balance opened m with
                  | .ok opened => emit (.mark m) m.toList opened
                  | .error detail => stop detail
                | none =>
                  let left := Text.letters c.rest
                  stop ("unexpected char " ++ Text.quoted (String.ofList (left.headD []))
                    ++ " at " ++ toString (length - left.length))

/-- The token of a text at a line, if it is not empty. -/
def textTokens (line : Nat) (text : List Char) : List Token :=
  if text.isEmpty then [] else [{ line, lexeme := .text (String.ofList text) }]

/-- The tokens from a place in the text on; `fuel` bounds the number of openings. -/
def tokensFrom (length : Nat) : Nat → Cursor → List Token
  | 0, _ => []
  | fuel + 1, c =>
    let (text, o?) := textBefore c.rest
    match o? with
    | none => textTokens c.line text
    | some o =>
      let sign := signOf (c.rest.drop (text.length + 2))
      let kept := textTokens c.line (keptText c.atLineStart o sign text)
      let start := c.past (c.rest.take (text.length + 2 + (if sign.isSome then 1 else 0)))
      let inside := fun (p : Place) =>
        let (tokens, after?) := insideTokens p length (start.rest.length + 1) [] start
        let more := match after? with
          | some after => tokensFrom length fuel after
          | none => []
        { line := start.line, lexeme := .opening p } :: tokens ++ more
      let unclosed := fun (place : Cursor) (detail : String) =>
        if place.rest.isEmpty then [] else [{ line := place.line, lexeme := .broken detail }]
      match o with
      | .print => kept ++ inside .print
      | .comment => match commentBody? start.rest with
        | some taken => kept ++ tokensFrom length fuel (start.past taken)
        | none => kept ++ unclosed start "Missing end of comment tag"
      | .tag => match rawStart? start.rest with
        | none => kept ++ inside .tag
        | some taken =>
          let within := start.past taken
          match rawText? within.rest with
          | some (text, sign, closing) =>
            kept ++ textTokens within.line (keptText within.atLineStart .tag sign text)
              ++ tokensFrom length fuel (within.past (text ++ closing))
          | none => kept ++ unclosed within "Missing end of raw directive"

/-- The tokens of a template's text, up to the first part that is none or with one at the end that
stands for its end. -/
def tokens (s : String) : List Token :=
  let cs := Text.plainLineEnds s.toList
  let found := tokensFrom (Text.letters cs).length (cs.length + 1) (.ofText cs)
  found ++ [{ line := (found.getLast?.map Token.line).getD 1, lexeme := .ending }]

end ApiScaffold.Template
