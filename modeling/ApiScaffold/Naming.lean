import ApiScaffold.Text.Case
import ApiScaffold.Text.Kind
import ApiScaffold.Text.Split

/-!
# Identifiers from names

The names of a document become identifiers of a target language: they are cut into words, put
together in a case style, freed of what cannot stand in an identifier, and escaped where they are
reserved words.

* `words`: the runs of ASCII letters and digits, cut also where a capital follows a small letter or
  a digit. All styles are made from them (`pascalCase`, `camelCase`, `snakeCase`).
* `sanitize` keeps what can stand in an identifier and puts single underscores for the rest.
* `escapeReserved` puts an underscore before a digit at the start, and affixes around a reserved
  word.

An operation without an id gets a name from its method and its path, and one without tags the group
of its first literal path segment. Letters are those of ASCII throughout; what counts as a digit at
the start of a name is not, and comes from the tables of Unicode.
-/

namespace ApiScaffold.Naming

/-- A letter or digit of ASCII. -/
def isWordChar (c : Char) : Bool := c.isAlpha || c.isDigit

/-- Whether a new word starts between two neighbours: a capital after a small letter or a digit. -/
def startsWord (c d : Char) : Bool := (c.isLower || Text.isDecimal c) && d.isUpper

/-- A text with a mark put before every capital that starts a word. -/
def markWords (mark : Char) : List Char → List Char
  | [] => []
  | [c] => [c]
  | c :: d :: rest =>
    if startsWord c d then c :: mark :: markWords mark (d :: rest)
    else c :: markWords mark (d :: rest)

/-- The words of a name: runs of letters and digits, cut where a capital starts a word. -/
def words (name : List Char) : List (List Char) :=
  Text.runs isWordChar (markWords ' ' name)

/-- A word with a capital at its head. -/
def capitalizeWord : List Char → List Char
  | [] => []
  | c :: rest => c.toUpper :: rest

/-- A word with a small letter at its head. -/
def uncapitalize : List Char → List Char
  | [] => []
  | c :: rest => c.toLower :: rest

/-- The words of a name joined with a capital at the head of each. -/
def pascalChars (name : List Char) : List Char := (words name).flatMap capitalizeWord

/-- The words of a name in small letters, joined by underscores. -/
def snakeChars (name : List Char) : List Char :=
  Text.joinWith ['_'] ((words name).map (List.map Char.toLower))

def pascalCase (name : String) : String := String.ofList (pascalChars name.toList)

def camelCase (name : String) : String := String.ofList (uncapitalize (pascalChars name.toList))

def snakeCase (name : String) : String := String.ofList (snakeChars name.toList)

/-- Marks the last capital of a run of capitals that a small letter follows. -/
def markCapitalRuns : List Char → List Char
  | c :: d :: e :: rest =>
    if c.isUpper && d.isUpper && e.isLower then c :: '_' :: markCapitalRuns (d :: e :: rest)
    else c :: markCapitalRuns (d :: e :: rest)
  | cs => cs

/-- Small letters, with an underscore before each capital that starts a word. Other characters
stay. -/
def camelToSnake (name : String) : String :=
  Text.lower (String.ofList (markWords '_' (markCapitalRuns name.toList)))

/-- Whether a character may stand in an identifier. -/
def isIdentChar (c : Char) : Bool := isWordChar c || c == '_'

/-- Leaves one underscore of each run of them. -/
def collapse : List Char → List Char
  | [] => []
  | [c] => [c]
  | c :: d :: rest =>
    if c = '_' ∧ d = '_' then collapse (d :: rest) else c :: collapse (d :: rest)

def sanitizeChars (name : List Char) : List Char :=
  collapse (name.map fun c => if isIdentChar c then c else '_')

/-- A name in which what cannot stand in an identifier is replaced by single underscores. -/
def sanitize (name : String) : String := String.ofList (sanitizeChars name.toList)

/-- Whether a name is a reserved word, whatever the case of its letters. -/
def isReserved (reserved : List String) (name : String) : Bool :=
  (reserved.map Text.lower).contains (Text.lower name)

/-- Whether a name starts with a digit of any form. -/
def startsWithDigit (name : String) : Bool :=
  match name.toList with
  | [] => false
  | c :: _ => Text.isDigit c

/-- Puts the affixes around a reserved word, and an underscore before a digit at the start. -/
def escapeReserved (name : String) (reserved : List String) (before after : String) : String :=
  if startsWithDigit name then "_" ++ name
  else if isReserved reserved name then before ++ name ++ after
  else name

/-- The constant for a text: its words in capitals, joined by underscores. -/
def constant (s : String) : String :=
  let name := Text.upper (snakeCase s)
  let name := if name = "" then "EMPTY" else name
  if startsWithDigit name then "_" ++ name else name

/-- The segments of a path: literal ones and, without their braces, the names of parameters. -/
structure PathParts where
  literals : List String
  parameters : List String

/-- The parameter that a segment in braces names. -/
def parameterOf? (segment : List Char) : Option String :=
  if segment.head? = some '\x7b' ∧ segment.getLast? = some '\x7d' then
    some (String.ofList (segment.drop 1).dropLast)
  else none

def PathParts.ofPath (path : String) : PathParts :=
  let segments := (Text.splitOn '/' path.toList).filter fun segment => !segment.isEmpty
  { literals := (segments.filter fun s => (parameterOf? s).isNone).map String.ofList
    parameters := segments.filterMap parameterOf? }

/-- The name of an operation that has none, from its method and its path. -/
def operationId (method path : String) : String :=
  let parts := PathParts.ofPath path
  let base := Text.lower method
  if parts.literals.isEmpty && parts.parameters.isEmpty then base ++ "Root"
  else
    let named := base ++ String.join (parts.literals.map pascalCase)
    if parts.parameters.isEmpty then named
    else named ++ "By" ++ String.intercalate "And" (parts.parameters.map pascalCase)

/-- The group of an operation without tags: its first literal path segment, else a fixed name. -/
def pathGroup (path : String) : String :=
  (PathParts.ofPath path).literals.headD "default"

/-- The directory of a dotted package name. -/
def packagePath (package : String) : String :=
  String.intercalate "/"
    (((Text.splitOn '.' package.toList).filter fun part => !part.isEmpty).map String.ofList)

end ApiScaffold.Naming
