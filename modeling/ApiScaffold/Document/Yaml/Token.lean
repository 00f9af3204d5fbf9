import ApiScaffold.Document.Yaml.Cursor

/-!
# Tokens

The tokens of a YAML text: marks of structure, names and scalars. Where blocks begin and end, tokens
stand for the change of indentation, so that the grammar behind them knows nothing of columns.

Every token keeps the places of its start and its end, which the accounts of faults show.
-/

namespace ApiScaffold.Yaml

/-- A line that tells how to read what follows. -/
inductive Directive where
  | version (major minor : Nat)
  | tagHandle (handle before : String)
  | other

inductive TokenKind where
  | directive (d : Directive)
  | documentStart
  | documentEnd
  | streamEnd
  | blockSequenceStart
  | blockMappingStart
  | blockEnd
  | flowSequenceStart
  | flowSequenceEnd
  | flowMappingStart
  | flowMappingEnd
  | blockEntry
  | flowEntry
  | key
  | value
  | aliasOf (name : String)
  | anchor (name : String)
  /-- A tag with a handle, or in full. -/
  | tag (handle : Option String) (suffix : String)
  /-- A scalar; a plain one is written without quotes and indicators. -/
  | scalar (text : String) (plain : Bool)

/-- A token and the places of its start and its end. -/
structure Token where
  kind : TokenKind
  start : Mark
  stop : Mark

/-- A token as messages name it. -/
def TokenKind.name : TokenKind → String
  | directive _ => "<directive>"
  | documentStart => "<document start>"
  | documentEnd => "<document end>"
  | streamEnd => "<stream end>"
  | blockSequenceStart => "<block sequence start>"
  | blockMappingStart => "<block mapping start>"
  | blockEnd => "<block end>"
  | flowSequenceStart => "["
  | flowSequenceEnd => "]"
  | flowMappingStart => "\x7b"
  | flowMappingEnd => "\x7d"
  | blockEntry => "-"
  | flowEntry => ","
  | key => "?"
  | value => ":"
  | aliasOf _ => "<alias>"
  | anchor _ => "<anchor>"
  | tag _ _ => "<tag>"
  | scalar _ _ => "<scalar>"

end ApiScaffold.Yaml
