import ApiScaffold.Template.Basic

/-!
# What the built-in templates are put together from

Short names for the expressions and nodes that occur in several templates: the fields of what stands
in scope, texts after every turn of a loop but the last, choices between two texts.

The built-in templates are written with these and not as texts, so that what is proved about them
starts from their nodes and nothing has to be read first.
-/

namespace ApiScaffold.Template.Builtin

/-- A name in scope. -/
def name (x : String) : Expr := .name x

/-- A text inside an expression. -/
def text (s : String) : Expr := .literal (.str s)

/-- Templates one after the other. -/
def sections (parts : List Template) : Template := parts.flatten

/-- Lines that hold no expression. -/
def lines (ls : List String) : Template := [.text (String.join (ls.map (· ++ "\n")))]

/-! The fields of what stands in scope. -/

def settings (key : String) : Expr := .field (.name "settings") key

def model (key : String) : Expr := .field (.name "model") key

def prop (key : String) : Expr := .field (.name "var") key

def group (key : String) : Expr := .field (.name "group") key

def op (key : String) : Expr := .field (.name "op") key

def param (key : String) : Expr := .field (.name "param") key

/-- The turn of the innermost loop. -/
def turn (key : String) : Expr := .field (.name "loop") key

def json (e : Expr) : Expr := .filtered e .json

def snake (e : Expr) : Expr := .filtered e .snake

def constant (e : Expr) : Expr := .filtered e .constant

def joined (separator : String) (e : Expr) : Expr := .filtered e (.joined separator)

/-- The package part of a dotted name. -/
def packageOf (e : Expr) : Expr := .filtered e (.beforeLast '.')

/-- The last part of a dotted name. -/
def classOf (e : Expr) : Expr := .filtered e (.afterLast '.')

/-- A text, or another if it is empty. -/
def orElse (a b : Expr) : Expr := .either a b

/-- A text after every turn of a loop but the last. -/
def unlessLast (s : String) : Expr := .choose (.negate (turn "last")) (text s) (text "")

/-- A choice between two texts. -/
def oneOf (condition : Expr) (yes no : String) : Expr := .choose condition (text yes) (text no)

/-- Whether the parameter of the turn travels in a location. -/
def travelsIn (location : String) : Expr :=
  .equal (.field (param "location") "value") (text location)

def whenever (condition : Expr) (body : List Node) : Node := .branch condition body []

def whenNot (condition : Expr) (body : List Node) : Node := .branch (.negate condition) body []

def forEach (x : String) (source : Expr) (body : List Node) : Node := .each x source body [] 0

/-- The table of all operations in the account of a project. -/
def operationsTable : Template := sections [
  lines [
    "## Operations",
    "",
    "| Class | Method | HTTP request |",
    "|---|---|---|"],
  [ forEach "group" (name "groups") [
      forEach "op" (group "operations") [
        "| ", group "classname", " | `", op "nickname", "` | ", op "http_method", " ", op "path",
        " |\n"]]]]

end ApiScaffold.Template.Builtin
