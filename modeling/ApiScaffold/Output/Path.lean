import ApiScaffold.Text.Point
import ApiScaffold.Text.Split

/-!
# Paths

Paths of files: names from a starting point, without empty names and names that stay in place. Names
that lead upwards are kept, since what they lead to depends on the files.

Paths are relative to what they are seen from (`under`), unless they are absolute.
-/

namespace ApiScaffold

structure Path where
  absolute : Bool
  names : List String
deriving DecidableEq

namespace Path

def ofString (s : String) : Path where
  absolute := s.startsWith "/"
  names := (Text.splitString '/' s).filter fun name => name != "" && name != "."

/-- A path seen from another; an absolute path does not depend on it. -/
def under (path base : Path) : Path :=
  if path.absolute then path else { base with names := base.names ++ path.names }

/-- The directory of a path. -/
def parent (path : Path) : Path := { path with names := path.names.dropLast }

/-- The last name of a path. -/
def name (path : Path) : String := path.names.getLast?.getD ""

/-- Whether a name in a path holds a character that no file system takes. -/
def isUnnameable (path : Path) : Bool :=
  path.names.any fun name => name.any fun c => c.toNat == 0 || Text.isHalf c

def toString (path : Path) : String :=
  if path.absolute then "/" ++ String.intercalate "/" path.names
  else if path.names.isEmpty then "."
  else String.intercalate "/" path.names

end Path

end ApiScaffold
