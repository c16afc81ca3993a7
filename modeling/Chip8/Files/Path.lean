/-!
# File paths

A path is an optional root and a list of names. Empty names and single dots are left out when a path
is read, so that the same place has fewer spellings; double dots stay, since what they mean hangs on
the file system.
-/

namespace Chip8.Files

/-- A path in its normal form. -/
structure Path where
  root : String
  names : List String
deriving DecidableEq, Repr

namespace Path

/-- The root of a text: two leading slashes are a root of their own, any other number is one. -/
def rootOf (s : String) : String :=
  match (s.toList.takeWhile (· = '/')).length with
  | 0 => ""
  | 2 => "//"
  | _ => "/"

/-- The path that a text names. -/
def ofText (s : String) : Path :=
  ⟨rootOf s, ((s.toList.splitOn '/').map String.ofList).filter fun name => name ≠ "" ∧ name ≠ "."⟩

/-- The text of a path; the current directory is a single dot. -/
def text (p : Path) : String :=
  let body := p.root ++ "/".intercalate p.names
  if body = "" then "." else body

/-- The path of a name inside a directory. -/
def child (p : Path) (name : String) : Path := { p with names := p.names ++ [name] }

/-- The directory that holds a path. -/
def parent (p : Path) : Path := { p with names := p.names.dropLast }

end Path

end Chip8.Files
