import Mathlib.Tactic.Common

/-!
# Paths

A path is a text. The standard library takes it apart at its slashes: repeated
slashes count as one, a trailing slash does not count, and neither does a `.`
unless a relative path begins with it (`Path.components`). Whether a path is
below another one is a question about components (`Path.startsWith`), not about
characters.
-/

namespace VpsGuard

/-- What a path is made of. -/
inductive Component
  | rootDir
  | curDir
  | parentDir
  | normal (name : List Char)
  deriving DecidableEq

namespace Component

def ofName (name : List Char) : Component :=
  if name = ['.', '.'] then parentDir else normal name

def name? : Component → Option (List Char)
  | normal name => some name
  | _ => none

end Component

namespace Path

/-- The path starts at the root. -/
def isAbsolute (path : String) : Bool := path.toList.head? = some '/'

/-- The components of a path, as the source language has them. -/
def components (path : String) : List Component :=
  let names := (path.toList.splitOn '/').filter (· ≠ [])
  let first : List Component :=
    if isAbsolute path then [.rootDir] else if names.head? = some ['.'] then [.curDir] else []
  first ++ (names.filter (· ≠ ['.'])).map .ofName

def fileName (path : String) : Option (List Char) := (components path).getLast?.bind (·.name?)

/-- What follows the last dot of the last part, unless this dot is its first character. -/
def extension (path : String) : Option (List Char) := do
  let name ← fileName path
  if '.' ∈ name.tail then (name.splitOn '.').getLast? else none

/-- The path is the given one, or below it. -/
def startsWith (path base : String) : Bool := (components base).isPrefixOf (components path)

end Path

end VpsGuard
