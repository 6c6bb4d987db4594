import XrBindings.Text.Cut

/-!
# Paths

A path as its parts. Empty parts and the part for the place itself are dropped, so that
`a//b/./c` and `a/b/c` are one path, and the empty path is the place itself. Two slashes at the
beginning are kept apart from one, as they may mean something else.
-/

namespace XrBindings

open XrBindings.Text

/-- A path. -/
structure Path where
  /-- Nothing, one slash or two slashes. -/
  root : String
  parts : List String
  deriving DecidableEq, Repr

namespace Path

def rootOf (s : String) : String :=
  match (s.toList.takeWhile (· == '/')).length with
  | 0 => ""
  | 2 => "//"
  | _ => "/"

def ofString (s : String) : Path where
  root := rootOf s
  parts := (splitAtChar '/' s).filter fun p ↦ !p.isEmpty && p != "."

def text (p : Path) : String :=
  if p.root.isEmpty && p.parts.isEmpty then "." else p.root ++ joinWith "/" p.parts

/-- The place that a path is in. -/
def parent (p : Path) : Path := { p with parts := p.parts.dropLast }

end Path

end XrBindings
