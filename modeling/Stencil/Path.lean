import Stencil.Text.Basic

/-!
# Paths

Paths as their parts, without empty ones and single points.
-/

namespace Stencil

structure Path where
  /-- The slashes that an absolute path begins with: one, or two. -/
  root : Text
  parts : List Text
deriving DecidableEq

namespace Path

def ofText (s : Text) : Path :=
  let slashes := s.takeWhile (· = '/')
  let root := if slashes.length = 2 then slashes else slashes.take 1
  { root, parts := (Text.split '/' s).filter fun p => !p.isEmpty && p != ['.'] }

/-- The path as it is written; a point for the empty one. -/
def text (p : Path) : Text :=
  if p.root.isEmpty && p.parts.isEmpty then ['.'] else p.root ++ Text.join ['/'] p.parts

end Path

end Stencil
