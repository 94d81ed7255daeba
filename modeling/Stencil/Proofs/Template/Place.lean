import Stencil.Proofs.Template.Diagnostics

/-!
# Sources within sources

A text that is read alone and the same text as a part of a source have the same faults, but for the number
of characters behind them: `Reads.before`. So their diagnostics are the same but for their places, and for
the limit that a message names: `Fault.diagnostic_enclosed`.
-/

namespace Stencil

open Grammar Stencil.Parser

/-! ### Faults with more characters behind them -/

/-- The fault with `j` further characters of the source behind it. -/
def Fault.before (j : Nat) (f : Fault) : Fault := { f with left := f.left + j }

theorem Reads.before {depth k : Nat} {s : Text} {ns : List Node} {fs : List Fault}
    (reads : Reads depth k s ns fs) (j : Nat) : Reads depth (k + j) s ns (fs.map (Fault.before j)) := by
  induction reads with
  | nil => exact .nil
  | text nonempty plain next rest ih => exact .text nonempty plain next ih
  | @stuck _ k s _ opens stuck =>
    have place : k + s.length + j = k + j + s.length := by omega
    rw [List.map_singleton, Fault.before, place]
    exact .stuck opens stuck
  | tag spelled valid rest ih => exact .tag spelled valid ih
  | @block _ k _ _ _ _ foot s _ _ _ _ named opened ended first inner rest ihInner ih =>
    have place : k + (foot ++ s).length + j = k + j + (foot ++ s).length := by omega
    rw [place] at ihInner
    rw [List.map_append]
    exact .block named opened ended first ihInner ih

/-! ### Diagnostics in other places -/

/-- The problem as it is named where sections may nest as deep as `limit`. -/
def Problem.within (limit : Int) : Problem → Problem
  | .nestingTooDeep _ => .nestingTooDeep limit
  | p => p

/-- The diagnostic `offset` characters further on, with the line and the column of that place in `source`. -/
def Diagnostic.moved (source : Text) (offset : Nat) (d : Diagnostic) : Diagnostic :=
  let position := offset + d.position
  let (line, column) := lineColumn (source.take position)
  { d with position, line, column }

theorem Diagnostic.moved_moved (x y : Text) (i j : Nat) (d : Diagnostic) :
    (d.moved x i).moved y j = d.moved y (j + i) := by
  have place : j + (i + d.position) = j + i + d.position := (Nat.add_assoc _ _ _).symm
  simp only [moved, place]

/-- The diagnostic of a text that starts `offset` characters further on, where sections may nest as deep as
`limit`. -/
def Diagnostic.enclosed (source : Text) (offset : Nat) (limit : Int) (d : Diagnostic) : Diagnostic :=
  { d.moved source offset with problem := d.problem.within limit }

theorem Diagnostic.moved_enclosed (limit : Int) (x y : Text) (i j : Nat) (d : Diagnostic) :
    (d.enclosed x i limit).moved y j = d.enclosed y (j + i) limit := by
  rw [enclosed, enclosed, ← moved_moved x]
  rfl

theorem Fault.diagnostic_enclosed {limit limit' : Int} {s : Text} {f : Fault} (a b : Text)
    (bounded : f.left ≤ s.length) : (f.before b.length).diagnostic (a ++ s ++ b) limit =
      (f.diagnostic s limit').enclosed (a ++ s ++ b) a.length limit := by
  have position : (a ++ s ++ b).length - (f.left + b.length) = a.length + (s.length - f.left) := by
    simp only [List.length_append]
    omega
  cases f with
  | mk cause left => cases cause <;> simp only [diagnostic, before, position] <;> rfl

theorem Fault.diagnostic_front {limit : Int} (s u : Text) (f : Fault) :
    (f.before u.length).diagnostic (s ++ u) limit = f.diagnostic s limit := by
  have position : (s ++ u).length - (f.left + u.length) = s.length - f.left := by
    simp only [List.length_append]
    omega
  have short : s.length - f.left ≤ s.length := Nat.sub_le _ _
  simp only [diagnostic, before, position, List.take_append_of_le_length short]

theorem Fault.diagnostic_behind {limit : Int} {u : Text} {f : Fault} (s : Text) (bounded : f.left ≤ u.length) :
    f.diagnostic (s ++ u) limit = (f.diagnostic u limit).moved (s ++ u) s.length := by
  have position : (s ++ u).length - f.left = s.length + (u.length - f.left) := by
    simp only [List.length_append]
    omega
  simp only [diagnostic, Diagnostic.moved, position]

/-! ### The diagnostics of what is read -/

variable {depth : Nat} {s : Text} {ns : List Node} {fs : List Fault} {limit : Int}

theorem Reads.diagnostics_enclosed (reads : Reads depth 0 s ns fs) (limit' : Int) (a b : Text) :
    (fs.map (Fault.before b.length)).map (Fault.diagnostic (a ++ s ++ b) limit) =
      (fs.map (Fault.diagnostic s limit')).map (Diagnostic.enclosed (a ++ s ++ b) a.length limit) := by
  rw [List.map_map, List.map_map]
  refine List.map_congr_left fun f member => Fault.diagnostic_enclosed a b ?_
  simpa using (reads.bounds f member).2

theorem diagnostics_front (fs : List Fault) (s u : Text) :
    (fs.map (Fault.before u.length)).map (Fault.diagnostic (s ++ u) limit) = fs.map (Fault.diagnostic s limit) := by
  rw [List.map_map]
  exact List.map_congr_left fun f _ => Fault.diagnostic_front s u f

theorem Reads.diagnostics_behind (reads : Reads depth 0 s ns fs) (a : Text) :
    fs.map (Fault.diagnostic (a ++ s) limit) =
      (fs.map (Fault.diagnostic s limit)).map (Diagnostic.moved (a ++ s) a.length) := by
  rw [List.map_map]
  refine List.map_congr_left fun f member => Fault.diagnostic_behind a ?_
  simpa using (reads.bounds f member).2

end Stencil
