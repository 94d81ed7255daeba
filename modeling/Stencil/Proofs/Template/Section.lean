import Stencil.Proofs.Template.Place
import Stencil.Proofs.Template.Session

/-!
# Sections and their bodies

The body of a section is read as it would be alone, where sections may nest one level less: `Session.parse_section`.
Nothing that the state of the reader holds of one body has a say in another, or in what stands around it.
-/

namespace Stencil

open Grammar Stencil.Parser
open Node (Framed)

variable {sense : Sense} {name head b foot : Text} {limit : Int}

theorem Reads.enclosed {depth k : Nat} {s : Text} {body ns : List Node} {es fs : List Fault}
    (named : IsName name) (opened : Framed [sense.sigil] name head) (ended : Framed ['/'] name foot)
    (first : (findEnd name (b ++ foot)).map Ending.body = some b) (inner : Reads depth 0 b body es)
    (rest : Reads (depth + 1) k s ns fs) :
    Reads (depth + 1) k (head ++ b ++ foot ++ s) (.block sense (.name name) body :: ns)
      (es.map (Fault.before (k + (foot ++ s).length)) ++ fs) := by
  have absent : Nowhere (Marked name) b (foot ++ []) := by
    rw [List.append_nil]
    exact nowhere_of_findEnd first
  have inner' := inner.before (k + (foot ++ s).length)
  rw [Nat.zero_add] at inner'
  exact .block named opened ended ((nowhere_marked_foot named ended).mp absent) inner' rest

namespace Template

theorem parse_section_append (named : IsName name) (opened : Framed [sense.sigil] name head)
    (ended : Framed ['/'] name foot) (first : (findEnd name (b ++ foot)).map Ending.body = some b)
    (deep : 1 ≤ limit) (u : Text) :
    parse limit (head ++ b ++ foot ++ u) =
      { nodes := .block sense (.name name) (parse (limit - 1) b).nodes :: (parse limit u).nodes
        diagnostics := (parse (limit - 1) b).diagnostics.map
            (Diagnostic.enclosed (head ++ b ++ foot ++ u) head.length limit) ++
          (parse limit u).diagnostics.map
            (Diagnostic.moved (head ++ b ++ foot ++ u) (head ++ b ++ foot).length) } := by
  have levels : limit.toNat = (limit - 1).toNat + 1 := by omega
  have inner := reads_readNodes (limit - 1).toNat 0 b
  have rest := reads_readNodes limit.toNat 0 u
  have whole := Reads.enclosed named opened ended first inner (levels ▸ rest)
  rw [← levels, Nat.zero_add] at whole
  have around : head ++ b ++ foot ++ u = head ++ b ++ (foot ++ u) := List.append_assoc _ _ _
  rw [parse_eq whole, List.map_append, rest.diagnostics_behind (head ++ b ++ foot), around,
    inner.diagnostics_enclosed (limit - 1) head (foot ++ u)]
  rfl

end Template

namespace Session

/-- The reader with a state makes of a section what it makes of its body alone with a level less to spend; the
diagnostics of the body move by the length of the opening tag. -/
theorem parse_section (named : IsName name) (opened : Framed [sense.sigil] name head)
    (ended : Framed ['/'] name foot) (first : (findEnd name (b ++ foot)).map Ending.body = some b)
    (deep : 1 ≤ limit) :
    parse limit (head ++ b ++ foot) =
      { nodes := [.block sense (.name name) (parse (limit - 1) b).nodes]
        diagnostics := (parse (limit - 1) b).diagnostics.map
          (Diagnostic.enclosed (head ++ b ++ foot) head.length limit) } := by
  have whole := Template.parse_section_append named opened ended first deep []
  have empty : Template.parse limit [] = ⟨[], []⟩ := Template.parse_eq .nil
  rw [empty] at whole
  rw [(parse_eq limit _).1, (parse_eq (limit - 1) b).1]
  simpa only [List.append_nil, List.map_nil] using whole

/-- A body with a value, a line break and a section that lies too deep. -/
theorem parse_section_refused :
    let head := "\x7b\x7b# a\x7d\x7d".toList
    let b := "\x7b\x7bx\x7d\x7d\n\x7b\x7b#b\x7d\x7dy\x7b\x7b/b\x7d\x7d".toList
    let foot := "\x7b\x7b/a \x7d\x7d".toList
    IsName ['a'] ∧ Framed ['#'] ['a'] head ∧ Framed ['/'] ['a'] foot ∧
      (findEnd ['a'] (b ++ foot)).map Ending.body = some b ∧
      parse 1 (head ++ b ++ foot) =
        { nodes := [.block .plain (.name ['a']) [.escaped (.name ['x']), .text ['\n'],
            .text "\x7b\x7b#b\x7d\x7dy\x7b\x7b/b\x7d\x7d".toList]]
          diagnostics := [⟨.nestingTooDeep 1, 13, 2, 1⟩] } := by
  have alone : Template.parse 0 "\x7b\x7bx\x7d\x7d\n\x7b\x7b#b\x7d\x7dy\x7b\x7b/b\x7d\x7d".toList =
      { nodes := [.escaped (.name ['x']), .text ['\n'], .text "\x7b\x7b#b\x7d\x7dy\x7b\x7b/b\x7d\x7d".toList]
        diagnostics := [⟨.nestingTooDeep 0, 6, 2, 1⟩] } := by decide +kernel
  intro head b foot
  have named : IsName ['a'] := rfl
  have opened : Framed [Sense.plain.sigil] ['a'] head :=
    ⟨_, ⟨[' '], [], Node.blanks_single, Node.blanks_nil, rfl⟩, rfl⟩
  have ended : Framed ['/'] ['a'] foot := ⟨_, ⟨[], [' '], Node.blanks_nil, Node.blanks_single, rfl⟩, rfl⟩
  have first : (findEnd ['a'] (b ++ foot)).map Ending.body = some b := by decide
  refine ⟨named, opened, ended, first, ?_⟩
  rw [parse_section named opened ended first (by decide), (parse_eq _ b).1]
  show Template.mk [.block .plain (.name ['a']) (Template.parse 0 b).nodes]
    ((Template.parse 0 b).diagnostics.map _) = _
  rw [alone]
  rfl

end Session

end Stencil
