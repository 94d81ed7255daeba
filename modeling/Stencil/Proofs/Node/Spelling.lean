import Stencil.Node.Printer
import Stencil.Text.Blank

/-!
# Spellings

A node list is written in many ways, as blanks may stand in its tags. `Spells` holds of a list and each text
that writes it, piece by piece and in order. `Spells.printed` says that the printed text is one of them.
-/

namespace Stencil.Node

/-- The text `inner` with blanks on both sides. -/
def Padded (inner s : Text) : Prop := ∃ w w', Text.Blanks w ∧ Text.Blanks w' ∧ s = w ++ inner ++ w'

/-- A tag with `mark` behind its opening braces, and `inner` between blanks. -/
def Framed (mark inner s : Text) : Prop :=
  ∃ p, Padded inner p ∧ s = openBraces ++ mark ++ p ++ closeBraces

inductive SpellsValue : Node → Text → Prop
  | name (path : Text) : SpellsValue (.name path) path
  | primitive (token : Text) : SpellsValue (.primitive token) token

inductive SpellsMore : List Node → Text → Prop
  | nil : SpellsMore [] []
  | cons {v : Node} {vs : List Node} {t p a : Text} (value : SpellsValue v t) (padded : Padded t p)
      (more : SpellsMore vs a) : SpellsMore (v :: vs) (',' :: p ++ a)

inductive SpellsTag : Node → Text → Prop
  | escaped {v : Node} {t s : Text} (value : SpellsValue v t) (framed : Framed [] t s) :
      SpellsTag (.escaped v) s
  | unescaped {v : Node} {t s : Text} (value : SpellsValue v t) (framed : Framed ['{'] t s) :
      SpellsTag (.unescaped v) (s ++ ['}'])
  | call {name s : Text} (framed : Framed ['%'] name s) : SpellsTag (.helper (.name name) []) s
  | callWith {name f : Text} {v : Node} {vs : List Node} {t p a : Text} (helper : Padded name f)
      (value : SpellsValue v t) (padded : Padded t p) (more : SpellsMore vs a) :
      SpellsTag (.helper (.name name) (v :: vs))
        (openBraces ++ ['%'] ++ f ++ [':'] ++ p ++ a ++ closeBraces)

/-- The text of a node list: one piece for each node, in order. -/
inductive Spells : List Node → Text → Prop
  | nil : Spells [] []
  | text {t s : Text} {ns : List Node} (rest : Spells ns s) : Spells (.text t :: ns) (t ++ s)
  | tag {n : Node} {ns : List Node} {p s : Text} (tag : SpellsTag n p) (rest : Spells ns s) :
      Spells (n :: ns) (p ++ s)
  | block {sense : Sense} {name head b foot s : Text} {body ns : List Node}
      (opened : Framed [sense.sigil] name head) (inner : Spells body b) (closed : Framed ['/'] name foot)
      (rest : Spells ns s) : Spells (.block sense (.name name) body :: ns) (head ++ b ++ foot ++ s)

/-! ### Printing is spelling -/

theorem blanks_nil : Text.Blanks [] := fun _ member => nomatch member

theorem blanks_single : Text.Blanks [' '] := by
  intro c member
  rw [List.mem_singleton.mp member]
  decide

theorem SpellsValue.print_eq {v : Node} {t : Text} (value : SpellsValue v t) : v.print = t := by
  cases value with
  | name | primitive => rw [print]

theorem framed_printTag (mark inner : Text) : Framed mark inner (printTag mark inner) := by
  refine ⟨' ' :: inner ++ [' '], ⟨[' '], [' '], blanks_single, blanks_single, rfl⟩, ?_⟩
  simp [printTag]

/-- The printed arguments with the blank behind them. -/
theorem printArgs_pieces {v : Node} {vs : List Node} {t a : Text} (value : SpellsValue v t)
    (more : SpellsMore vs a) :
    ∃ p a', Padded t p ∧ SpellsMore vs a' ∧ ' ' :: printArgs (v :: vs) ++ [' '] = p ++ a' := by
  induction more generalizing v t with
  | nil =>
    refine ⟨' ' :: t ++ [' '], [], ⟨[' '], [' '], blanks_single, blanks_single, rfl⟩, .nil, ?_⟩
    rw [printArgs, value.print_eq, List.append_nil]
  | @cons w ws _ _ _ next padded more ih =>
    obtain ⟨p, a', padded', more', pieces⟩ := ih next
    refine ⟨' ' :: t, ',' :: p ++ a', ⟨[' '], [], blanks_single, blanks_nil, by simp⟩,
      .cons next padded' more', ?_⟩
    have behind : ',' :: p ++ a' = ',' :: (' ' :: printArgs (w :: ws) ++ [' ']) := by rw [pieces]; rfl
    rw [printArgs, value.print_eq, behind]
    simp

theorem SpellsTag.printed {n : Node} {p : Text} (tag : SpellsTag n p) : SpellsTag n n.print := by
  cases tag with
  | escaped value framed =>
    rw [print, value.print_eq]
    exact .escaped value (framed_printTag _ _)
  | unescaped value framed =>
    rw [print, value.print_eq]
    exact .unescaped value (framed_printTag _ _)
  | call framed =>
    rw [print, print]
    exact .call (framed_printTag _ _)
  | @callWith name f v vs t p a helper value padded more =>
    obtain ⟨p', a', padded', more', pieces⟩ := printArgs_pieces value more
    have helper' : Padded name (' ' :: name) := ⟨[' '], [], blanks_single, blanks_nil, by simp⟩
    have whole := SpellsTag.callWith helper' value padded' more'
    rw [List.append_assoc _ p' a', ← pieces] at whole
    simpa [print, printTag] using whole

theorem Spells.printed {ns : List Node} {s : Text} (spelled : Spells ns s) : Spells ns (printAll ns) := by
  induction spelled with
  | nil => exact .nil
  | text rest ih =>
    rw [printAll, print]
    exact .text ih
  | tag tag rest ih =>
    rw [printAll]
    exact .tag tag.printed ih
  | block opened inner closed rest ihInner ih =>
    rw [printAll, print, print]
    exact .block (framed_printTag _ _) ihInner (framed_printTag _ _) ih

end Stencil.Node
