import Stencil.Proofs.Template.Diagnostics
import Stencil.Proofs.Template.Reparse
import Stencil.Proofs.Template.Session

/-!
# What diagnostics say

The kind of a diagnostic can be checked against the text that it points at: whether the text begins with the
opener of a section, whether an end marker of the name stands behind it, and how many sections lie around it.
`Template.diagnostics_truthful` says that all diagnostics are true of their texts.
-/

namespace Stencil

open Grammar
open Node (texts parts partsAll)

/-! ### Texts and the sections around them -/

namespace Node

mutual

/-- The texts in a node, each with the number of sections around it. -/
def placed (level : Nat) : Node → List (Nat × Text)
  | text t => [(level, t)]
  | name _ | primitive _ | foreign _ => []
  | escaped inner | unescaped inner => inner.placed level
  | block _ context body => context.placed level ++ placedAll (level + 1) body
  | helper f values => f.placed level ++ placedAll level values
  | args values => placedAll level values

def placedAll (level : Nat) : List Node → List (Nat × Text)
  | [] => []
  | n :: ns => n.placed level ++ placedAll level ns

end

mutual

theorem map_snd_placed : (n : Node) → ∀ level, (n.placed level).map Prod.snd = n.parts.filterMap text?
  | text _, _ | name _, _ | primitive _, _ | foreign _, _ => by
    rw [placed, parts]
    rfl
  | escaped inner, level | unescaped inner, level => by
    rw [placed, parts, List.filterMap_cons_none rfl, map_snd_placed inner]
  | block _ context body, level => by
    rw [placed, parts, List.filterMap_cons_none rfl, List.map_append, List.filterMap_append,
      map_snd_placed context, map_snd_placedAll body]
  | helper f values, level => by
    rw [placed, parts, List.filterMap_cons_none rfl, List.map_append, List.filterMap_append, map_snd_placed f,
      map_snd_placedAll values]
  | args values, level => by
    rw [placed, parts, List.filterMap_cons_none rfl, map_snd_placedAll values]

theorem map_snd_placedAll : (ns : List Node) → ∀ level,
    (placedAll level ns).map Prod.snd = (partsAll ns).filterMap text?
  | [], _ => by
    rw [placedAll, partsAll]
    rfl
  | n :: ns, level => by
    rw [placedAll, partsAll, List.map_append, List.filterMap_append, map_snd_placed n, map_snd_placedAll ns]

end

end Node

open Node (placedAll)

/-- The texts with opening braces, with the numbers of sections around them. -/
def degradedAt (level : Nat) (ns : List Node) : List (Nat × Text) :=
  (placedAll level ns).filter fun x => decide (Degraded x.2)

theorem map_snd_degradedAt (level : Nat) (ns : List Node) : (degradedAt level ns).map Prod.snd = degraded ns := by
  rw [degraded, texts, ← Node.map_snd_placedAll ns level, List.filter_map]
  rfl

theorem degradedAt_text (level : Nat) {t : Text} (ns : List Node) : degradedAt level (.text t :: ns) =
    if Degraded t then (level, t) :: degradedAt level ns else degradedAt level ns := by
  simp [degradedAt, placedAll, Node.placed, List.filter_cons]

theorem degradedAt_tag (level : Nat) {n : Node} {p : Text} (spelled : Node.SpellsTag n p) (ns : List Node) :
    degradedAt level (n :: ns) = degradedAt level ns := by
  have none : n.placed level = [] := by
    have textless := spelled.texts_cons []
    rw [Node.texts_cons, show texts [] = [] from rfl, List.append_nil, ← Node.map_snd_placed n level] at textless
    exact List.map_eq_nil_iff.mp textless
  rw [degradedAt, placedAll, none, List.nil_append, degradedAt]

theorem degradedAt_block (level : Nat) {sense : Sense} {name : Text} (body ns : List Node) :
    degradedAt level (.block sense (.name name) body :: ns) =
      degradedAt (level + 1) body ++ degradedAt level ns := by
  simp [degradedAt, placedAll, Node.placed]

/-! ### True diagnostics -/

/-- The problem is what is wrong with the text `x` in so many sections. -/
structure Truthful (limit : Int) (level : Nat) (x : Text) (p : Problem) : Prop where
  malformed : p = .malformedTag ↔ ¬ ∃ name rest, Heads name x rest
  unterminated : ∀ name, p = .unterminatedSection name ↔ ∃ rest, Heads name x rest ∧ ¬ Ends name rest
  tooDeep : p = .nestingTooDeep limit ↔ ∃ name rest, Heads name x rest ∧ Ends name rest
  deep : ∀ bound, p = .nestingTooDeep bound → bound = limit ∧ limit ≤ level

theorem StuckCase.truthful {depth level : Nat} {limit : Int} {s : Text} {cause : TagFault}
    (stuck : StuckCase depth s cause) (place : limit.toNat = level + depth) :
    Truthful limit level s (TagFault.problem limit cause) := by
  cases stuck with
  | malformed headless =>
    constructor
    · exact iff_of_true rfl fun ⟨name, rest, heads⟩ => headless name rest heads
    · exact fun name => iff_of_false nofun fun ⟨rest, heads, _⟩ => headless name rest heads
    · exact iff_of_false nofun fun ⟨name, rest, heads, _⟩ => headless name rest heads
    · nofun
  | @unterminated name rest heads endless =>
    constructor
    · exact iff_of_false nofun fun headless => headless ⟨name, rest, heads⟩
    · intro name'
      constructor
      · intro same
        cases same
        exact ⟨rest, heads, endless⟩
      · rintro ⟨rest', heads', -⟩
        obtain ⟨rfl, -⟩ := heads.unique heads'
        rfl
    · refine iff_of_false nofun ?_
      rintro ⟨name', rest', heads', ends⟩
      obtain ⟨rfl, rfl⟩ := heads.unique heads'
      exact endless ends
    · nofun
  | @refused name rest heads ends bottom =>
    constructor
    · exact iff_of_false nofun fun headless => headless ⟨name, rest, heads⟩
    · intro name'
      refine iff_of_false nofun ?_
      rintro ⟨rest', heads', endless⟩
      obtain ⟨rfl, rfl⟩ := heads.unique heads'
      exact endless ends
    · exact iff_of_true rfl ⟨name, rest, heads, ends⟩
    · intro bound same
      cases same
      omega

/-- What the faults say is true of the texts in order, where sections may nest as deep as `limit`. -/
theorem Reads.truthful {depth k : Nat} {s : Text} {ns : List Node} {fs : List Fault} (reads : Reads depth k s ns fs)
    {limit : Int} {level : Nat} (place : limit.toNat = level + depth) :
    List.Forall₂ (fun f x => Truthful limit x.1 x.2 (TagFault.problem limit f.cause)) fs (degradedAt level ns) := by
  induction reads generalizing level with
  | nil => exact .nil
  | text nonempty plain next rest ih =>
    rw [degradedAt_text, if_neg (not_degraded_of_nowhere plain)]
    exact ih place
  | stuck opens stuck =>
    rw [degradedAt_text, if_pos opens.isInfix]
    exact .cons (stuck.cases.truthful place) .nil
  | tag spelled valid rest ih =>
    rw [degradedAt_tag level spelled]
    exact ih place
  | block named opened ended first inner rest ihInner ih =>
    rw [degradedAt_block]
    exact List.rel_append (ihInner (by omega)) (ih place)

theorem forall₂_and {α β : Type} {p q : α → β → Prop} {xs : List α} {ys : List β} (first : List.Forall₂ p xs ys)
    (second : List.Forall₂ q xs ys) : List.Forall₂ (fun x y => p x y ∧ q x y) xs ys := by
  induction first with
  | nil => exact .nil
  | cons here later ih =>
    cases second with
    | cons here' later' => exact .cons ⟨here, here'⟩ (ih later')

/-- The diagnostics are in order those of the texts with opening braces, and say of each what is wrong with it.
A reader that keeps a mark of what is too deep comes to the same template, and to no mark. -/
theorem Template.diagnostics_truthful (limit : Int) (source : Text) :
    List.Forall₂ (fun d x => PointsAt source d x.2 ∧ Truthful limit x.1 x.2 d.problem)
      (parse limit source).diagnostics (degradedAt 0 (parse limit source).nodes) ∧
    Session.parse limit source = parse limit source ∧ (Session.read limit source).2.tooDeep = false := by
  obtain ⟨same, unmarked, -⟩ := Session.parse_eq limit source
  refine ⟨forall₂_and ?_ ?_, same, unmarked⟩
  · have located := diagnostics_located limit source
    rw [← map_snd_degradedAt 0, List.forall₂_map_right_iff] at located
    exact located
  · have truthful := (reads_readNodes limit.toNat 0 source).truthful (Nat.zero_add _).symm
    refine List.forall₂_map_left_iff.mpr (truthful.imp fun f x true => ?_)
    rw [Fault.diagnostic_problem]
    exact true

end Stencil
