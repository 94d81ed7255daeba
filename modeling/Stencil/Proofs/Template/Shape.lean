import Stencil.Proofs.Template.Diagnostics
import Stencil.Proofs.Template.Rendering
import Stencil.Proofs.Template.Reparse

/-!
# The shape of templates

Whatever the source, the nodes that are read from it have a shape of their own at every depth: texts stand apart,
and only the last one of a list may hold a tag that could not be read; names and literals are such; and nothing in
a section holds its end marker, so that it also ends at the right place as printed. `Template.parse_shape` states
this.
-/

namespace Stencil

open Grammar Stencil.Parser
open Node (printAll partsAll framed_printTag)

/-! ### Texts among nodes -/

/-- The text may stand in front of the nodes `behind`: it has no tag in it unless it is the last of its list. -/
structure Stands (t : Text) (behind : List Node) : Prop where
  nonempty : t ≠ []
  braceless : behind ≠ [] → ¬ openBraces <:+: t
  ending : behind ≠ [] → t.getLast? ≠ some '{'
  /-- Another text comes next only where a tag in it could not be read. -/
  next : ∀ u more, behind = .text u :: more → more = [] ∧ openBraces <+: u

theorem Opens.ne_nil {s : Text} (opens : Opens s) : s ≠ [] := by
  obtain ⟨r, rfl⟩ := opens
  exact List.cons_ne_nil _ _

theorem getLast?_of_nowhere {t s : Text} (plain : Nowhere Opens t s) (opens : Opens s) :
    t.getLast? ≠ some '{' := by
  intro last
  obtain ⟨u, rfl⟩ := List.getLast?_eq_some_iff.mp last
  obtain ⟨r, rfl⟩ := opens
  obtain ⟨-, brace⟩ := nowhere_append.mp plain
  exact brace.1 ⟨'{' :: r, rfl⟩

theorem Reads.opens_of_text {depth k : Nat} {s u : Text} {ns : List Node} {fs : List Fault}
    (reads : Reads depth k s (.text u :: ns) fs) (opens : Opens s) : ns = [] ∧ Opens u := by
  cases reads with
  | text nonempty plain next rest =>
    cases u with
    | nil => exact absurd rfl nonempty
    | cons c u => exact absurd opens plain.1
  | stuck => exact ⟨rfl, opens⟩
  | tag spelled valid => cases valid

theorem Reads.stands {depth k : Nat} {s t : Text} {behind : List Node} {fs : List Fault}
    (reads : Reads depth k s (.text t :: behind) fs) : Stands t behind := by
  cases reads with
  | @text _ _ _ r _ _ nonempty plain next rest =>
    have opens (more : behind ≠ []) : Opens r := by
      refine next.resolve_left fun empty => more ?_
      subst empty
      exact rest.of_nil.1
    constructor
    · exact nonempty
    · exact fun _ => not_degraded_of_nowhere plain
    · exact fun more => getLast?_of_nowhere plain (opens more)
    · rintro u more rfl
      exact rest.opens_of_text (opens (List.cons_ne_nil _ _))
  | stuck opens =>
    constructor
    · exact opens.ne_nil
    · exact fun more => absurd rfl more
    · exact fun more => absurd rfl more
    · nofun
  | tag spelled valid => cases valid

/-- What stands behind some of the nodes is itself read from a text. -/
theorem Reads.behind {depth k : Nat} {s : Text} {before behind : List Node} {fs : List Fault}
    (reads : Reads depth k s (before ++ behind) fs) : ∃ s' fs', Reads depth k s' behind fs' := by
  induction before generalizing s fs with
  | nil => exact ⟨s, fs, reads⟩
  | cons n before ih =>
    rw [List.cons_append] at reads
    generalize nodes : before ++ behind = ns at reads ih
    cases reads with
    | text nonempty plain next rest => exact ih rest
    | stuck =>
      obtain ⟨-, rfl⟩ := List.append_eq_nil_iff.mp nodes
      exact ⟨[], [], .nil⟩
    | tag spelled valid rest => exact ih rest
    | block named opened ended first inner rest => exact ih rest

/-! ### Sections among nodes -/

/-- A section at any depth is read with less depth to spare, and its nodes hold no end marker of its name. -/
theorem Reads.section_mem {depth k : Nat} {s : Text} {ns : List Node} {fs : List Fault}
    (reads : Reads depth k s ns fs) {sense : Sense} {context : Node} {body : List Node}
    (member : .block sense context body ∈ partsAll ns) :
    ∃ name, context = .name name ∧ IsName name ∧ Avoids name body ∧
      ∃ depth' k' b es, depth' < depth ∧ Reads depth' k' b body es := by
  induction reads with
  | nil => cases member
  | text nonempty plain next rest ih =>
    rcases List.mem_append.mp member with here | later
    · rw [Node.parts, List.mem_singleton] at here
      cases here
    · exact ih later
  | stuck =>
    rcases List.mem_append.mp member with here | later
    · rw [Node.parts, List.mem_singleton] at here
      cases here
    · cases later
  | tag spelled valid rest ih =>
    rcases List.mem_append.mp member with here | later
    · rcases valid.mem_parts here with rfl | ⟨path, -, same⟩ | value
      · cases valid
      · cases same
      · cases value
    · exact ih later
  | @block depth _ _ name _ b foot s _ _ es _ named opened ended first inner rest ihInner ih =>
    rcases List.mem_append.mp member with here | later
    · rw [Node.parts, Node.parts, List.mem_cons, List.mem_append, List.mem_singleton] at here
      rcases here with same | same | inside
      · cases same
        have avoids := (inner.nowhere_iff named (ended.opens s)).mp first
        exact ⟨name, rfl, named, avoids, depth, _, b, es, Nat.lt_succ_self depth, inner⟩
      · cases same
      · obtain ⟨name', same, named', avoids, depth', k', b', es', less, reads⟩ := ihInner inside
        exact ⟨name', same, named', avoids, depth', k', b', es', Nat.lt_succ_of_lt less, reads⟩
    · exact ih later

theorem Grammar.Avoids.single {name : Text} {ns : List Node} (avoids : Avoids name ns) (sense : Sense)
    (body : List Node) : .block sense (.name name) body ∉ partsAll ns :=
  fun member => avoids _ member rfl

/-- Printed nodes that hold no end marker reach up to the first one when an end tag is put behind them. -/
theorem Reads.findEnd_printed {depth k : Nat} {s name : Text} {ns : List Node} {fs : List Fault}
    (reads : Reads depth k s ns fs) (named : IsName name) (avoids : Avoids name ns) :
    findEnd name (printAll ns ++ printTag ['/'] name) =
      some ⟨printAll ns, printTag ['/'] name, closeBraces⟩ := by
  obtain ⟨_, again, -⟩ := reads.printed 0
  have ended : Node.Framed ['/'] name (printTag ['/'] name) := framed_printTag _ _
  have opens : Opens (printTag ['/'] name) := by simpa using ended.opens []
  apply findEnd_of_nowhere ((again.nowhere_iff named opens).mpr avoids)
  exact endMarker_eq_some.mpr ⟨_, [], ended, (List.append_nil _).symm, (List.append_nil _).symm⟩

/-! ### The shape of a template -/

namespace Template

/-- In every list of nodes of a template the texts stand apart; all names and literals are such; and a section
has none of its name in it, nor anything in its printed body that would end it. -/
theorem parse_shape (limit : Int) (source : Text) :
    let nodes := (parse limit source).nodes
    (∀ ns, (ns = nodes ∨ ∃ sense context, .block sense context ns ∈ partsAll nodes) →
      ∀ before t behind, ns = before ++ .text t :: behind → Stands t behind) ∧
    (∀ path, .name path ∈ partsAll nodes → IsName path) ∧
    (∀ token, .primitive token ∈ partsAll nodes → IsLiteral token) ∧
    ∀ sense context body, .block sense context body ∈ partsAll nodes → ∃ name, context = .name name ∧
      (∀ sense' body', .block sense' (.name name) body' ∉ partsAll body) ∧
      findEnd name (printAll body ++ printTag ['/'] name) =
        some ⟨printAll body, printTag ['/'] name, closeBraces⟩ := by
  intro nodes
  have reads : Reads limit.toNat 0 source nodes _ := reads_readNodes limit.toNat 0 source
  refine ⟨?_, fun path => reads.formed.name, fun token => reads.formed.literal, ?_⟩
  · intro ns place before t behind split
    have read : ∃ depth k s fs, Reads depth k s ns fs := by
      rcases place with rfl | ⟨sense, context, member⟩
      · exact ⟨_, _, _, _, reads⟩
      · obtain ⟨-, -, -, -, depth, k, b, es, -, inner⟩ := reads.section_mem member
        exact ⟨depth, k, b, es, inner⟩
    obtain ⟨depth, k, s, fs, read⟩ := read
    subst split
    obtain ⟨s', fs', rest⟩ := read.behind
    exact rest.stands
  · intro sense context body member
    obtain ⟨name, same, named, avoids, depth, k, b, es, -, inner⟩ := reads.section_mem member
    exact ⟨name, same, avoids.single, inner.findEnd_printed named avoids⟩

/-- A body that ends in braces: the text in front of them stands apart, and the end marker behind them is the
first in the body as printed. -/
theorem parse_shape_braces :
    let source := "\x7b\x7b#x\x7d\x7da\x7b\x7b 1 \x7d\x7db\x7b\x7b\x7b\x7b/x\x7d\x7d".toList
    let body : List Node := [.text ['a'], .escaped (.primitive ['1']), .text ['b'], .text openBraces]
    (parse 1 source).nodes = [.block .plain (.name ['x']) body] ∧
      Stands ['b'] [.text openBraces] ∧ IsName ['x'] ∧ IsLiteral ['1'] ∧
      findEnd ['x'] (printAll body ++ printTag ['/'] ['x']) =
        some ⟨printAll body, printTag ['/'] ['x'], closeBraces⟩ := by
  intro source body
  have read : (parse 1 source).nodes = [.block .plain (.name ['x']) body] := by
    have none : Text.Blanks [] := Node.blanks_nil
    have one : Text.Blanks [' '] := Node.blanks_single
    have digit : Digits ['1'] := ⟨List.cons_ne_nil _ _, List.forall_mem_singleton.mpr rfl⟩
    have value : Node.SpellsTag (.escaped (.primitive ['1'])) "\x7b\x7b 1 \x7d\x7d".toList :=
      .escaped (.primitive _) ⟨_, ⟨[' '], [' '], one, one, rfl⟩, rfl⟩
    have single {c : Char} (s : Text) (solid : '{' ≠ c) : Nowhere Opens [c] s :=
      ⟨fun opens => solid (List.cons_prefix_cons.mp opens).1, trivial⟩
    have stuck : Reads 0 6 openBraces [.text openBraces] [⟨.malformed, 8⟩] :=
      .stuck (List.prefix_refl _) fun k => rfl
    have later : Reads 0 6 (['b'] ++ openBraces) [.text ['b'], .text openBraces] [⟨.malformed, 8⟩] :=
      .text (List.cons_ne_nil _ _) (single _ (by decide)) (.inr (List.prefix_refl _)) stuck
    have inner := Reads.text (t := ['a']) (List.cons_ne_nil _ _) (single _ (by decide)) (.inr (value.opens _))
      (.tag value (.escaped (.primitive (.whole digit))) later)
    have first : Nowhere (Marked ['x']) "a\x7b\x7b 1 \x7d\x7db\x7b\x7b".toList "\x7b\x7b/x\x7d\x7d".toList :=
      nowhere_of_findEnd rfl
    have reads : Reads (1 : Int).toNat 0 source [.block .plain (.name ['x']) body] [⟨.malformed, 8⟩] :=
      @Reads.block 0 0 .plain ['x'] "\x7b\x7b#x\x7d\x7d".toList _ "\x7b\x7b/x\x7d\x7d".toList [] body []
        _ [] rfl ⟨_, ⟨[], [], none, none, rfl⟩, rfl⟩ ⟨_, ⟨[], [], none, none, rfl⟩, rfl⟩ first inner .nil
    rw [parse_eq reads]
  obtain ⟨lists, names, literals, sections⟩ := parse_shape 1 source
  rw [read] at lists names literals sections
  have member : .block .plain (.name ['x']) body ∈ partsAll [.block .plain (.name ['x']) body] :=
    List.mem_cons_self
  have texts := lists body (.inr ⟨_, _, member⟩) [.text ['a'], .escaped (.primitive ['1'])] ['b'] _ rfl
  obtain ⟨name, same, -, found⟩ := sections _ _ _ member
  cases same
  refine ⟨read, texts, names _ ?_, literals _ ?_, found⟩
  · simp [partsAll, Node.parts]
  · simp [body, partsAll, Node.parts]

end Template

end Stencil
