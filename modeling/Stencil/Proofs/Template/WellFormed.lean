import Stencil.Proofs.Template.Reading

/-!
# Well-formed templates

A node list that is well formed and not nested too deep is read back from every spelling of it, without a
problem: `parse_wellFormed`. Nothing but the blanks in the tags is open in a spelling, so no choice of them
leads the reader astray.
-/

namespace Stencil

open Grammar Stencil.Parser
open Node (Spells SpellsTag)

/-- Texts hold no opening braces and stand apart, tags hold names and literals, and the end marker of a
section is nowhere in its body: not as the end of a section in it, and not in a string. -/
inductive WellFormed : List Node → Prop
  | nil : WellFormed []
  | text {t : Text} {ns : List Node} (nonempty : t ≠ []) (braceless : ¬ openBraces <:+: t)
      (apart : ∀ u, ns.head? ≠ some (.text u)) (ending : ns ≠ [] → t.getLast? ≠ some '{')
      (rest : WellFormed ns) : WellFormed (.text t :: ns)
  | tag {n : Node} {ns : List Node} (valid : IsTag n) (rest : WellFormed ns) : WellFormed (n :: ns)
  | block {sense : Sense} {name : Text} {body ns : List Node} (named : IsName name) (inner : WellFormed body)
      (single : ∀ sense' body', .block sense' (.name name) body' ∉ Node.partsAll body)
      (unmarked : ∀ token, .primitive token ∈ Node.partsAll body → IsString token → findEnd name token = none)
      (rest : WellFormed ns) : WellFormed (.block sense (.name name) body :: ns)

/-! ### Texts and what follows them -/

theorem Node.Spells.opens {ns : List Node} {s : Text} (spelled : Spells ns s)
    (apart : ∀ u, ns.head? ≠ some (.text u)) : (ns = [] ∧ s = []) ∨ (ns ≠ [] ∧ Opens s) := by
  cases spelled with
  | nil => exact .inl ⟨rfl, rfl⟩
  | text => exact absurd rfl (apart _)
  | tag tag rest => exact .inr ⟨List.cons_ne_nil _ _, tag.opens _⟩
  | @block _ _ head b foot s _ _ opened =>
    exact .inr ⟨List.cons_ne_nil _ _, by simpa using opened.opens (b ++ (foot ++ s))⟩

/-! ### Bodies of sections -/

/-- What is read without a fault holds no end marker, if no section in it closes with it and no string does. -/
theorem Reads.avoids {depth k : Nat} {s name : Text} {ns : List Node} {fs : List Fault}
    (reads : Reads depth k s ns fs) (clean : fs = [])
    (single : ∀ sense body, .block sense (.name name) body ∉ Node.partsAll ns)
    (unmarked : ∀ token, .primitive token ∈ Node.partsAll ns → IsString token → findEnd name token = none) :
    Avoids name ns := by
  induction reads with
  | nil => exact avoids_nil
  | @text _ _ t s ns _ nonempty plain next rest ih =>
    rw [Node.partsAll] at single unmarked
    have later := ih clean (fun sense body member => single sense body (List.mem_append_right _ member))
      fun token member => unmarked token (List.mem_append_right _ member)
    refine avoids_text.mpr ⟨findEnd_eq_none.mpr (nowhere_mono (fun y marked => ?_) plain), later⟩
    rw [List.append_nil] at marked
    obtain ⟨r, rfl⟩ := marked_slash marked
    exact ⟨'/' :: r ++ s, rfl⟩
  | stuck => cases clean
  | tag spelled valid rest ih =>
    rw [Node.partsAll] at single unmarked
    have later := ih clean (fun sense body member => single sense body (List.mem_append_right _ member))
      fun token member => unmarked token (List.mem_append_right _ member)
    exact avoids_cons.mpr ⟨valid.spares fun token member =>
      unmarked token (List.mem_append_left _ member), later⟩
  | @block _ _ sense m _ _ _ _ body ns _ _ named opened ended first inner rest ihInner ih =>
    obtain ⟨clean, clean'⟩ := List.append_eq_nil_iff.mp clean
    have different : m ≠ name := by
      rintro rfl
      exact single sense body (by simp [Node.partsAll, Node.parts])
    have within {n : Node} (member : n ∈ Node.partsAll body) :
        n ∈ Node.partsAll (.block sense (.name m) body :: ns) := by simp [Node.partsAll, Node.parts, member]
    have behind {n : Node} (member : n ∈ Node.partsAll ns) :
        n ∈ Node.partsAll (.block sense (.name m) body :: ns) := List.mem_append_right _ member
    exact avoids_block.mpr ⟨different,
      ihInner clean (fun sense b member => single sense b (within member)) fun t member => unmarked t (within member),
      ih clean' (fun sense b member => single sense b (behind member)) fun t member => unmarked t (behind member)⟩

theorem reads_wellFormed {ns : List Node} {s : Text} (spelled : Spells ns s) (formed : WellFormed ns)
    {depth : Nat} (height : Node.heightAll ns ≤ depth) (k : Nat) : Reads depth k s ns [] := by
  induction spelled generalizing depth k with
  | nil => exact .nil
  | @text t s ns rest ih =>
    cases formed with
    | text nonempty braceless apart ending formed =>
      rw [Node.heightAll] at height
      have later : Reads depth k s ns [] := ih formed (by omega) k
      rcases rest.opens apart with ⟨rfl, rfl⟩ | ⟨more, opens⟩
      · exact .text nonempty (nowhere_opens braceless (seam_nil t)) (.inl rfl) later
      · have seam : Seam t s := fun meet => ending more meet.1
        exact .text nonempty (nowhere_opens braceless seam) (.inr opens) later
    | tag valid => cases valid
  | tag tag rest ih =>
    cases formed with
    | text => cases tag
    | tag valid formed =>
      rw [Node.heightAll] at height
      exact .tag tag valid (ih formed (by omega) k)
    | block => cases tag
  | @block sense name head b foot s body ns opened inner closed rest ihInner ih =>
    cases formed with
    | tag valid => cases valid
    | block named formed single unmarked formed' =>
      rw [Node.heightAll, Node.height] at height
      obtain ⟨depth, rfl⟩ : ∃ d, depth = d + 1 := ⟨depth - 1, by omega⟩
      have body : Reads depth (k + (foot ++ s).length) b body [] := ihInner formed (by omega) _
      have first := (body.nowhere_iff named (closed.opens s)).mpr (body.avoids rfl single unmarked)
      exact .block named opened closed first body (ih formed' (by omega) k)

theorem parse_wellFormed {ns : List Node} {s : Text} (limit : Int) (spelled : Spells ns s)
    (formed : WellFormed ns) (height : Node.heightAll ns ≤ limit.toNat) : Template.parse limit s = ⟨ns, []⟩ := by
  rw [Template.parse, (reads_wellFormed spelled formed height 0).readNodes_eq]
  rfl

/-- A helper call with braces in a string, a text that ends in a brace before an end tag, and a value. -/
theorem parse_wellFormed_section :
    let body : List Node :=
      [.helper (.name ['f']) [.primitive "'\x7d\x7d'".toList, .primitive ['1']], .text ['b', '{']]
    let nodes : List Node := [.text ['a'], .block .plain (.name ['x']) body, .escaped (.name ['y'])]
    let source := "a\x7b\x7b# x\x7d\x7d".toList ++ "\x7b\x7b%f: '\x7d\x7d',1 \x7d\x7db\x7b".toList ++
      "\x7b\x7b/x \x7d\x7d\x7b\x7b y\x7d\x7d".toList
    Spells nodes source ∧ WellFormed nodes ∧ Node.heightAll nodes ≤ (1 : Int).toNat ∧
      Template.parse 1 source = ⟨nodes, []⟩ := by
  intro body nodes source
  have none : Text.Blanks [] := Node.blanks_nil
  have one : Text.Blanks [' '] := Node.blanks_single
  have call : SpellsTag (.helper (.name ['f']) [.primitive "'\x7d\x7d'".toList, .primitive ['1']])
      "\x7b\x7b%f: '\x7d\x7d',1 \x7d\x7d".toList :=
    .callWith ⟨[], [], none, none, rfl⟩ (.primitive _) ⟨[' '], [], one, none, rfl⟩
      (.cons (.primitive _) ⟨[], [' '], none, one, rfl⟩ .nil)
  have inner : Spells body "\x7b\x7b%f: '\x7d\x7d',1 \x7d\x7db\x7b".toList :=
    .tag call (.text (t := ['b', '{']) .nil)
  have value : SpellsTag (.escaped (.name ['y'])) "\x7b\x7b y\x7d\x7d".toList :=
    .escaped (.name _) ⟨_, ⟨[' '], [], one, none, rfl⟩, rfl⟩
  have spelled : Spells nodes source :=
    .text (t := ['a']) (@Spells.block .plain _ "\x7b\x7b# x\x7d\x7d".toList _ "\x7b\x7b/x \x7d\x7d".toList _ _ _
      ⟨_, ⟨[' '], [], one, none, rfl⟩, rfl⟩ inner ⟨_, ⟨[], [' '], none, one, rfl⟩, rfl⟩ (.tag value .nil))
  have tagged : IsTag (.helper (.name ['f']) [.primitive "'\x7d\x7d'".toList, .primitive ['1']]) := by
    refine .helper rfl ?_
    intro v member
    simp only [List.mem_cons, List.not_mem_nil, or_false] at member
    rcases member with rfl | rfl
    · exact .primitive (@IsLiteral.string '\'' ['}', '}'] (.inl rfl) (by decide))
    · exact .primitive (.whole ⟨List.cons_ne_nil _ _, List.forall_mem_singleton.mpr rfl⟩)
  have formed : WellFormed nodes := by
    refine .text (by decide) (by decide) nofun nofun ?_
    refine .block rfl (.tag tagged (.text (by decide) (by decide) nofun nofun .nil)) ?_ ?_
      (.tag (.escaped (.name rfl rfl)) .nil)
    · intro sense body' member
      simp [body, Node.partsAll, Node.parts] at member
    · intro token member _
      simp [body, Node.partsAll, Node.parts] at member
      rcases member with rfl | rfl <;> rfl
  exact ⟨spelled, formed, by decide, parse_wellFormed 1 spelled formed (by decide)⟩

end Stencil
