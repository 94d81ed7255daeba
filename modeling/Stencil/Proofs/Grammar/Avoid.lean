import Stencil.Proofs.Grammar.Tag
import Stencil.Proofs.Node.Parts

/-!
# Nodes that hold no end marker

Whether the end marker of a name begins somewhere in a spelled tag is decided by the literals in it and by
the name of a section that it closes, not by its blanks and not by what stands behind: `nowhere_tag` and
`nowhere_foot`.
-/

namespace Stencil.Grammar

open Stencil.Parser
open Node (Padded Framed SpellsValue SpellsMore SpellsTag)

/-- The node itself, without what it holds, has no end marker of the name in it. -/
def Spares (name : Text) : Node → Prop
  | .text t => findEnd name t = none
  | .primitive token => findEnd name token = none
  | .block _ context _ => context ≠ .name name
  | _ => True

/-- No node at any depth has an end marker of the name in it. -/
def Avoids (name : Text) (ns : List Node) : Prop := ∀ n ∈ Node.partsAll ns, Spares name n

theorem avoids_nil {name : Text} : Avoids name [] := nofun

theorem avoids_cons {name : Text} {n : Node} {ns : List Node} :
    Avoids name (n :: ns) ↔ (∀ m ∈ n.parts, Spares name m) ∧ Avoids name ns := by
  rw [Avoids, Node.partsAll, List.forall_mem_append, Avoids]

theorem avoids_text {name t : Text} {ns : List Node} :
    Avoids name (.text t :: ns) ↔ findEnd name t = none ∧ Avoids name ns := by
  rw [avoids_cons, Node.parts, List.forall_mem_singleton, Spares]

theorem avoids_block {name m : Text} {sense : Sense} {body ns : List Node} :
    Avoids name (.block sense (.name m) body :: ns) ↔ m ≠ name ∧ Avoids name body ∧ Avoids name ns := by
  rw [avoids_cons, Node.parts, Node.parts, List.forall_mem_cons, List.singleton_append, List.forall_mem_cons]
  simp [Spares, Avoids, and_assoc]

/-! ### Texts without opening braces -/

theorem nowhere_braceless {name t : Text} (absent : '{' ∉ t) (r : Text) : Nowhere (Marked name) t r :=
  nowhere_of_not_mem (fun _ => marked_head) absent r

theorem marked_slash {name s : Text} (marked : Marked name s) : ∃ r, s = '{' :: '{' :: '/' :: r := by
  obtain ⟨foot, r, ⟨p, -, rfl⟩, rfl⟩ := marked_iff.mp marked
  exact ⟨p ++ closeBraces ++ r, by simp [openBraces]⟩

theorem brace_not_mem_blanks {w : Text} (blanks : Text.Blanks w) : '{' ∉ w := by
  intro member
  have blank := blanks _ member
  cases blank

theorem IsName.brace_not_mem {name : Text} (named : IsName name) : '{' ∉ name := by
  intro member
  have char := named.chars _ member
  cases char

theorem Digits.brace_not_mem {ds : Text} (digits : Digits ds) : '{' ∉ ds := by
  intro member
  have digit := digits.2 _ member
  cases digit

/-- Opening braces begin no end marker, unless a slash comes next. -/
theorem nowhere_openBraces {name : Text} {c : Char} (slash : c ≠ '/') (brace : c ≠ '{') (s : Text) :
    Nowhere (Marked name) openBraces (c :: s) := by
  refine ⟨fun marked => ?_, fun marked => ?_, trivial⟩
  · obtain ⟨r, same⟩ := marked_slash marked
    simp only [List.cons_append, List.nil_append, List.cons.injEq, true_and] at same
    exact slash same.1
  · obtain ⟨r, same⟩ := marked_slash marked
    simp only [List.cons_append, List.nil_append, List.cons.injEq, true_and] at same
    exact brace same.1

/-! ### Values -/

theorem IsLiteral.quoted_or_braceless {token : Text} (literal : IsLiteral token) :
    (∃ quote inner, (quote = '\'' ∨ quote = '"') ∧ token = quote :: inner ++ [quote]) ∨ '{' ∉ token := by
  cases literal with
  | @string quote inner mark => exact .inl ⟨quote, inner, mark, rfl⟩
  | whole digits => exact .inr digits.brace_not_mem
  | decimal digits fraction => exact .inr (by simp [digits.brace_not_mem, fraction.brace_not_mem])
  | boolean word => exact .inr (by rcases word with rfl | rfl <;> decide)

theorem nowhere_literal {name token : Text} (named : IsName name) (literal : IsLiteral token) (r : Text) :
    Nowhere (Marked name) token r ↔ findEnd name token = none := by
  rcases literal.quoted_or_braceless with ⟨quote, inner, mark, rfl⟩ | absent
  · exact nowhere_marked_quoted (t := quote :: inner) named mark
  · rw [findEnd_eq_none]
    exact iff_of_true (nowhere_braceless absent r) (nowhere_braceless absent [])

theorem nowhere_value {name t r : Text} {v : Node} (named : IsName name) (value : SpellsValue v t)
    (valid : IsValue v) : Nowhere (Marked name) t r ↔ Spares name v := by
  cases value with
  | name path =>
    cases valid with
    | name valid => exact iff_of_true (nowhere_braceless valid.brace_not_mem r) trivial
  | primitive token =>
    cases valid with
    | primitive literal => exact nowhere_literal named literal r

theorem nowhere_padded {name t p r : Text} {v : Node} (named : IsName name) (value : SpellsValue v t)
    (valid : IsValue v) (padded : Padded t p) : Nowhere (Marked name) p r ↔ Spares name v := by
  obtain ⟨w, w', blanks, blanks', rfl⟩ := padded
  rw [nowhere_append, nowhere_append, nowhere_value named value valid]
  simp [nowhere_braceless (brace_not_mem_blanks blanks), nowhere_braceless (brace_not_mem_blanks blanks')]

theorem nowhere_name {name m p r : Text} (valid : IsName m) (padded : Padded m p) :
    Nowhere (Marked name) p r := by
  obtain ⟨w, w', blanks, blanks', rfl⟩ := padded
  refine nowhere_braceless ?_ r
  simp [brace_not_mem_blanks blanks, valid.brace_not_mem, brace_not_mem_blanks blanks']

theorem nowhere_more {name a r : Text} {vs : List Node} (named : IsName name) (more : SpellsMore vs a)
    (valid : ∀ v ∈ vs, IsValue v) : Nowhere (Marked name) a r ↔ ∀ v ∈ vs, Spares name v := by
  induction more with
  | nil => simp [Nowhere]
  | @cons v vs t p a value padded more ih =>
    obtain ⟨first, later⟩ := List.forall_mem_cons.mp valid
    have comma : ',' :: p ++ a = [','] ++ p ++ a := rfl
    rw [comma, nowhere_append, nowhere_append, nowhere_padded named value first padded, ih later,
      List.forall_mem_cons]
    simp [nowhere_braceless (t := [','])]

/-! ### Tags -/

theorem padded_cons {t p : Text} {v : Node} (value : SpellsValue v t) (valid : IsValue v) (padded : Padded t p) :
    ∃ c s, p = c :: s ∧ c ≠ '/' ∧ c ≠ '{' := by
  obtain ⟨w, w', blanks, blanks', rfl⟩ := padded
  cases w with
  | nil =>
    obtain ⟨c, s, rfl, starts⟩ := valid.cons value
    refine ⟨c, s ++ w', rfl, ?_, ?_⟩ <;> rintro rfl <;> cases starts
  | cons c w =>
    have blank := blanks c List.mem_cons_self
    refine ⟨c, w ++ t ++ w', rfl, ?_, ?_⟩ <;> rintro rfl <;> cases blank

theorem nowhere_closeBraces {name r : Text} : Nowhere (Marked name) closeBraces r :=
  nowhere_braceless (by decide) r

theorem nowhere_valueTag {name t p r : Text} {v : Node} (named : IsName name) (value : SpellsValue v t)
    (valid : IsValue v) (padded : Padded t p) :
    Nowhere (Marked name) (openBraces ++ p ++ closeBraces) r ↔ Spares name v := by
  rw [nowhere_append, nowhere_append, nowhere_padded named value valid padded]
  obtain ⟨c, s, rfl, slash, brace⟩ := padded_cons value valid padded
  simp [nowhere_openBraces slash brace, nowhere_closeBraces]

theorem nowhere_marked {name p r : Text} {c : Char} (slash : c ≠ '/') (brace : c ≠ '{') :
    Nowhere (Marked name) (openBraces ++ [c] ++ p ++ closeBraces) r ↔ Nowhere (Marked name) p (closeBraces ++ r) := by
  rw [nowhere_append, nowhere_append, nowhere_append]
  have mark : Nowhere (Marked name) [c] (p ++ (closeBraces ++ r)) := nowhere_braceless (by simpa using brace.symm) _
  simp [mark, nowhere_openBraces slash brace, nowhere_closeBraces]

theorem nowhere_tag {name p r : Text} {n : Node} (named : IsName name) (spelled : SpellsTag n p)
    (valid : IsTag n) : Nowhere (Marked name) p r ↔ ∀ m ∈ n.parts, Spares name m := by
  cases spelled with
  | escaped value framed =>
    obtain ⟨q, padded, rfl⟩ := framed
    cases valid with
    | escaped valid =>
      rw [List.append_nil, nowhere_valueTag named value valid padded, Node.parts, value.parts_eq]
      simp [Spares]
  | @unescaped v t s value framed =>
    obtain ⟨q, padded, rfl⟩ := framed
    cases valid with
    | unescaped valid =>
      have shape : openBraces ++ ['{'] ++ q ++ closeBraces ++ ['}'] =
          ['{'] ++ (openBraces ++ q ++ closeBraces) ++ ['}'] := by simp [openBraces]
      have third : Nowhere (Marked name) ['{'] (openBraces ++ q ++ closeBraces ++ (['}'] ++ r)) := by
        refine ⟨fun marked => ?_, trivial⟩
        obtain ⟨u, same⟩ := marked_slash marked
        simp [openBraces] at same
      have last : Nowhere (Marked name) ['}'] r := nowhere_braceless (by decide) r
      rw [shape, nowhere_append, nowhere_append, nowhere_valueTag named value valid padded, Node.parts,
        value.parts_eq, and_iff_left last, and_iff_right third]
      simp [Spares]
  | call framed =>
    obtain ⟨q, padded, rfl⟩ := framed
    cases valid with
    | helper valid =>
      rw [nowhere_marked (by decide) (by decide), Node.parts, Node.parts, Node.partsAll]
      simp [Spares, nowhere_name valid padded]
  | @callWith m f v vs t p a helper value padded more =>
    cases valid with
    | helper valid values =>
      obtain ⟨first, later⟩ := List.forall_mem_cons.mp values
      have shape : openBraces ++ ['%'] ++ f ++ [':'] ++ p ++ a ++ closeBraces =
          openBraces ++ ['%'] ++ (f ++ [':'] ++ p ++ a) ++ closeBraces := by simp
      have colon (u : Text) : Nowhere (Marked name) [':'] u := nowhere_braceless (by decide) u
      rw [shape, nowhere_marked (by decide) (by decide), nowhere_append, nowhere_append, nowhere_append,
        nowhere_padded named value first padded, nowhere_more named more later, Node.parts, Node.parts,
        Node.partsAll, value.parts_eq, more.partsAll_eq]
      simp [Spares, nowhere_name valid helper, colon]

theorem IsValue.parts_eq {v : Node} (valid : IsValue v) : v.parts = [v] := by
  cases valid with
  | name | primitive => rw [Node.parts]

theorem IsTag.mem_parts {n m : Node} (valid : IsTag n) (member : m ∈ n.parts) :
    m = n ∨ (∃ path, IsName path ∧ m = .name path) ∨ IsValue m := by
  cases valid with
  | escaped valid | unescaped valid =>
    rw [Node.parts, valid.parts_eq, List.mem_cons, List.mem_singleton] at member
    exact member.imp_right fun same => .inr (by rwa [same])
  | helper named valid =>
    rw [Node.parts, Node.parts, List.mem_cons, List.mem_append, List.mem_singleton, Node.mem_partsAll] at member
    rcases member with same | same | ⟨v, given, inside⟩
    · exact .inl same
    · exact .inr (.inl ⟨_, named, same⟩)
    · rw [(valid v given).parts_eq, List.mem_singleton] at inside
      exact .inr (.inr (inside ▸ valid v given))

/-- Only a string may hold an end marker in a tag. -/
theorem IsTag.spares {name : Text} {n : Node} (valid : IsTag n)
    (unmarked : ∀ token, .primitive token ∈ n.parts → IsString token → findEnd name token = none) :
    ∀ m ∈ n.parts, Spares name m := by
  intro m member
  rcases valid.mem_parts member with rfl | ⟨path, -, rfl⟩ | value
  · cases valid <;> trivial
  · trivial
  · cases value with
    | name => trivial
    | @primitive token literal =>
      rcases literal.quoted_or_braceless with ⟨quote, inner, mark, rfl⟩ | absent
      · refine unmarked _ member ?_
        rcases mark with rfl | rfl
        · exact .inl rfl
        · exact .inr rfl
      · exact findEnd_eq_none.mpr (nowhere_braceless absent [])

theorem nowhere_head {name m head r : Text} {sense : Sense} (valid : IsName m)
    (opened : Framed [sense.sigil] m head) : Nowhere (Marked name) head r := by
  obtain ⟨p, padded, rfl⟩ := opened
  rw [nowhere_marked (by cases sense <;> decide) (by cases sense <;> decide)]
  exact nowhere_name valid padded

theorem padded_unique {m n p q r u : Text} (hm : IsName m) (hn : IsName n) (padded : Padded m p)
    (padded' : Padded n q) (same : p ++ closeBraces ++ r = q ++ closeBraces ++ u) : m = n := by
  -- Both texts are what follows the sigil in one opening tag.
  have first : sectionHeader .plain ('#' :: (p ++ closeBraces ++ r)) = some (m, r) :=
    sectionHeader_eq_some.mpr ⟨hm, p, padded, rfl⟩
  have second : sectionHeader .plain ('#' :: (q ++ closeBraces ++ u)) = some (n, u) :=
    sectionHeader_eq_some.mpr ⟨hn, q, padded', rfl⟩
  rw [same, second] at first
  exact (Prod.mk.inj (Option.some.inj first)).1.symm

/-- The closing tag of a section is an end marker of no other name. -/
theorem nowhere_foot {name m foot r : Text} (named : IsName name) (valid : IsName m)
    (ended : Framed ['/'] m foot) : Nowhere (Marked name) foot r ↔ m ≠ name := by
  constructor
  · rintro absent rfl
    obtain ⟨core, same, -⟩ := framed_foot_chars valid ended
    rw [same] at absent
    exact absent.1 (marked_iff.mpr ⟨foot, r, ended, by rw [same]⟩)
  · intro different
    obtain ⟨q, padded, rfl⟩ := ended
    rw [nowhere_append, nowhere_append, nowhere_append]
    refine ⟨⟨⟨⟨fun marked => ?_, fun marked => ?_, trivial⟩, nowhere_braceless (by decide) _⟩,
      nowhere_name valid padded⟩, nowhere_closeBraces⟩
    · obtain ⟨foot, u, ⟨q', padded', rfl⟩, same⟩ := marked_iff.mp marked
      refine different (padded_unique valid named padded padded' (r := r) (u := u) ?_)
      simpa [openBraces] using same
    · obtain ⟨u, same⟩ := marked_slash marked
      cases same

end Stencil.Grammar
