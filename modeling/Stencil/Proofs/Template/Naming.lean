import Stencil.Proofs.Template.Reading

/-!
# Names that stand for values

Two words are literals where a value is read: true and false. A name that goes on behind one of them is still
read as a name, unless the letter that goes on is one that names have by folding of case: the word is then taken
for a literal, and the letter is left. `name_taken` says so, and that all other names can be printed and passed.
-/

namespace Stencil

open Grammar Stencil.Parser

/-- The letters of names that are Latin ones but for case. -/
def isFolded (c : Char) : Bool := c = '\u017F' || c = '\u212A' || c = '\u0130' || c = '\u0131'

/-- A word that is a literal begins the text, and a letter goes on with it that is Latin but for case. -/
def Shadowed (p : Text) : Prop := ∃ word c q, IsWord word ∧ p = word ++ c :: q ∧ isFolded c = true

/-! ### Words at the start of a name -/

theorem extendsWord_iff {c : Char} : extendsWord c = true ↔
    c.toNat = 0x24 ∨ c.toNat = 0x2E ∨ (0x30 ≤ c.toNat ∧ c.toNat ≤ 0x39) ∨
    (0x41 ≤ c.toNat ∧ c.toNat ≤ 0x5A) ∨ c.toNat = 0x5F ∨ (0x61 ≤ c.toNat ∧ c.toNat ≤ 0x7A) := by
  simp [extendsWord, Char.isAlphanum, Text.isAlpha_iff, Char.isDigit, UInt32.le_iff_toNat_le, ← Char.toNat_inj]
  omega

theorem isFolded_iff {c : Char} : isFolded c = true ↔
    c.toNat = 0x130 ∨ c.toNat = 0x131 ∨ c.toNat = 0x17F ∨ c.toNat = 0x212A := by
  simp [isFolded, ← Char.toNat_inj]
  omega

/-- The characters of names that do not make a longer word. -/
theorem extendsWord_eq_false {c : Char} (inside : isNameChar c = true) :
    extendsWord c = false ↔ isFolded c = true := by
  rw [isNameChar_iff] at inside
  rw [Bool.eq_false_iff, ne_eq, extendsWord_iff, isFolded_iff]
  omega

theorem stops_extendsWord_iff {p word q : Text} (named : IsName p) (split : p = word ++ q) :
    Stops extendsWord q ↔ q = [] ∨ ∃ c s, q = c :: s ∧ isFolded c = true := by
  cases q with
  | nil => exact iff_of_true nofun (.inl rfl)
  | cons c s =>
    have inside : isNameChar c = true := named.chars c (by simp [split])
    rw [stops_cons, extendsWord_eq_false inside]
    simp

theorem booleanToken_name {p r : Text} (named : IsName p) (ends : Stops isNameChar r) :
    booleanToken (p ++ r) = none ↔ ¬ IsWord p ∧ ¬ Shadowed p := by
  rw [booleanToken_append_eq_none ends]
  constructor
  · intro apart
    constructor
    · intro word
      exact apart p word [] (by simp) nofun
    · rintro ⟨word, c, q, isWord, split, folded⟩
      exact apart word isWord _ split ((stops_extendsWord_iff named split).mpr (.inr ⟨c, q, rfl, folded⟩))
  · rintro ⟨plain, clear⟩ word isWord q split stops
    rcases (stops_extendsWord_iff named split).mp stops with rfl | ⟨c, s, rfl, folded⟩
    · rw [List.append_nil] at split
      exact plain (split ▸ isWord)
    · exact clear ⟨word, c, s, isWord, split, folded⟩

/-! ### Names where a value is read -/

theorem valueNode_name {p r : Text} (named : IsName p) (ends : Stops isNameChar r) :
    valueNode (p ++ r) = some (.name p, r) ↔ ¬ IsWord p ∧ ¬ Shadowed p := by
  have read : nameToken (p ++ r) = some (p, r) :=
    nameToken_eq_some_iff.mpr ⟨named, rfl, continuesName_of_stops ends⟩
  rw [← booleanToken_name named ends, ← named.literalToken_append (r := r)]
  simp only [valueNode, primitiveNode, nameNode, orElse_eq_some, map_eq_some, map_eq_none]
  constructor
  · rintro (⟨t, -, other⟩ | ⟨none, -⟩)
    · cases other
    · exact none
  · intro none
    exact .inr ⟨none, p, read, rfl⟩

theorem valueNode_shadowed {word q r : Text} {c : Char} (isWord : IsWord word) (named : IsName (word ++ c :: q))
    (folded : isFolded c = true) :
    valueNode (word ++ c :: q ++ r) = some (.primitive word, c :: q ++ r) := by
  have stops : Stops extendsWord (c :: q ++ r) := (stops_extendsWord_iff named rfl).mpr (.inr ⟨c, q, rfl, folded⟩)
  have read : literalToken (word ++ c :: q ++ r) = some (word, c :: q ++ r) := by
    rw [named.literalToken_append, List.append_assoc]
    exact booleanToken_word isWord stops
  exact orElse_eq_some.mpr (.inl (map_eq_some.mpr ⟨word, read, rfl⟩))

theorem isValue_name {p : Text} (named : IsName p) : IsValue (.name p) ↔ ¬ IsWord p ∧ ¬ Shadowed p := by
  have ends : Stops isNameChar ['}'] := stops_cons.mpr (by decide)
  rw [← booleanToken_name named ends]
  constructor
  · intro value
    cases value with
    | name _ free => exact free
  · exact .name named

theorem Reads.isTag {depth k : Nat} {s : Text} {n : Node} {ns : List Node} {fs : List Fault}
    (reads : Reads depth k s (n :: ns) fs) (textless : ∀ t, n ≠ .text t)
    (single : ∀ sense context body, n ≠ .block sense context body) : IsTag n := by
  cases reads with
  | text | stuck => exact absurd rfl (textless _)
  | tag spelled valid rest => exact valid
  | block => exact absurd rfl (single _ _ _)

/-- A tag that is printed is read again if its names and literals can be read, and else it is not. -/
theorem Template.parse_tag_iff {n : Node} (textless : ∀ t, n ≠ .text t)
    (single : ∀ sense context body, n ≠ .block sense context body) (limit : Int) :
    parse limit n.print = ⟨[n], []⟩ ↔ IsTag n := by
  constructor
  · intro read
    have reads := reads_readNodes limit.toNat 0 n.print
    have nodes : (readNodes (readBody limit.toNat) 0 n.print).result = [n] := congrArg Template.nodes read
    rw [nodes] at reads
    exact reads.isTag textless single
  · exact fun valid => parse_tag valid limit

/-- In front of what no name goes on with, a name is read as a value unless it is a word, or a word begins it and a
letter goes on with it that is Latin but for case: that word is then read. The same names can be printed, and can
be passed to any helper in any place. -/
theorem name_taken {p : Text} (named : IsName p) :
    (∀ r, Stops isNameChar r → (valueNode (p ++ r) = some (.name p, r) ↔ ¬ IsWord p ∧ ¬ Shadowed p)) ∧
    (∀ word c q r, IsWord word → p = word ++ c :: q → isFolded c = true →
      valueNode (p ++ r) = some (.primitive word, c :: q ++ r)) ∧
    ∀ limit,
      (Template.parse limit (Node.escaped (.name p)).print = ⟨[.escaped (.name p)], []⟩ ↔
        ¬ IsWord p ∧ ¬ Shadowed p) ∧
      ∀ f args, IsName f → .name p ∈ args → (∀ v ∈ args, v = .name p ∨ IsValue v) →
        (Template.parse limit (Node.helper (.name f) args).print = ⟨[.helper (.name f) args], []⟩ ↔
          ¬ IsWord p ∧ ¬ Shadowed p) := by
  refine ⟨fun r ends => valueNode_name named ends, ?_, fun limit => ⟨?_, ?_⟩⟩
  · rintro word c q r isWord rfl folded
    exact valueNode_shadowed isWord named folded
  · rw [Template.parse_tag_iff (by simp) (by simp), isTag_escaped, isValue_name named]
  · intro f args helper member valid
    rw [Template.parse_tag_iff (by simp) (by simp), isTag_helper helper, ← isValue_name named]
    constructor
    · exact fun values => values _ member
    · intro value v inside
      rcases valid v inside with rfl | other
      · exact value
      · exact other

/-- A point goes on with a word as a name, which can be passed; the Kelvin sign does not. -/
theorem name_taken_point :
    let p := "true.x".toList
    let args : List Node := [.primitive ['1'], .name p]
    let q := "false\u212A".toList
    (IsName p ∧ Stops isNameChar [','] ∧ valueNode (p ++ [',']) = some (.name p, [',']) ∧
      IsName ['f'] ∧ .name p ∈ args ∧ (∀ v ∈ args, v = .name p ∨ IsValue v) ∧
      Template.parse 0 (Node.helper (.name ['f']) args).print = ⟨[.helper (.name ['f']) args], []⟩) ∧
    IsName q ∧ IsWord "false".toList ∧ isFolded '\u212A' = true ∧
      valueNode (q ++ [' ']) = some (.primitive "false".toList, ['\u212A', ' ']) := by
  intro p args q
  constructor
  · have named : IsName p := by rfl
    have ends : Stops isNameChar [','] := stops_cons.mpr (by decide)
    have read : valueNode (p ++ [',']) = some (.name p, [',']) := by rfl
    have member : .name p ∈ args := by simp [args]
    have valid : ∀ v ∈ args, v = .name p ∨ IsValue v := by
      intro v inside
      rcases List.mem_cons.mp inside with rfl | inside
      · exact .inr (.primitive (.whole ⟨List.cons_ne_nil _ _, List.forall_mem_singleton.mpr rfl⟩))
      · exact .inl (List.mem_singleton.mp inside)
    obtain ⟨taken, -, printed⟩ := name_taken named
    have free := (taken [','] ends).mp read
    exact ⟨named, ends, read, rfl, member, valid, ((printed 0).2 ['f'] args rfl member valid).mpr free⟩
  · have named : IsName q := by rfl
    have word : IsWord "false".toList := .inr rfl
    obtain ⟨-, shadowed, -⟩ := name_taken named
    exact ⟨named, word, rfl, shadowed "false".toList '\u212A' [] [' '] word rfl rfl⟩

/-- The long s is a letter of names, but it makes no longer word of true: the word is read and the letter is left.
So the name can stand at a section and cannot be printed. -/
theorem true_folded :
    let p := "true\u017F".toList
    IsName p ∧ ¬ IsWord p ∧ Stops isNameChar [] ∧
      valueNode (p ++ []) = some (.primitive "true".toList, ['\u017F']) ∧
      valueNode (p ++ []) ≠ some (.name p, []) ∧
      Template.parse 64 (Node.block .plain (.name p) []).print = ⟨[.block .plain (.name p) []], []⟩ ∧
      Template.parse 64 (Node.escaped (.name p)).print =
        ⟨[.text (Node.escaped (.name p)).print], [⟨.malformedTag, 0, 1, 1⟩]⟩ := by
  intro p
  have named : IsName p := by rfl
  have plain : ¬ IsWord p := by
    unfold IsWord
    decide
  have read : valueNode (p ++ []) = some (.primitive "true".toList, ['\u017F']) := by rfl
  have headed := Node.framed_printTag ['#'] p
  have footed := Node.framed_printTag ['/'] p
  have opened : Reads 64 0 (printTag ['#'] p ++ [] ++ printTag ['/'] p ++ []) [.block .plain (.name p) []] [] :=
    @Reads.block 63 0 .plain _ _ [] _ [] _ _ [] [] named headed footed trivial .nil .nil
  have stuck : Stuck 64 (printTag [] p) .malformed := fun k => by rfl
  have failed : Reads 64 0 (printTag [] p) [.text (printTag [] p)] [⟨.malformed, 0 + (printTag [] p).length⟩] :=
    .stuck (by decide) stuck
  refine ⟨named, plain, nofun, read, ?_, ?_, ?_⟩
  · rw [read]
    nofun
  · exact @Template.parse_eq 64 _ _ _ opened
  · exact @Template.parse_eq 64 _ _ _ failed

end Stencil
