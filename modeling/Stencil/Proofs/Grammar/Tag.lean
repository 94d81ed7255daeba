import Stencil.Proofs.Grammar.Argument
import Stencil.Proofs.Grammar.Marker

/-!
# What a tag is read as

A spelled tag is read as its node, whatever stands behind it: `tag_spelled`. A section is read as such once
its end marker is found, and its body is handed over once: `tag_section`. `tag_cases` says that a text with
a tag at its start is one of these two, or else fails without a look at any body.
-/

namespace Stencil.Grammar

open Stencil.Parser
open Node (Padded Framed SpellsValue SpellsMore SpellsTag)

variable {ε : Type}

/-- A tag of a value or of a helper call whose names and literals are such. -/
inductive IsTag : Node → Prop
  | escaped {v : Node} (valid : IsValue v) : IsTag (.escaped v)
  | unescaped {v : Node} (valid : IsValue v) : IsTag (.unescaped v)
  | helper {name : Text} {args : List Node} (named : IsName name) (valid : ∀ v ∈ args, IsValue v) :
      IsTag (.helper (.name name) args)

theorem isTag_escaped {v : Node} : IsTag (.escaped v) ↔ IsValue v := by
  constructor
  · intro valid
    cases valid with
    | escaped value => exact value
  · exact .escaped

theorem isTag_helper {name : Text} (named : IsName name) {args : List Node} :
    IsTag (.helper (.name name) args) ↔ ∀ v ∈ args, IsValue v := by
  constructor
  · intro valid
    cases valid with
    | helper _ values => exact values
  · exact .helper named

/-! ### Printed tags -/

theorem IsValue.spells {v : Node} (valid : IsValue v) : ∃ t, SpellsValue v t := by
  cases valid with
  | name named => exact ⟨_, .name _⟩
  | primitive literal => exact ⟨_, .primitive _⟩

theorem spellsMore_exists {vs : List Node} (valid : ∀ v ∈ vs, IsValue v) : ∃ a, SpellsMore vs a := by
  induction vs with
  | nil => exact ⟨[], .nil⟩
  | cons v vs ih =>
    obtain ⟨first, others⟩ := List.forall_mem_cons.mp valid
    obtain ⟨t, value⟩ := first.spells
    obtain ⟨a, more⟩ := ih others
    exact ⟨_, .cons value ⟨[], [], Node.blanks_nil, Node.blanks_nil, rfl⟩ more⟩

/-- A tag is printed as one of its spellings. -/
theorem IsTag.spells_print {n : Node} (valid : IsTag n) : SpellsTag n n.print := by
  have bare (t : Text) : Padded t ([] ++ t ++ []) := ⟨[], [], Node.blanks_nil, Node.blanks_nil, rfl⟩
  cases valid with
  | escaped valid =>
    obtain ⟨t, value⟩ := valid.spells
    exact (SpellsTag.escaped value ⟨_, bare t, rfl⟩).printed
  | unescaped valid =>
    obtain ⟨t, value⟩ := valid.spells
    exact (SpellsTag.unescaped value ⟨_, bare t, rfl⟩).printed
  | @helper name args named valid =>
    cases args with
    | nil => exact (SpellsTag.call ⟨_, bare name, rfl⟩).printed
    | cons v vs =>
      obtain ⟨first, others⟩ := List.forall_mem_cons.mp valid
      obtain ⟨t, value⟩ := first.spells
      obtain ⟨a, more⟩ := spellsMore_exists others
      exact (SpellsTag.callWith (bare name) value (bare t) more).printed

/-! ### Forms of tags -/

theorem closeBraces_append (r : Text) : closeBraces ++ r = '}' :: '}' :: r := rfl

theorem valueTag_eq_some {s r : Text} {n : Node} :
    (escapedTag <|> rawTag) s = some (n, closeBraces ++ r) ↔
      (∃ v, n = .escaped v ∧ IsValue v ∧ ∃ t p, SpellsValue v t ∧ Padded t p ∧ s = p ++ closeBraces ++ r) ∨
      (∃ v, n = .unescaped v ∧ IsValue v ∧
        ∃ t p, SpellsValue v t ∧ Padded t p ∧ s = '{' :: p ++ '}' :: closeBraces ++ r) := by
  rw [orElse_eq_some]
  simp only [escapedTag, rawTag, bind_eq_some, map_eq_some, literal_eq_some, pure_eq_some]
  constructor
  · rintro (⟨v, read, rfl⟩ | ⟨-, _, _, ⟨rfl, rfl⟩, v, _, read, _, _, ⟨rfl, rfl⟩, rfl, rfl⟩)
    · obtain ⟨valid, t, p, value, padded, rfl⟩ := value_brace.mp read
      exact .inl ⟨v, rfl, valid, t, p, value, padded, by simp [closeBraces_append]⟩
    · obtain ⟨valid, t, p, value, padded, rfl⟩ := value_brace.mp read
      exact .inr ⟨v, rfl, valid, t, p, value, padded, by simp⟩
  · rintro (⟨v, rfl, valid, t, p, value, padded, rfl⟩ | ⟨v, rfl, valid, t, p, value, padded, rfl⟩)
    · have read := (value_brace (r := '}' :: r)).mpr ⟨valid, t, p, value, padded, rfl⟩
      exact .inl ⟨v, by simpa [closeBraces_append] using read, rfl⟩
    · have read := (value_brace (r := closeBraces ++ r)).mpr ⟨valid, t, p, value, padded, rfl⟩
      refine .inr ⟨?_, _, _, ⟨rfl, by simp⟩, v, _, read, _, _, ⟨rfl, rfl⟩, rfl, rfl⟩
      exact map_eq_none.mpr (value_eq_none (by decide) (by decide))

theorem valueTag_eq_none {c : Char} {s : Text} (solid : Text.isBlank c = false)
    (other : startsValue c = false) (brace : c ≠ '{') : (escapedTag <|> rawTag) (c :: s) = none :=
  orElse_eq_none.mpr ⟨map_eq_none.mpr (value_eq_none solid other), literal_bind_eq_none brace⟩

theorem sectionHeader_eq_some {sense : Sense} {s name r : Text} : sectionHeader sense s = some (name, r) ↔
    IsName name ∧ ∃ p, Padded name p ∧ s = sense.sigil :: p ++ closeBraces ++ r := by
  have brace (r : Text) : Delimited (closeBraces ++ r) := delimited_cons (by decide)
  simp only [sectionHeader, bind_eq_some, literal_eq_some, blanks_eq_some, pure_eq_some]
  constructor
  · rintro ⟨_, _, ⟨rfl, rfl⟩, _, _, ⟨w, blanks, rfl, -⟩, _, _, read, _, _, ⟨w', blanks', rfl, -⟩,
      _, _, ⟨rfl, rfl⟩, rfl, rfl⟩
    obtain ⟨valid, rfl⟩ := (nameToken_eq_some (delimited_blanks blanks' (brace _))).mp read
    exact ⟨valid, _, ⟨w, w', blanks, blanks', rfl⟩, by simp⟩
  · rintro ⟨valid, _, ⟨w, w', blanks, blanks', rfl⟩, rfl⟩
    have read := (nameToken_eq_some (delimited_blanks blanks' (brace r))).mpr ⟨valid, rfl⟩
    have solid : Stops Text.isBlank (name ++ (w' ++ (closeBraces ++ r))) := by
      obtain ⟨c, t, rfl, starts⟩ := valid.cons
      exact stops_blank starts
    exact ⟨_, _, ⟨rfl, by simp⟩, (), _, ⟨w, blanks, rfl, solid⟩, name, _, read, (), closeBraces ++ r,
      ⟨w', blanks', rfl, stops_cons.mpr (by decide)⟩, _, r, ⟨rfl, rfl⟩, rfl, rfl⟩

theorem sectionHeader_eq_none {sense : Sense} {c : Char} {s : Text} (other : c ≠ sense.sigil) :
    sectionHeader sense (c :: s) = none :=
  literal_bind_eq_none other

theorem sectionHead_eq_some {sense : Sense} {s name r : Text} : sectionHead s = some ((sense, name), r) ↔
    sectionHeader sense s = some (name, r) := by
  simp only [sectionHead, orElse_eq_some, map_eq_some, Prod.mk.injEq]
  constructor
  · rintro (⟨_, read, rfl, rfl⟩ | ⟨-, _, read, rfl, rfl⟩) <;> exact read
  · intro read
    cases sense with
    | plain => exact .inl ⟨name, read, rfl, rfl⟩
    | inverted =>
      refine .inr ⟨?_, name, read, rfl, rfl⟩
      obtain ⟨-, p, -, rfl⟩ := sectionHeader_eq_some.mp read
      exact map_eq_none.mpr (sectionHeader_eq_none (by decide))

theorem helperTag_eq_some {s r : Text} {n : Node} : helperTag s = some (n, '}' :: r) ↔
    ∃ name f, IsName name ∧ Padded name f ∧
      (n = .helper (.name name) [] ∧ s = '%' :: f ++ '}' :: r ∨
      ∃ v ws t p a, n = .helper (.name name) (v :: ws) ∧ (∀ x ∈ v :: ws, IsValue x) ∧ SpellsValue v t ∧
        Padded t p ∧ SpellsMore ws a ∧ s = '%' :: f ++ ':' :: p ++ a ++ '}' :: r) := by
  have solid {c : Char} (r : Text) (nonblank : Text.isBlank c = false) : Stops Text.isBlank (c :: r) :=
    stops_cons.mpr nonblank
  simp only [helperTag, nameNode, bind_eq_some, map_eq_some, literal_eq_some, blanks_eq_some, pure_eq_some]
  constructor
  · rintro ⟨_, _, ⟨rfl, rfl⟩, _, _, ⟨w, blanks, rfl, -⟩, _, _, ⟨name, read, rfl⟩, _, u,
      ⟨w', blanks', rfl, stops⟩, args, _, read', _, _, ⟨w'', blanks'', rfl, -⟩, rfl, rfl⟩
    obtain ⟨valid, rfl, -⟩ := nameToken_eq_some_iff.mp read
    refine ⟨name, w ++ name ++ w', valid, ⟨w, w', blanks, blanks', rfl⟩, ?_⟩
    rcases orElse_eq_some.mp read' with read' | ⟨-, read'⟩
    · obtain rfl := blanks_eq_nil blanks'' (helperArgs_stops read')
      obtain ⟨v, ws, t, p, a, rfl, valid', value, padded, more, rfl⟩ := helperArgs_eq_some.mp read'
      exact .inr ⟨v, ws, t, p, a, rfl, valid', value, padded, more, by simp⟩
    · obtain ⟨rfl, rfl⟩ := pure_eq_some.mp read'
      obtain rfl := blanks_eq_nil blanks'' stops
      exact .inl ⟨rfl, by simp⟩
  · rintro ⟨name, _, valid, ⟨w, w', blanks, blanks', rfl⟩, whole⟩
    have start (u : Text) : Stops Text.isBlank (name ++ u) := by
      obtain ⟨c, t, rfl, starts⟩ := valid.cons
      exact stops_blank starts
    have named {c : Char} (u : Text) (delimiter : isDelimiter c = true) :
        nameToken (name ++ (w' ++ c :: u)) = some (name, w' ++ c :: u) :=
      (nameToken_eq_some (delimited_blanks blanks' (delimited_cons delimiter))).mpr ⟨valid, rfl⟩
    rcases whole with ⟨rfl, rfl⟩ | ⟨v, ws, t, p, a, rfl, valid', value, padded, more, rfl⟩
    · have none := orElse_eq_some (p := helperArgs) (q := pure []).mpr
        (.inr ⟨helperArgs_eq_none (s := r) (by decide : '}' ≠ ':'), pure_eq_some.mpr ⟨rfl, rfl⟩⟩)
      exact ⟨_, _, ⟨rfl, by simp⟩, (), _, ⟨w, blanks, rfl, start _⟩, _, _, ⟨name, named r (by decide), rfl⟩,
        (), _, ⟨w', blanks', rfl, solid r (by decide)⟩, [], _, none, (), _,
        ⟨[], Node.blanks_nil, rfl, solid r (by decide)⟩, rfl, rfl⟩
    · have read := orElse_eq_some (q := pure []) (t := '}' :: r).mpr
        (.inl (helperArgs_eq_some.mpr ⟨v, ws, t, p, a, rfl, valid', value, padded, more, rfl⟩))
      exact ⟨_, _, ⟨rfl, by simp⟩, (), _, ⟨w, blanks, rfl, start _⟩, _, _, ⟨name, named _ (by decide), rfl⟩,
        (), _, ⟨w', blanks', rfl, solid _ (by decide)⟩, _, _, read, (), _,
        ⟨[], Node.blanks_nil, rfl, solid r (by decide)⟩, rfl, rfl⟩

/-! ### Reading tags -/

theorem literal_openBraces (inner : Text) : literal openBraces (openBraces ++ inner) = some (openBraces, inner) :=
  literal_eq_some.mpr ⟨rfl, rfl⟩

theorem closed_closeBraces (n : Node) (rest : Text) : closed n (closeBraces ++ rest) = .ok (n, rest) := by
  simp [closed]

theorem tag_value {inner rest : Text} {n : Node} (body : BodyReader ε)
    (read : (escapedTag <|> rawTag) inner = some (n, closeBraces ++ rest)) :
    tag body (openBraces ++ inner) = pure (.ok (n, rest)) := by
  rw [tag, literal_openBraces]
  simp only [read, closed_closeBraces]

theorem tag_helper {inner rest : Text} {n : Node} (body : BodyReader ε)
    (read : helperTag inner = some (n, closeBraces ++ rest)) :
    tag body (openBraces ++ inner) = pure (.ok (n, rest)) := by
  obtain ⟨u, rfl⟩ : ∃ u, inner = '%' :: u := by
    obtain ⟨_, u, opened, -⟩ := bind_eq_some.mp read
    exact ⟨u, (literal_eq_some.mp opened).2⟩
  have headless : sectionHead ('%' :: u) = none := by
    refine eq_none_of fun (sense, name) r found => ?_
    rw [sectionHead_eq_some, sectionHeader_eq_none (by cases sense <;> decide)] at found
    cases found
  rw [tag, literal_openBraces]
  simp only [valueTag_eq_none (c := '%') (by decide) (by decide) (by decide), headless, read, closed_closeBraces]

/-- A spelled tag is read as its node, whatever stands behind it. -/
theorem tag_spelled {n : Node} {p : Text} (body : BodyReader ε) (spelled : SpellsTag n p) (valid : IsTag n)
    (rest : Text) : tag body (p ++ rest) = pure (.ok (n, rest)) := by
  cases spelled with
  | escaped value framed =>
    obtain ⟨q, padded, rfl⟩ := framed
    cases valid with
    | escaped valid =>
      have read := valueTag_eq_some (r := rest).mpr (.inl ⟨_, rfl, valid, _, q, value, padded, rfl⟩)
      simpa using tag_value body read
  | unescaped value framed =>
    obtain ⟨q, padded, rfl⟩ := framed
    cases valid with
    | unescaped valid =>
      have read := valueTag_eq_some (r := rest).mpr (.inr ⟨_, rfl, valid, _, q, value, padded, rfl⟩)
      simpa [closeBraces_append] using tag_value body read
  | call framed =>
    obtain ⟨q, padded, rfl⟩ := framed
    cases valid with
    | helper named valid =>
      have read := helperTag_eq_some (r := '}' :: rest).mpr ⟨_, q, named, padded, .inl ⟨rfl, rfl⟩⟩
      simpa [closeBraces_append] using tag_helper body read
  | callWith helper value padded more =>
    cases valid with
    | helper named valid =>
      have read := helperTag_eq_some (r := '}' :: rest).mpr
        ⟨_, _, named, helper, .inr ⟨_, _, _, _, _, rfl, valid, value, padded, more, rfl⟩⟩
      simpa [closeBraces_append] using tag_helper body read

/-- A section hands over its body, up to the first end marker of its name, and the length of what follows. -/
theorem tag_section {sense : Sense} {name head b foot rest : Text} (body : BodyReader ε) (named : IsName name)
    (opened : Framed [sense.sigil] name head) (ended : Framed ['/'] name foot)
    (first : Nowhere (Marked name) b (foot ++ rest)) :
    tag body (head ++ b ++ foot ++ rest) = body b (foot ++ rest).length >>= fun read => pure (match read with
      | none => .error .refused
      | some nodes => .ok (.block sense (.name name) nodes, rest)) := by
  obtain ⟨q, padded, rfl⟩ := opened
  have headed : sectionHead (sense.sigil :: q ++ closeBraces ++ (b ++ (foot ++ rest))) =
      some ((sense, name), b ++ (foot ++ rest)) :=
    sectionHead_eq_some.mpr (sectionHeader_eq_some.mpr ⟨named, q, padded, rfl⟩)
  have found := findEnd_eq_some.mpr ⟨rfl, first, endMarker_eq_some.mpr ⟨foot, rest, ended, rfl, rfl⟩⟩
  have valueless : (escapedTag <|> rawTag) (sense.sigil :: q ++ closeBraces ++ (b ++ (foot ++ rest))) = none :=
    valueTag_eq_none (by cases sense <;> decide) (by cases sense <;> decide) (by cases sense <;> decide)
  have shape : openBraces ++ [sense.sigil] ++ q ++ closeBraces ++ b ++ foot ++ rest =
      openBraces ++ (sense.sigil :: q ++ closeBraces ++ (b ++ (foot ++ rest))) := by simp
  rw [shape, tag, literal_openBraces]
  simp only [valueless, headed, found, closed_closeBraces]
  congr 1
  funext read
  cases read <;> rfl

/-- What a text turns out to be when a tag is tried at its start. -/
inductive TagCase : Text → Prop
  | spelled {n : Node} {p : Text} (rest : Text) (spelled : SpellsTag n p) (valid : IsTag n) : TagCase (p ++ rest)
  | section {sense : Sense} {name head b foot rest : Text} (named : IsName name)
      (opened : Framed [sense.sigil] name head) (ended : Framed ['/'] name foot)
      (first : Nowhere (Marked name) b (foot ++ rest)) : TagCase (head ++ b ++ foot ++ rest)
  | faulty {s : Text} {cause : TagFault}
      (stuck : ∀ {ε : Type} (body : BodyReader ε), tag body s = pure (.error cause)) : TagCase s

theorem tag_cases_value {inner u : Text} {n : Node} (read : (escapedTag <|> rawTag) inner = some (n, u)) :
    TagCase (openBraces ++ inner) := by
  cases closes : Text.after? closeBraces u with
  | none =>
    refine @TagCase.faulty _ .malformed fun {ε} body => ?_
    rw [tag, literal_openBraces]
    simp only [read, closed, closes]
  | some rest =>
    obtain rfl := Text.after?_eq_some.mp closes
    rcases valueTag_eq_some.mp read with ⟨v, rfl, valid, t, q, value, padded, rfl⟩ |
      ⟨v, rfl, valid, t, q, value, padded, rfl⟩
    · simpa using TagCase.spelled rest (.escaped value ⟨q, padded, rfl⟩) (.escaped valid)
    · simpa [closeBraces_append] using
        TagCase.spelled rest (.unescaped value ⟨q, padded, rfl⟩) (.unescaped valid)

theorem tag_cases_section {inner u name : Text} {sense : Sense} (valueless : (escapedTag <|> rawTag) inner = none)
    (headed : sectionHead inner = some ((sense, name), u)) : TagCase (openBraces ++ inner) := by
  obtain ⟨named, q, padded, rfl⟩ := sectionHeader_eq_some.mp (sectionHead_eq_some.mp headed)
  cases found : findEnd name u with
  | none =>
    refine @TagCase.faulty _ (.unterminated name) fun {ε} body => ?_
    rw [tag, literal_openBraces]
    simp only [valueless, headed, found]
  | some e =>
    obtain ⟨b, m, d⟩ := e
    obtain ⟨rfl, first, marked⟩ := findEnd_eq_some.mp found
    obtain ⟨foot, rest, ended, rfl, -⟩ := endMarker_eq_some.mp marked
    simpa using TagCase.section named ⟨q, padded, rfl⟩ ended first

theorem tag_cases_helper {inner u : Text} {n : Node} (valueless : (escapedTag <|> rawTag) inner = none)
    (headless : sectionHead inner = none) (read : helperTag inner = some (n, u)) :
    TagCase (openBraces ++ inner) := by
  cases closes : Text.after? closeBraces u with
  | none =>
    refine @TagCase.faulty _ .malformed fun {ε} body => ?_
    rw [tag, literal_openBraces]
    simp only [valueless, headless, read, closed, closes]
  | some rest =>
    obtain rfl := Text.after?_eq_some.mp closes
    obtain ⟨name, f, named, helper, ⟨rfl, rfl⟩ | ⟨v, ws, t, p, a, rfl, valid, value, padded, more, rfl⟩⟩ :=
      helperTag_eq_some.mp read
    · simpa [closeBraces_append] using
        TagCase.spelled rest (.call ⟨f, helper, rfl⟩) (.helper named (List.forall_mem_nil _))
    · simpa [closeBraces_append] using
        TagCase.spelled rest (.callWith helper value padded more) (.helper named valid)

/-- A tag is spelled, or a section with its end marker, or fails whatever reads the bodies. -/
theorem tag_cases (s : Text) : TagCase s := by
  cases opened : literal openBraces s with
  | none =>
    refine @TagCase.faulty _ .malformed fun {ε} body => ?_
    rw [tag, opened]
  | some read =>
    obtain ⟨_, inner⟩ := read
    obtain ⟨rfl, rfl⟩ := literal_eq_some.mp opened
    cases value : (escapedTag <|> rawTag) inner with
    | some read => exact tag_cases_value value
    | none =>
      cases head : sectionHead inner with
      | some read => exact tag_cases_section value head
      | none =>
        cases call : helperTag inner with
        | some read => exact tag_cases_helper value head call
        | none =>
          refine @TagCase.faulty _ .malformed fun {ε} body => ?_
          rw [tag, opened]
          simp only [value, head, call]

end Stencil.Grammar
