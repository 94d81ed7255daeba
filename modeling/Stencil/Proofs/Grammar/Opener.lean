import Stencil.Proofs.Grammar.Tag

/-!
# Openers of sections

How a tag fails is seen from the text alone: whether it begins with the opener of a section, and whether an end
marker of that name stands behind. `tag_headless`, `tag_endless` and `tag_ended` are the three cases.
-/

namespace Stencil.Grammar

open Stencil.Parser
open Node (Framed)

variable {ε : Type}

/-- The text begins with the opener of a section of the name, and `rest` stands behind it. -/
def Heads (name s rest : Text) : Prop :=
  ∃ (sense : Sense) (head : Text), IsName name ∧ Framed [sense.sigil] name head ∧ s = head ++ rest

/-- An end marker of the name stands somewhere in the text. -/
def Ends (name s : Text) : Prop := ∃ before foot behind, Framed ['/'] name foot ∧ s = before ++ foot ++ behind

theorem heads_iff {name s rest : Text} : Heads name s rest ↔
    ∃ sense inner, s = openBraces ++ inner ∧ sectionHead inner = some ((sense, name), rest) := by
  constructor
  · intro heads
    obtain ⟨sense, _, named, ⟨p, padded, rfl⟩, rfl⟩ := heads
    refine ⟨sense, sense.sigil :: p ++ closeBraces ++ rest, by simp, ?_⟩
    exact sectionHead_eq_some.mpr (sectionHeader_eq_some.mpr ⟨named, p, padded, rfl⟩)
  · intro headed
    obtain ⟨sense, inner, rfl, headed⟩ := headed
    obtain ⟨named, p, padded, rfl⟩ := sectionHeader_eq_some.mp (sectionHead_eq_some.mp headed)
    exact ⟨sense, _, named, ⟨p, padded, rfl⟩, by simp⟩

/-- The parser for openers alone recognizes them as the one for sections does. -/
theorem sectionOpener_eq_some {name s rest : Text} : sectionOpener s = some (name, rest) ↔ Heads name s rest := by
  simp only [heads_iff, sectionOpener, bind_eq_some, literal_eq_some, map_eq_some]
  constructor
  · intro read
    obtain ⟨_, inner, ⟨rfl, rfl⟩, ⟨sense, _⟩, headed, rfl⟩ := read
    exact ⟨sense, inner, rfl, headed⟩
  · intro headed
    obtain ⟨sense, inner, rfl, headed⟩ := headed
    exact ⟨_, inner, ⟨rfl, rfl⟩, (sense, name), headed, rfl⟩

theorem Heads.unique {m n s r u : Text} (heads : Heads m s r) (heads' : Heads n s u) : m = n ∧ r = u := by
  have read := sectionOpener_eq_some.mpr heads
  rw [sectionOpener_eq_some.mpr heads'] at read
  obtain ⟨rfl, rfl⟩ := Prod.mk.inj (Option.some.inj read)
  exact ⟨rfl, rfl⟩

theorem ends_iff {name s : Text} : Ends name s ↔ findEnd name s ≠ none := by
  constructor
  · intro ends none
    obtain ⟨before, foot, behind, framed, rfl⟩ := ends
    rw [List.append_assoc, findEnd_eq_none, nowhere_append] at none
    have marked : Marked name (foot ++ behind) := marked_iff.mpr ⟨foot, behind, framed, rfl⟩
    obtain ⟨p, -, rfl⟩ := framed
    exact none.2.1 (by rwa [List.append_nil])
  · intro some
    obtain ⟨⟨before, marker, closing⟩, found⟩ := Option.ne_none_iff_exists'.mp some
    obtain ⟨rfl, -, marked⟩ := findEnd_eq_some.mp found
    obtain ⟨foot, behind, framed, rfl, -⟩ := endMarker_eq_some.mp marked
    exact ⟨before, foot, behind, framed, (List.append_assoc _ _ _).symm⟩

/-! ### Tags that fail -/

theorem valueTag_headed {sense : Sense} {name inner rest : Text}
    (headed : sectionHead inner = some ((sense, name), rest)) : (escapedTag <|> rawTag) inner = none := by
  obtain ⟨-, p, -, rfl⟩ := sectionHeader_eq_some.mp (sectionHead_eq_some.mp headed)
  apply valueTag_eq_none
  · cases sense <;> decide
  · cases sense <;> decide
  · cases sense <;> decide

theorem helperTag_headed {sense : Sense} {name inner rest : Text}
    (headed : sectionHead inner = some ((sense, name), rest)) : helperTag inner = none := by
  obtain ⟨-, p, -, rfl⟩ := sectionHeader_eq_some.mp (sectionHead_eq_some.mp headed)
  exact literal_bind_eq_none (by cases sense <;> decide)

theorem tag_endless {name s rest : Text} (body : BodyReader ε) (heads : Heads name s rest)
    (endless : ¬ Ends name rest) : tag body s = pure (.error (.unterminated name)) := by
  obtain ⟨sense, inner, rfl, headed⟩ := heads_iff.mp heads
  have none : findEnd name rest = none := Classical.byContradiction fun some => endless (ends_iff.mpr some)
  rw [tag, literal_openBraces]
  simp only [valueTag_headed headed, headed, none]

/-- A section goes up to the first end marker of its name, if there is one. -/
theorem Heads.divided {name s rest : Text} (heads : Heads name s rest) (ends : Ends name rest) :
    ∃ (sense : Sense) (head b foot behind : Text), IsName name ∧ Framed [sense.sigil] name head ∧
      Framed ['/'] name foot ∧ Nowhere (Marked name) b (foot ++ behind) ∧ s = head ++ b ++ foot ++ behind := by
  obtain ⟨sense, head, named, opened, rfl⟩ := heads
  obtain ⟨⟨b, marker, closing⟩, found⟩ := Option.ne_none_iff_exists'.mp (ends_iff.mp ends)
  obtain ⟨rfl, first, marked⟩ := findEnd_eq_some.mp found
  obtain ⟨foot, behind, ended, rfl, -⟩ := endMarker_eq_some.mp marked
  exact ⟨sense, head, b, foot, behind, named, opened, ended, first, by simp⟩

/-- A section with its end marker fails if its body is refused, and in no other way. -/
theorem tag_ended {name s rest : Text} (body : BodyReader ε) (heads : Heads name s rest) (ends : Ends name rest) :
    ∃ sense b after behind, tag body s = body b after >>= fun read => pure (match read with
      | none => .error .refused
      | some nodes => .ok (.block sense (.name name) nodes, behind)) := by
  obtain ⟨sense, head, b, foot, behind, named, opened, ended, first, rfl⟩ := heads.divided ends
  exact ⟨sense, b, (foot ++ behind).length, behind, tag_section body named opened ended first⟩

theorem tag_headless {s : Text} {body : BodyReader ε} {cause : TagFault}
    (headless : ∀ name rest, ¬ Heads name s rest) (failed : tag body s = pure (.error cause)) :
    cause = .malformed := by
  have unclosed {n : Node} {u : Text} (result : closed n u = .error cause) : cause = .malformed := by
    unfold closed at result
    split at result
    · cases result
    · exact (Except.error.inj result).symm
  have result := congrArg Traced.result failed
  rw [Traced.result_pure] at result
  unfold tag at result
  split at result
  · exact (Except.error.inj result).symm
  · next inner opened =>
    obtain ⟨-, rfl⟩ := literal_eq_some.mp opened
    split at result
    · exact unclosed result
    · split at result
      · next headed => exact absurd (heads_iff.mpr ⟨_, inner, rfl, headed⟩) (headless _ _)
      · split at result
        · exact unclosed result
        · exact (Except.error.inj result).symm

theorem tag_malformed {ε' : Type} {s : Text} {body : BodyReader ε} {cause : TagFault}
    (headless : ∀ name rest, ¬ Heads name s rest) (failed : tag body s = pure (.error cause))
    (body' : BodyReader ε') : tag body' s = pure (.error .malformed) := by
  cases tag_cases s with
  | spelled rest spelled valid =>
    rw [tag_spelled body spelled valid rest] at failed
    cases congrArg Traced.result failed
  | @«section» sense name head b foot rest named opened ended first =>
    exact absurd ⟨sense, head, named, opened, by simp⟩ (headless name (b ++ (foot ++ rest)))
  | faulty stuck =>
    obtain rfl := tag_headless headless (stuck body)
    exact stuck body'

end Stencil.Grammar
