import Stencil.Grammar.EndMarker
import Stencil.Grammar.Token
import Stencil.Traced

/-!
# Tags

The rules for what stands between double braces. A tag is tried as an escaped value, a raw value, a section
and a helper call, in this order. The body of a section is handed to a reader, which may refuse it.
`tag_ok` says that a tag that is read leaves a shorter suffix.
-/

namespace Stencil.Grammar

open Stencil.Parser

/-! ### Values -/

def nameNode : Parser Node := Node.name <$> nameToken

def primitiveNode : Parser Node := Node.primitive <$> literalToken

/-- A literal or a name; words that are literals are no names. -/
def valueNode : Parser Node := primitiveNode <|> nameNode

def value : Parser Node := do
  blanks
  let v ← valueNode
  blanks
  return v

def escapedTag : Parser Node := Node.escaped <$> value

def rawTag : Parser Node := do
  let _ ← literal ['{']
  let v ← value
  let _ ← literal ['}']
  return .unescaped v

/-! ### Helper calls -/

def moreArgs : Parser (List Node) := repeated (do let _ ← literal [',']; value)

def helperArgs : Parser (List Node) := do
  let _ ← literal [':']
  let v ← value
  let vs ← moreArgs
  blanks
  return v :: vs

def helperTag : Parser Node := do
  let _ ← literal ['%']
  blanks
  let name ← nameNode
  blanks
  let args ← helperArgs <|> pure []
  blanks
  return .helper name args

/-! ### Sections -/

/-- The opening tag of a section behind its opening braces; yields the name. -/
def sectionHeader (sense : Sense) : Parser Text := do
  let _ ← literal [sense.sigil]
  blanks
  let name ← nameToken
  blanks
  let _ ← literal closeBraces
  return name

def sectionHead : Parser (Sense × Text) :=
  ((Sense.plain, ·) <$> sectionHeader .plain) <|> ((Sense.inverted, ·) <$> sectionHeader .inverted)

def sectionOpener : Parser Text := do
  let _ ← literal openBraces
  (·.2) <$> sectionHead

/-! ### Tags -/

inductive TagFault where
  | malformed
  | unterminated (name : Text)
  | refused
deriving DecidableEq

/-- Reads the body of a section, given the length of the text behind it. -/
abbrev BodyReader (ε : Type) := Text → Nat → Traced ε (Option (List Node))

/-- The node of a tag whose closing braces come next. -/
def closed (n : Node) (s : Text) : Except TagFault (Node × Text) :=
  match Text.after? closeBraces s with
  | some rest => .ok (n, rest)
  | none => .error .malformed

def tag {ε : Type} (body : BodyReader ε) (s : Text) : Traced ε (Except TagFault (Node × Text)) :=
  match literal openBraces s with
  | none => pure (.error .malformed)
  | some (_, inner) =>
    match (escapedTag <|> rawTag) inner with
    | some (n, rest) => pure (closed n rest)
    | none =>
      match sectionHead inner with
      | some ((sense, name), rest) =>
        match findEnd name rest with
        | none => pure (.error (.unterminated name))
        | some e => do
          match ← body e.body e.marker.length with
          | none => return .error .refused
          | some nodes => return closed (.block sense (.name name) nodes) e.closing
      | none =>
        match helperTag inner with
        | some (n, rest) => pure (closed n rest)
        | none => pure (.error .malformed)

/-! ### What tags leave -/

theorem suffixing_value : Suffixing value :=
  suffixing_bind suffixing_blanks fun _ =>
    suffixing_bind
      (suffixing_orElse (suffixing_map suffixing_literalToken) (suffixing_map suffixing_nameToken))
      fun _ => suffixing_bind suffixing_blanks fun _ => suffixing_pure _

theorem suffixing_valueTag : Suffixing (escapedTag <|> rawTag) :=
  suffixing_orElse (suffixing_map suffixing_value) <|
    suffixing_bind (suffixing_literal _) fun _ => suffixing_bind suffixing_value fun _ =>
      suffixing_bind (suffixing_literal _) fun _ => suffixing_pure _

theorem suffixing_moreArgs : Suffixing moreArgs :=
  suffixing_repeated (suffixing_bind (suffixing_literal _) fun _ => suffixing_value)

theorem suffixing_helperArgs : Suffixing helperArgs :=
  suffixing_bind (suffixing_literal _) fun _ => suffixing_bind suffixing_value fun _ =>
    suffixing_bind suffixing_moreArgs fun _ => suffixing_bind suffixing_blanks fun _ => suffixing_pure _

theorem suffixing_helperTag : Suffixing helperTag :=
  suffixing_bind (suffixing_literal _) fun _ => suffixing_bind suffixing_blanks fun _ =>
    suffixing_bind (suffixing_map suffixing_nameToken) fun _ => suffixing_bind suffixing_blanks fun _ =>
      suffixing_bind (suffixing_orElse suffixing_helperArgs (suffixing_pure _)) fun _ =>
        suffixing_bind suffixing_blanks fun _ => suffixing_pure _

theorem suffixing_sectionHeader (sense : Sense) : Suffixing (sectionHeader sense) :=
  suffixing_bind (suffixing_literal _) fun _ => suffixing_bind suffixing_blanks fun _ =>
    suffixing_bind suffixing_nameToken fun _ => suffixing_bind suffixing_blanks fun _ =>
      suffixing_bind (suffixing_literal _) fun _ => suffixing_pure _

theorem suffixing_sectionHead : Suffixing sectionHead :=
  suffixing_orElse (suffixing_map (suffixing_sectionHeader _)) (suffixing_map (suffixing_sectionHeader _))

theorem closed_ok {n m : Node} {s rest : Text} (h : closed n s = .ok (m, rest)) :
    m = n ∧ s = closeBraces ++ rest := by
  unfold closed at h
  split at h
  · next r hr => cases h; exact ⟨rfl, Text.after?_eq_some.1 hr⟩
  · cases h

/-- A tag that is read takes at least the opening and the closing braces away. -/
theorem tag_ok {ε : Type} {body : BodyReader ε} {s rest : Text} {n : Node}
    (h : (tag body s).result = .ok (n, rest)) : rest <:+ s ∧ rest.length < s.length := by
  have done {inner t : Text} (hs : s = openBraces ++ inner) (ht : t <:+ inner)
      (hc : t = closeBraces ++ rest) : rest <:+ s ∧ rest.length < s.length := by
    have hsuf : rest <:+ inner := (hc ▸ List.suffix_append _ _ : rest <:+ t).trans ht
    refine ⟨hs ▸ hsuf.trans (List.suffix_append _ _), ?_⟩
    have := hsuf.length_le
    rw [hs, List.length_append]
    simp only [openBraces, List.length_cons, List.length_nil]
    omega
  unfold tag at h
  split at h
  · cases h
  · next inner hopen =>
    obtain ⟨-, hs⟩ := literal_eq_some.1 hopen
    split at h
    · next hv => exact done hs (suffixing_valueTag hv) (closed_ok h).2
    · split at h
      · next hh =>
        split at h
        · cases h
        · next e he =>
          have hsuf := (findEnd_closing_suffix he).trans (suffixing_sectionHead hh)
          simp only [Traced.result_bind] at h
          split at h
          · cases h
          · exact done hs hsuf (closed_ok h).2
      · split at h
        · next hp => exact done hs (suffixing_helperTag hp) (closed_ok h).2
        · cases h

end Stencil.Grammar
