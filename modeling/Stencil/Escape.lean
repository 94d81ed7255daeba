import Stencil.Text.Basic

/-!
# Escaping for HTML

Characters that could open markup or end an attribute are written as entities. `escapeHtml_append` says that
texts are escaped piece by piece.
-/

namespace Stencil

/-- The entity of a character that is not safe in HTML. -/
def entity? (c : Char) : Option Text :=
  match c with
  | '&' => some "&amp;".toList
  | '<' => some "&lt;".toList
  | '>' => some "&gt;".toList
  | '"' => some "&quot;".toList
  | '\'' => some "&#39;".toList
  | '/' => some "&#x2F;".toList
  | '\x60' => some "&#x60;".toList
  | '=' => some "&#x3D;".toList
  | _ => none

def escapeHtml (s : Text) : Text := s.flatMap fun c => (entity? c).getD [c]

theorem escapeHtml_append (s t : Text) : escapeHtml (s ++ t) = escapeHtml s ++ escapeHtml t := by
  simp [escapeHtml]

end Stencil
