import Stencil.Value.Basic

/-!
# Literals

The value of a literal token. Strings lose their quotes and nothing else, which `decodeLiteral_quoted`
states; digits make a whole number, and a point makes it a float.
-/

namespace Stencil

/-- The text between two equal quotes that a token begins and ends with. -/
def unquote? (token : Text) : Option Text :=
  match token with
  | q :: rest =>
    if (q = '\'' || q = '"') && rest.getLast? = some q then some rest.dropLast else none
  | [] => none

def decodeLiteral (token : Text) : Except NumeralFault Value :=
  if token = "true".toList then .ok (.bool true)
  else if token = "false".toList then .ok (.bool false)
  else match unquote? token with
    | some s => .ok (.str s)
    | none =>
      if token.contains '.' then .float <$> Numeral.readFloat token
      else .int <$> Numeral.readInt 10 token

theorem decodeLiteral_quoted {q : Char} (hq : q = '\'' ∨ q = '"') (w : Text) :
    decodeLiteral (q :: w ++ [q]) = .ok (.str w) := by
  have hu : unquote? (q :: w ++ [q]) = some w := by
    rcases hq with rfl | rfl <;> simp [unquote?]
  have hne (t : Text) (ht : t.head? ≠ some q) : q :: w ++ [q] ≠ t := by
    rintro rfl
    exact ht rfl
  have h1 := hne "true".toList (by rcases hq with rfl | rfl <;> decide)
  have h2 := hne "false".toList (by rcases hq with rfl | rfl <;> decide)
  unfold decodeLiteral
  rw [if_neg h1, if_neg h2, hu]

end Stencil
