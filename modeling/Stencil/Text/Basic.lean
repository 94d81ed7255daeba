/-!
# Texts

A text is the list of its characters, so offsets and lengths count characters.
-/

namespace Stencil

abbrev Text := List Char

namespace Text

/-- The pieces of a text between the places where `sep` stands. -/
def split (sep : Char) : Text → List Text
  | [] => [[]]
  | c :: s =>
    if c = sep then [] :: split sep s
    else match split sep s with
      | [] => [[c]]
      | p :: ps => (c :: p) :: ps

/-- The pieces with `sep` written between neighbours. -/
def join (sep : Text) : List Text → Text
  | [] => []
  | [p] => p
  | p :: ps => p ++ sep ++ join sep ps

def cut? (sep : Char) : Text → Option (Text × Text)
  | [] => none
  | c :: s => if c = sep then some ([], s) else (cut? sep s).map fun (a, b) => (c :: a, b)

/-- What follows `t` at the start of a text. -/
def after? : (t : Text) → Text → Option Text
  | [], s => some s
  | _ :: _, [] => none
  | c :: t, d :: s => if c = d then after? t s else none

theorem after?_eq_some {t s r : Text} : after? t s = some r ↔ s = t ++ r := by
  fun_induction after? t s with
  | case1 => simp [eq_comm]
  | case2 => simp
  | case3 c t s ih => simp [ih]
  | case4 c t d s h => simp [Ne.symm h]

@[simp] theorem after?_append (t r : Text) : after? t (t ++ r) = some r := after?_eq_some.2 rfl

theorem split_ne_nil (sep : Char) (s : Text) : split sep s ≠ [] := by
  cases s with
  | nil => simp [split]
  | cons c s => unfold split; split <;> (try split) <;> simp

theorem isAlpha_iff {c : Char} : c.isAlpha = true ↔
    (0x41 ≤ c.toNat ∧ c.toNat ≤ 0x5A) ∨ (0x61 ≤ c.toNat ∧ c.toNat ≤ 0x7A) := by
  have upper : c.isUpper = decide ('A'.val ≤ c.val ∧ c.val ≤ 'Z'.val) := rfl
  have lower : c.isLower = (decide ('a'.val ≤ c.val) && decide (c.val ≤ 'z'.val)) := rfl
  have letter : c.isAlpha = (c.isUpper || c.isLower) := rfl
  rw [letter, upper, lower]
  simp [UInt32.le_iff_toNat_le]

end Text

end Stencil
