import Mathlib.Algebra.Group.Nat.Defs
import Stencil.Text.Digit

/-!
# What digits denote

A run of digits denotes a number, in which each digit counts by its place and the script has no say:
`ofDigits_values` says that reading digit by digit gives it. `isNumeral_toDigits` says that each number has a numeral
in the digits 0 to 9 without a zero in front.
-/

namespace Stencil.Text

/-- What the digit is worth; nothing for any other character. -/
def worth (c : Char) : Nat := (digitValue? c).getD 0

/-- The number that a run of digits denotes. -/
def number : Text → Nat
  | [] => 0
  | c :: s => worth c * 10 ^ s.length + number s

/-- The text denotes the number, in the digits 0 to 9 and without a zero in front. -/
structure IsNumeral (n : Nat) (t : Text) : Prop where
  nonempty : t ≠ []
  ascii : ∀ c ∈ t, c.isDigit = true
  leading : t.head? = some '0' → t = ['0']
  denotes : number t = n

/-! ### Reading digits -/

theorem worth_lt (c : Char) : worth c < 10 := by
  unfold worth
  cases value : digitValue? c with
  | none => decide
  | some d => exact digitValue?_lt value

theorem number_lt (s : Text) : number s < 10 ^ s.length := by
  induction s with
  | nil => decide
  | cons c s ih =>
    have digit := worth_lt c
    calc number (c :: s) = worth c * 10 ^ s.length + number s := rfl
      _ < worth c * 10 ^ s.length + 10 ^ s.length := Nat.add_lt_add_left ih _
      _ = (worth c + 1) * 10 ^ s.length := (Nat.succ_mul _ _).symm
      _ ≤ 10 * 10 ^ s.length := Nat.mul_le_mul_right _ digit
      _ = 10 ^ (c :: s).length := (Nat.pow_succ').symm

theorem number_append (s t : Text) : number (s ++ t) = number s * 10 ^ t.length + number t := by
  induction s with
  | nil => simp [number]
  | cons c s ih =>
    rw [List.cons_append, number, ih, number, List.length_append, Nat.pow_add]
    rw [Nat.add_mul, Nat.mul_assoc, Nat.add_assoc]

/-- Reading from the first digit on multiplies what was read by ten before each digit. -/
theorem ofDigits_values (ds : Text) : ofDigits 10 (ds.map worth) = number ds := by
  have run (ds : Text) (n : Nat) : (ds.map worth).foldl (10 * · + ·) n = n * 10 ^ ds.length + number ds := by
    induction ds generalizing n with
    | nil => simp [number]
    | cons c s ih =>
      rw [List.map_cons, List.foldl_cons, ih, number, List.length_cons, Nat.pow_succ', Nat.add_mul, Nat.add_assoc]
      rw [Nat.mul_comm 10 n, Nat.mul_assoc]
  rw [ofDigits, run, Nat.zero_mul, Nat.zero_add]

/-! ### Numerals -/

theorem worth_digitChar {d : Nat} (small : d < 10) : worth (Nat.digitChar d) = d := by
  have all : ∀ d < 10, worth (Nat.digitChar d) = d := by decide
  exact all d small

theorem number_toDigits (n : Nat) : number (Nat.toDigits 10 n) = n := by
  induction n using Nat.strongRecOn with
  | ind n ih =>
  by_cases small : n < 10
  · rw [Nat.toDigits_of_lt_base small]
    simp [number, worth_digitChar small]
  · have last : n % 10 < 10 := Nat.mod_lt _ (by decide)
    rw [Nat.toDigits_of_base_le (by decide) (by omega), number_append, ih (n / 10) (by omega)]
    simp only [number, worth_digitChar last, List.length_cons, List.length_nil]
    omega

theorem toDigits_leading (n : Nat) (zero : (Nat.toDigits 10 n).head? = some '0') : Nat.toDigits 10 n = ['0'] := by
  induction n using Nat.strongRecOn with
  | ind n ih =>
  by_cases small : n < 10
  · rw [Nat.toDigits_of_lt_base small] at zero ⊢
    simpa using zero
  · have split := Nat.toDigits_of_base_le (b := 10) (n := n) (by decide) (by omega)
    have front : (Nat.toDigits 10 (n / 10)).head? = some '0' := by
      rw [split, List.head?_append] at zero
      cases parts : Nat.toDigits 10 (n / 10) with
      | nil => exact absurd parts Nat.toDigits_ne_nil
      | cons c s => rwa [parts] at zero
    -- What stands before the last digit denotes a number that is not zero.
    have whole := number_toDigits (n / 10)
    rw [ih (n / 10) (by omega) front] at whole
    have none : n / 10 = 0 := whole.symm.trans (by decide)
    omega

theorem isNumeral_toDigits (n : Nat) : IsNumeral n (Nat.toDigits 10 n) where
  nonempty := Nat.toDigits_ne_nil
  ascii _ member := Nat.isDigit_of_mem_toDigits (by decide) (by decide) member
  leading := toDigits_leading n
  denotes := number_toDigits n

end Stencil.Text
