import Stencil.Decimal.Shortest

/-!
# Floats as text

A float is written with the digits of its shortest decimal. A `Layout` says from which exponents on an
exponent is written out; `standard` is the one that texts use.
-/

namespace Stencil.Decimal

/-- Decimals whose leading digit has an exponent from `low` to `high` are written without one; `places`
is the least number of digits of a written exponent. -/
structure Layout where
  low : Int
  high : Int
  places : Nat

/-- Numbers from 0.0001 up to 10 to the 16th, exclusive, have no exponent; exponents have two digits. -/
def standard : Layout := ⟨-4, 15, 2⟩

/-- The decimal with these digits whose leading digit has exponent `e`. -/
def Layout.write (layout : Layout) (digits : List Char) (e : Int) : List Char :=
  if layout.low ≤ e ∧ e ≤ layout.high then
    if 0 ≤ e then
      let whole := digits.take (e.toNat + 1)
      let fraction := digits.drop (e.toNat + 1)
      whole ++ List.replicate (e.toNat + 1 - whole.length) '0' ++ '.' ::
        (if fraction.isEmpty then ['0'] else fraction)
    else '0' :: '.' :: List.replicate (-e - 1).toNat '0' ++ digits
  else
    let fraction := digits.drop 1
    let exponent := Nat.toDigits 10 e.natAbs
    digits.take 1 ++ (if fraction.isEmpty then [] else '.' :: fraction) ++
      ['e', if e < 0 then '-' else '+'] ++ List.replicate (layout.places - exponent.length) '0' ++ exponent

def writeFloat (x : Float) : List Char :=
  let signed (negative : Bool) (s : List Char) := if negative then '-' :: s else s
  match Binary.ofFloat x with
  | .nan => "nan".toList
  | .infinite negative => signed negative "inf".toList
  | .finite negative 0 _ => signed negative "0.0".toList
  | .finite negative m q =>
    let (digits, e) := shortest m q
    signed negative (standard.write digits e)

end Stencil.Decimal
