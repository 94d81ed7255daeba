/-!
# Binary floats, exactly

A finite float is a whole number times a power of two. `Binary.ofFloat` takes a float apart and
`nearest` finds the float nearest to a fraction, both in whole numbers only.
-/

namespace Stencil.Decimal

/-- What a float is: the finite ones are `significand * 2 ^ exponent`. -/
inductive Binary where
  | nan
  | infinite (negative : Bool)
  | finite (negative : Bool) (significand : Nat) (exponent : Int)
deriving DecidableEq

/-- Exponent of the last place of the smallest floats. -/
def leastExponent : Int := -1074

def Binary.ofFloat (x : Float) : Binary :=
  let n := x.toBits.toNat
  let negative := decide (Nat.pow 2 63 ≤ n)
  let exponent : Nat := n / Nat.pow 2 52 % Nat.pow 2 11
  let fraction : Nat := n % Nat.pow 2 52
  if exponent = 2047 then
    if fraction = 0 then .infinite negative else .nan
  else if exponent = 0 then .finite negative fraction leastExponent
  else .finite negative (Nat.pow 2 52 + fraction) ((exponent : Int) - 1 + leastExponent)

def Binary.toInt? : Binary → Option Int
  | .finite negative m q =>
    let signed (n : Nat) : Int := if negative then -n else n
    if 0 ≤ q then some (signed (m * Nat.pow 2 q.toNat))
    else if m % Nat.pow 2 (-q).toNat = 0 then some (signed (m / Nat.pow 2 (-q).toNat))
    else none
  | _ => none

/-- The whole number nearest to `num / den`; a tie goes to the even one. -/
def roundHalfEven (num den : Nat) : Nat :=
  let t := num / den
  let r := num % den
  if 2 * r < den then t else if den < 2 * r then t + 1 else t + t % 2

def scaled (num den : Nat) (q : Int) : Nat × Nat :=
  if 0 ≤ q then (num, den * Nat.pow 2 q.toNat) else (num * Nat.pow 2 (-q).toNat, den)

/-- The bits of the float nearest to the positive fraction `num / den`. A significand that rounds up
to `2 ^ 53` carries into the exponent, and past the largest float it gives the bits of infinity. -/
def nearestBits (num den : Nat) : Nat :=
  let guess : Int := num.log2 - den.log2 - 52
  let (n, d) := scaled num den guess
  let q := max (if n < d * Nat.pow 2 52 then guess - 1 else guess) leastExponent
  let (n, d) := scaled num den q
  min ((q - leastExponent).toNat * Nat.pow 2 52 + roundHalfEven n d) (0x7FF * Nat.pow 2 52)

/-- Decimal exponents past this one leave the range of the floats. -/
def farExponent : Int := 400

def nearest (negative : Bool) (coefficient : Nat) (exponent : Int) : Float :=
  let bits :=
    if coefficient = 0 ∨ exponent + coefficient.log2 < -farExponent then 0
    else if farExponent < exponent then 0x7FF * Nat.pow 2 52
    else if 0 ≤ exponent then nearestBits (coefficient * Nat.pow 10 exponent.toNat) 1
    else nearestBits coefficient (Nat.pow 10 (-exponent).toNat)
  Float.ofBits (.ofNat (bits + if negative then Nat.pow 2 63 else 0))

end Stencil.Decimal
