import Stencil.Decimal.Binary

/-!
# The shortest decimal of a float

A float stands for all the reals that round to it. `shortest` gives the decimal with the fewest digits
among them, and of two with equally few the nearer one.
-/

namespace Stencil.Decimal

/-- The reals that round to a float, as three numerators over one denominator. -/
structure Interval where
  low : Nat
  middle : Nat
  high : Nat
  unit : Nat
  /-- Whether the two ends belong to it. -/
  closed : Bool

/-- The interval of `m * 2 ^ q`. Below a power of two the floats lie twice as close. -/
def Interval.ofBinary (m : Nat) (q : Int) : Interval :=
  let below := if m = Nat.pow 2 52 ∧ leastExponent < q then 1 else 2
  let (scale, unit) := if 2 ≤ q then (Nat.pow 2 (q - 2).toNat, 1) else (1, Nat.pow 2 (2 - q).toNat)
  { low := (4 * m - below) * scale
    middle := 4 * m * scale
    high := (4 * m + 2) * scale
    unit
    closed := m % 2 = 0 }

def Interval.onGrid (i : Interval) (k : Int) : Interval :=
  if 0 ≤ k then { i with unit := i.unit * Nat.pow 10 k.toNat }
  else
    let scale := Nat.pow 10 (-k).toNat
    { i with low := i.low * scale, middle := i.middle * scale, high := i.high * scale }

def Interval.holds (i : Interval) (c : Nat) : Bool :=
  let n := c * i.unit
  (i.low < n && n < i.high) || (i.closed && (n = i.low || n = i.high))

/-- The count of units in the interval nearest to its middle, if there is one; a tie goes to the even
count. Below a power of two the nearer count can fall outside where its neighbour does not. -/
def Interval.nearest? (i : Interval) : Option Nat :=
  let c := i.middle / i.unit
  let nearer := roundHalfEven i.middle i.unit
  [nearer, if nearer = c then c + 1 else c].find? i.holds

/-- The exponent of the leading decimal digit of `num / den`. -/
def leadingExponent (num den : Nat) : Int :=
  let atLeast (e : Int) : Bool :=
    if 0 ≤ e then den * Nat.pow 10 e.toNat ≤ num else den ≤ num * Nat.pow 10 (-e).toNat
  let guess := ((num.log2 - den.log2 - 1 : Int) * 30103).fdiv 100000
  if atLeast (guess + 2) then guess + 2 else if atLeast (guess + 1) then guess + 1 else guess

/-- Seventeen digits tell any two floats apart. -/
def mostDigits : Nat := 17

/-- Digits and exponent of the leading digit of the shortest decimal of `m * 2 ^ q`, which is not zero. -/
def shortest (m : Nat) (q : Int) : List Char × Int :=
  let i := Interval.ofBinary m q
  let top := leadingExponent i.middle i.unit
  let found := (List.range mostDigits).findSome? fun n : Nat =>
    let k : Int := top - n
    ((i.onGrid k).nearest?).map (·, k)
  match found with
  | none => (['0'], 0)
  | some (c, k) =>
    let ds := Nat.toDigits 10 c
    ((ds.reverse.dropWhile (· = '0')).reverse, k + ds.length - 1)

end Stencil.Decimal
