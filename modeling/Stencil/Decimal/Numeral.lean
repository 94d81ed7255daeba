import Stencil.Decimal.Layout
import Stencil.Text.Blank
import Stencil.Text.Digit
import Stencil.Text.Quoted

/-!
# Numerals

Whole numbers and floats read from text. Digits of any script count, blanks around a numeral do not, and
an underscore may stand between two digits. Whole numbers have at most `digitLimit` digits, when read and
when written; `writeInt_eq_ok_iff` gives the bound.
-/

namespace Stencil

inductive NumeralFault where
  | notWhole (base : Nat) (text : Text)
  | notFloat (text : Text)
  | tooManyDigits (count : Nat)
  | tooLarge
deriving DecidableEq

namespace Numeral

/-- The most digits of a whole number in text. -/
def digitLimit : Nat := 4300

/-- The most characters of a text that a message quotes. -/
def quoteLimit : Nat := 200

/-- The blanks around a numeral; the information separators are not among them. -/
def isOuterBlank (c : Char) : Bool :=
  Text.isBlank c && !(0x1C ≤ c.toNat && c.toNat ≤ 0x1F)

/-- What a digit of base `base` is worth: a decimal digit of any script, or a Latin letter. -/
def valueIn? (base : Nat) (c : Char) : Option Nat :=
  let letter := if c.toLower.isAlpha then some (c.toLower.toNat - 'a'.toNat + 10) else none
  ((Text.digitValue? c).or letter).filter (· < base)

/-- Digits with single underscores between them, and the text from the first other character on. -/
def digitRun (base : Nat) : Text → Option (List Nat × Text)
  | [] => none
  | c :: s =>
    match valueIn? base c, s with
    | none, _ => none
    | some d, [] => some ([d], [])
    | some d, c' :: s' =>
      if c' = '_' then (digitRun base s').map fun (ds, r) => (d :: ds, r)
      else if (valueIn? base c').isSome then (digitRun base (c' :: s')).map fun (ds, r) => (d :: ds, r)
      else some ([d], c' :: s')

/-- Whether a sign makes the number negative, and the text after the sign. -/
def readSign : Text → Bool × Text
  | '-' :: s => (true, s)
  | '+' :: s => (false, s)
  | s => (false, s)

def readInt (base : Nat) (s : Text) : Except NumeralFault Int :=
  let (negative, body) := readSign (s.dropWhile isOuterBlank)
  match digitRun base body with
  | none => .error (.notWhole base s)
  | some (ds, rest) =>
    if base = 10 ∧ digitLimit < ds.length then .error (.tooManyDigits ds.length)
    else if rest.all isOuterBlank then
      let n := Text.ofDigits base ds
      .ok (if negative then -n else n)
    else .error (.notWhole base s)

/-- The text without its underscores, if each of them stands between two digits. -/
def dropUnderscores? (afterDigit : Bool) : Text → Option Text
  | [] => some []
  | c :: s =>
    if c = '_' then
      match s with
      | d :: _ => if afterDigit && Text.isDigit d then dropUnderscores? false s else none
      | [] => none
    else (dropUnderscores? (Text.isDigit c) s).map (c :: ·)

def digits (s : Text) : List Nat × Text :=
  ((s.takeWhile Text.isDigit).filterMap Text.digitValue?, s.dropWhile Text.isDigit)

/-- The exponent that a float ends in; zero if there is none. -/
def readExponent? : Text → Option Int
  | [] => some 0
  | c :: s =>
    if c = 'e' || c = 'E' then
      let (negative, body) := readSign s
      match digits body with
      | ([], _) => none
      | (ds, []) => let n := Text.ofDigits 10 ds; some (if negative then -n else n)
      | _ => none
    else none

/-- The float that an unsigned numeral without underscores denotes. -/
def unsignedFloat? (negative : Bool) (s : Text) : Option Float :=
  let word := s.map Char.toLower
  let signed (x : Float) := if negative then -x else x
  if word = "inf".toList ∨ word = "infinity".toList then some (signed (1.0 / 0.0))
  else if word = "nan".toList then some (0.0 / 0.0)
  else
    let (whole, rest) := digits s
    let (fraction, rest) := match rest with
      | '.' :: r => digits r
      | _ => ([], rest)
    if whole.isEmpty && fraction.isEmpty then none
    else (readExponent? rest).map fun e =>
      Decimal.nearest negative (Text.ofDigits 10 (whole ++ fraction)) (e - fraction.length)

def readFloat (s : Text) : Except NumeralFault Float :=
  let (negative, body) := readSign (Text.strip isOuterBlank s)
  match (dropUnderscores? false body).bind (unsignedFloat? negative) with
  | some x => .ok x
  | none => .error (.notFloat s)

def decimal : Int → Text
  | .ofNat n => Nat.toDigits 10 n
  | .negSucc n => '-' :: Nat.toDigits 10 (n + 1)

/-- The least whole number with too many digits to be written. -/
def writeBound : Nat := Nat.pow 10 digitLimit

def writeInt (n : Int) : Except NumeralFault Text :=
  if n.natAbs < writeBound then .ok (decimal n) else .error .tooLarge

theorem writeInt_eq_ok_iff {n : Int} {t : Text} :
    writeInt n = .ok t ↔ n.natAbs < writeBound ∧ decimal n = t := by
  unfold writeInt
  split
  · next h => simp [h]
  · next h => simp [h]

end Numeral

open Numeral in
def NumeralFault.message : NumeralFault → Text
  | .notWhole base s =>
    "invalid literal for int() with base ".toList ++ Nat.toDigits 10 base ++ ": ".toList ++
      (Text.quoted s).take quoteLimit
  | .notFloat s => "could not convert string to float: ".toList ++ Text.quoted s
  | .tooManyDigits n =>
    "Exceeds the limit (".toList ++ Nat.toDigits 10 digitLimit ++
      " digits) for integer string conversion: value has ".toList ++ Nat.toDigits 10 n ++
      " digits; use sys.set_int_max_str_digits() to increase the limit".toList
  | .tooLarge =>
    "Exceeds the limit (".toList ++ Nat.toDigits 10 digitLimit ++
      " digits) for integer string conversion; use sys.set_int_max_str_digits() to increase the limit".toList

end Stencil
