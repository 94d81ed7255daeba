import Stencil.Parser.Basic
import Stencil.Value.Basic
import Stencil.Yaml.Cursor

/-!
# What plain scalars stand for

A plain scalar is a null, a boolean, a number or a timestamp if it is written like one, and a text
otherwise.
-/

namespace Stencil.Yaml

/-! ### Numbers -/

def isSign (c : Char) : Bool := c = '+' || c = '-'

def isDigitOrBar (c : Char) : Bool := c.isDigit || c = '_'

/-- A text of at least one character, all of them of `p`. -/
def isRun (p : Char → Bool) (s : Text) : Bool := !s.isEmpty && s.all p

def unsigned (s : Text) : Text :=
  match s with
  | c :: rest => if isSign c then rest else s
  | [] => []

/-- Binary, octal, decimal and hexadecimal numerals with bars between or behind their digits. -/
def isInt (s : Text) : Bool :=
  let isOctal := isRun fun c => ('0' ≤ c && c ≤ '7') || c = '_'
  s.head?.any (fun c => isSign c || c.isDigit) &&
    match unsigned s with
    | '0' :: 'b' :: rest => isRun (fun c => c = '0' || c = '1' || c = '_') rest
    | '0' :: 'x' :: rest =>
      isRun (fun c => c.isDigit || ('a' ≤ c && c ≤ 'f') || ('A' ≤ c && c ≤ 'F') || c = '_') rest
    | '0' :: 'o' :: rest => isOctal rest
    | rest => isRun isDigitOrBar rest

/-- An exponent, with its sign where one is required. -/
def isExponent (signed : Bool) : Text → Bool
  | c :: s => (c = 'e' || c = 'E') && (!signed || s.head?.any isSign) && isRun Char.isDigit (unsigned s)
  | [] => false

/-- Numerals with a point or an exponent, the infinities, and not a number. -/
def isFloat (s : Text) : Bool :=
  s.head?.any (fun c => isSign c || c.isDigit || c = '.') &&
    (s ∈ [".nan".toList, ".NaN".toList, ".NAN".toList] ||
      match unsigned s with
      | '.' :: rest =>
        let exponent := rest.dropWhile isDigitOrBar
        rest ∈ ["inf".toList, "Inf".toList, "INF".toList] ||
          (rest.head?.any isDigitOrBar && (exponent.isEmpty || isExponent true exponent))
      | rest =>
        rest.head?.any Char.isDigit &&
          match rest.dropWhile isDigitOrBar with
          | '.' :: fraction =>
            let exponent := fraction.dropWhile isDigitOrBar
            exponent.isEmpty || isExponent false exponent
          | exponent => isExponent false exponent)

def dropBars (s : Text) : Text := s.filter (· ≠ '_')

def readInt (s : Text) : Except NumeralFault Int :=
  let s := dropBars s
  let signed (n : Int) : Int := if s.head? = some '-' then -n else n
  match unsigned s with
  | '0' :: 'b' :: rest => signed <$> Numeral.readInt 2 rest
  | '0' :: 'x' :: rest => signed <$> Numeral.readInt 16 rest
  | '0' :: 'o' :: rest => signed <$> Numeral.readInt 8 rest
  | rest => signed <$> Numeral.readInt 10 rest

def readFloat (s : Text) : Except NumeralFault Float :=
  let s := (dropBars s).map Char.toLower
  let signed (x : Float) : Float := if s.head? = some '-' then -x else x
  let rest := unsigned s
  if rest = ".inf".toList then .ok (signed (1.0 / 0.0))
  else if rest = ".nan".toList then .ok (0.0 / 0.0)
  else signed <$> Numeral.readFloat rest

/-! ### Timestamps -/

open Stencil.Parser

/-- How far the clock of a zone is from universal time, in seconds. -/
inductive Zone where
  | ahead (seconds : Nat)
  | behind (seconds : Nat)

structure Written where
  year : Nat
  month : Nat
  day : Nat
  /-- Hour, minute, second and the digits of the fraction. -/
  time : Option (Nat × Nat × Nat × List Nat)
  zone : Option Zone

/-- From `least` to `most` ASCII digits, as many as there are. -/
def digitsBetween (least most : Nat) : Parser (List Nat) := fun s =>
  let ds := (s.take most).takeWhile Char.isDigit
  if ds.length < least then none else some (ds.filterMap Text.digitValue?, s.drop ds.length)

def numberBetween (least most : Nat) : Parser Nat := Text.ofDigits 10 <$> digitsBetween least most

def dateParts (least : Nat) : Parser (Nat × Nat × Nat) := do
  let year ← numberBetween 4 4
  let _ ← literal ['-']
  let month ← numberBetween least 2
  let _ ← literal ['-']
  return (year, month, ← numberBetween least 2)

def finish : Parser Unit
  | [] => some ((), [])
  | _ :: _ => none

/-- A zone: universal time, or hours and perhaps minutes with a sign. -/
def zonePart : Parser (Option Zone) := do
  let _ ← run fun c => c = ' ' || c = '\t'
  (do let _ ← literal ['Z']; return none) <|> (do
    let sign ← satisfy isSign
    let hours ← numberBetween 1 2
    let minutes ← (do let _ ← literal [':']; numberBetween 2 2) <|> pure 0
    let seconds := hours * 3600 + minutes * 60
    return some (if sign = '-' then .behind seconds else .ahead seconds))

def timePart : Parser (Nat × Nat × Nat × List Nat) := do
  let _ ← (do let _ ← satisfy (fun c => c = 'T' || c = 't')) <|> (do
    let _ ← satisfy (fun c => c = ' ' || c = '\t')
    let _ ← run (fun c => c = ' ' || c = '\t'))
  let hour ← numberBetween 1 2
  let _ ← literal [':']
  let minute ← numberBetween 2 2
  let _ ← literal [':']
  let second ← numberBetween 2 2
  let fraction ← (do let _ ← literal ['.']; return (← run Char.isDigit)) <|> pure []
  return (hour, minute, second, fraction.filterMap Text.digitValue?)

/-- A date of two-digit parts, or a date with a time and perhaps a zone. -/
def timestamp : Parser Written :=
  (do
    let (year, month, day) ← dateParts 2
    finish
    return { year, month, day, time := none, zone := none }) <|>
  (do
    let (year, month, day) ← dateParts 1
    let time ← timePart
    let zone ← zonePart <|> pure none
    finish
    return { year, month, day, time := some time, zone })

/-- The microseconds of a fraction, rounded at the seventh digit, and the seconds that this carries. -/
def microseconds (fraction : List Nat) : Nat × Nat :=
  let n := Text.ofDigits 10 ((fraction ++ List.replicate 6 0).take 6)
  let n := if fraction[6]?.any (4 < ·) then n + 1 else n
  if n < 1000000 then (n, 0) else (0, 1)

/-- The seconds from the clock to universal time. A second that the fraction carries counts as a part of
the distance of the zone. -/
def shiftOf (carry : Nat) : Option Zone → Int
  | none => carry
  | some (.ahead seconds) => -(seconds + carry)
  | some (.behind seconds) => seconds + carry

/-- The moment of a written timestamp, in universal time. -/
def Written.timestamp (w : Written) : Except CalendarFault Timestamp := do
  match w.time with
  | none => return .date (← Date.mk? w.year w.month w.day)
  | some (hour, minute, second, fraction) =>
    let (micro, carry) := microseconds fraction
    let date ← Date.mk? w.year w.month w.day
    let clock ← Clock.mk? hour minute second micro
    let shift := shiftOf carry w.zone
    if shift = 0 then return .moment date clock else Timestamp.shift date clock shift

/-! ### Resolution -/

/-- What a scalar is resolved to: a value, or one of the two keys with a meaning of their own. -/
inductive Resolved where
  | value (v : Value)
  | merge
  | equals

def nullWords : List Text := [[], ['~'], "null".toList, "Null".toList, "NULL".toList]

def trueWords : List Text := ["true".toList, "True".toList, "TRUE".toList]

def falseWords : List Text := ["false".toList, "False".toList, "FALSE".toList]

def resolveFloat (s : Text) : Except Fault Value := ((readFloat s).mapError .numeral).map .float

def resolveInt (s : Text) : Except Fault Value := ((readInt s).mapError .numeral).map .int

def resolveTimestamp (w : Written) : Except Fault Value := (w.timestamp.mapError .calendar).map .time

def resolve (s : Text) : Except Fault Resolved :=
  if s ∈ trueWords then .ok (.value (.bool true))
  else if s ∈ falseWords then .ok (.value (.bool false))
  else if isFloat s then .value <$> resolveFloat s
  else if isInt s then .value <$> resolveInt s
  else if s = ['<', '<'] then .ok .merge
  else if s ∈ nullWords then .ok (.value .null)
  else match timestamp s with
    | some (w, _) => .value <$> resolveTimestamp w
    | none => if s = ['='] then .ok .equals else .ok (.value (.str s))

end Stencil.Yaml
