import Stencil.Calendar
import Stencil.Decimal.Numeral

/-!
# Reading YAML by characters

A cursor holds the text still to be read and the place where it stands. Readers take characters off it one
at a time, so line and column are always known.
-/

namespace Stencil.Yaml

inductive Fault where
  /-- It is not YAML, or holds what no value stands for. -/
  | malformed
  | numeral (fault : NumeralFault)
  | calendar (fault : CalendarFault)
  /-- A key that is a list holds a value of this kind. -/
  | unhashable (kind : Text)
  /-- A number that is the code of no character. -/
  | codePoint (code : Nat)
deriving DecidableEq

/-! ### Characters -/

def isAllowed (c : Char) : Bool :=
  let n := c.toNat
  n = 0x09 || n = 0x0A || n = 0x0D || (0x20 ≤ n && n ≤ 0x7E) || n = 0x85 || (0xA0 ≤ n && n ≤ 0xD7FF) ||
    (0xE000 ≤ n && n ≤ 0xFFFD) || 0x10000 ≤ n

/-- Characters that end a line; a carriage return and a line feed end one together. -/
def isBreak (c : Char) : Bool :=
  c = '\n' || c = '\r' || c = '\u0085' || c = '\u2028' || c = '\u2029'

/-- The end of the text, or of a line as comments and block scalars see it. -/
def isLineEnd : Option Char → Bool
  | none => true
  | some c => c = '\n' || c = '\r' || c = '\u0085'

/-- The end of a line, a space or a tab. -/
def isGap (c : Option Char) : Bool := isLineEnd c || c = some ' ' || c = some '\t'

def byteOrderMark : Char := '\uFEFF'

/-! ### The cursor -/

structure Cursor where
  rest : Text
  index : Nat
  line : Nat
  column : Nat

namespace Cursor

def ofText (s : Text) : Cursor := ⟨s, 0, 0, 0⟩

def advance (c : Cursor) : Cursor :=
  match c.rest with
  | [] => c
  | x :: rest =>
    if isBreak x && !(x = '\r' && rest.head? = some '\n') then ⟨rest, c.index + 1, c.line + 1, 0⟩
    else if x = byteOrderMark then ⟨rest, c.index + 1, c.line, c.column⟩
    else ⟨rest, c.index + 1, c.line, c.column + 1⟩

def advanceBy (c : Cursor) : Nat → Cursor
  | 0 => c
  | n + 1 => c.advance.advanceBy n

end Cursor

/-! ### Readers -/

abbrev Read (α : Type) : Type := StateT Cursor (Except Fault) α

def fail {α : Type} : Read α := throw .malformed

def peek (k : Nat) : Read (Option Char) := do return (← get).rest[k]?

def skip (n : Nat) : Read Unit := modify (·.advanceBy n)

def take (n : Nat) : Read Text := do
  let t := (← get).rest.take n
  skip n
  return t

def takeRun (p : Char → Bool) : Read Text := do
  let n := ((← get).rest.takeWhile p).length
  take n

/-- Takes the end of a line: a line feed stands for all but the two separators of Unicode. -/
def takeBreak : Read (Option Char) := do
  match (← get).rest with
  | '\r' :: '\n' :: _ => skip 2; return some '\n'
  | c :: _ =>
    if c = '\n' || c = '\r' || c = '\u0085' then skip 1; return some '\n'
    else if c = '\u2028' || c = '\u2029' then skip 1; return some c
    else return none
  | [] => return none

/-- Whether three equal characters and a gap come next, as they do between documents. -/
def startsWithMark (c : Char) : Read Bool := do
  match (← get).rest with
  | x :: y :: z :: rest => return x = c && y = c && z = c && isGap rest.head?
  | _ => return false

/-- Whether a line that separates documents comes next. -/
def atSeparator : Read Bool := do return (← startsWithMark '-') || (← startsWithMark '.')

/-- A number of steps that no reader reaches the end of. -/
def stepLimit : Read Nat := do return (← get).rest.length + 1

end Stencil.Yaml
