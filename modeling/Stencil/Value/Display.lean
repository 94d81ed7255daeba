import Stencil.Value.Basic

/-!
# Values as text

`Value.text` is what a value renders as: nothing for null, the items of a list with commas between them, a
whole number for a float that is one. `Value.display` is how a value stands inside a mapping, with quotes
and brackets.
-/

namespace Stencil

/-- The parts between an opening and a closing text, with commas and spaces between them. -/
def bracketed (opening : Text) (parts : List Text) (closing : Text) : Text :=
  opening ++ Text.join ", ".toList parts ++ closing

def Timestamp.display (t : Timestamp) : Text :=
  let numbers (ns : List Nat) := ns.map (Nat.toDigits 10)
  match t with
  | .date d => bracketed "datetime.date(".toList (numbers [d.year, d.month, d.day]) [')']
  | .moment d c =>
    let fine :=
      if c.microsecond = 0 then (if c.second = 0 then [] else [c.second]) else [c.second, c.microsecond]
    bracketed "datetime.datetime(".toList
      (numbers ([d.year, d.month, d.day, c.hour, c.minute] ++ fine)) [')']

def displayHelper (name : Text) : Text := "<fn ".toList ++ name ++ ['>']

mutual

def Value.display : Value → Except NumeralFault Text
  | .null => .ok "None".toList
  | .bool true => .ok "True".toList
  | .bool false => .ok "False".toList
  | .int n => Numeral.writeInt n
  | .float x => .ok (Decimal.writeFloat x)
  | .str s => .ok (Text.quoted s)
  | .list items => do return bracketed ['['] (← displayAll items) [']']
  | .tuple items => do
    let parts ← displayAll items
    return bracketed ['('] parts (if parts.length = 1 then [',', ')'] else [')'])
  | .mapping m => m.display
  | .time t => .ok t.display
  | .helper name _ => .ok (displayHelper name)

def displayAll : List Value → Except NumeralFault (List Text)
  | [] => .ok []
  | v :: vs => do
    let part ← v.display
    return part :: (← displayAll vs)

def Mapping.display : Mapping → Except NumeralFault Text
  | .entries es => do return bracketed ['{'] (← displayEntries es) ['}']
  | .layered inner outer => do
    let i ← inner.display
    return bracketed "Scope(".toList [i, ← outer.display] [')']

def displayEntries : List (Value × Value) → Except NumeralFault (List Text)
  | [] => .ok []
  | (k, v) :: es => do
    let key ← k.display
    let value ← v.display
    return (key ++ ':' :: ' ' :: value) :: (← displayEntries es)

end

mutual

def Value.text : Value → Except NumeralFault Text
  | .null => .ok []
  | .bool true => .ok "true".toList
  | .bool false => .ok "false".toList
  | .str s => .ok s
  | .int n => Numeral.writeInt n
  | .float x =>
    match (Decimal.Binary.ofFloat x).toInt? with
    | some n => Numeral.writeInt n
    | none => .ok (Decimal.writeFloat x)
  | .list items => do return Text.join [','] (← textAll items)
  | .tuple items => do return Text.join [','] (← textAll items)
  | .mapping m => m.display
  | .time t => .ok t.text
  | .helper name _ => .ok (displayHelper name)

def textAll : List Value → Except NumeralFault (List Text)
  | [] => .ok []
  | v :: vs => do
    let part ← v.text
    return part :: (← textAll vs)

end

end Stencil
