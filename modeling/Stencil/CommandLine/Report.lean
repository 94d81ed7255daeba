import Stencil.Template

/-!
# Reports

The problems of a template in JSON, on one line.
-/

namespace Stencil.CommandLine

/-- A character as it stands in a JSON string; beyond the controls and ASCII's delimiters nothing is
escaped. -/
def jsonChar (c : Char) : Text :=
  if c = '"' || c = '\\' then ['\\', c]
  else if c = '\n' then ['\\', 'n']
  else if c = '\r' then ['\\', 'r']
  else if c = '\t' then ['\\', 't']
  else if c = '\x0c' then ['\\', 'f']
  else if c = '\x08' then ['\\', 'b']
  else if c.toNat < 0x20 then '\\' :: 'u' :: Text.hex 4 c.toNat
  else [c]

def jsonString (s : Text) : Text := '"' :: s.flatMap jsonChar ++ ['"']

def jsonObject (members : List (String × Text)) : Text :=
  '{' :: Text.join ", ".toList (members.map fun (k, v) => jsonString k.toList ++ ": ".toList ++ v) ++ ['}']

def jsonList (items : List Text) : Text := '[' :: Text.join ", ".toList items ++ [']']

def jsonBool (b : Bool) : Text := if b then "true".toList else "false".toList

def jsonNat (n : Nat) : Text := Nat.toDigits 10 n

end CommandLine

open CommandLine

def Diagnostic.report (d : Diagnostic) : Text :=
  jsonObject [("kind", jsonString d.problem.kind), ("message", jsonString d.problem.message),
    ("position", jsonNat d.position), ("line", jsonNat d.line), ("column", jsonNat d.column)]

def Template.report (t : Template) : Text :=
  jsonObject [("ok", jsonBool t.ok), ("diagnostics", jsonList (t.diagnostics.map Diagnostic.report))]

end Stencil
