import Stencil.Text.Printable

/-!
# Quoted texts

A text in quotes, on one line and in printable characters. Single quotes stand around it unless it holds
one and no double quote.
-/

namespace Stencil.Text

/-- The quote that `quoted` puts around a text. -/
def quoteFor (s : Text) : Char :=
  if s.contains '\'' && !s.contains '"' then '"' else '\''

def hex (width n : Nat) : Text :=
  let ds := Nat.toDigits 16 n
  List.replicate (width - ds.length) '0' ++ ds

/-- A character as it stands between two quotes `q`. -/
def quotedChar (q c : Char) : Text :=
  if c = q || c = '\\' then ['\\', c]
  else if c = '\n' then ['\\', 'n']
  else if c = '\r' then ['\\', 'r']
  else if c = '\t' then ['\\', 't']
  else if isPrintable c then [c]
  else if c.toNat < 0x100 then '\\' :: 'x' :: hex 2 c.toNat
  else if c.toNat < 0x10000 then '\\' :: 'u' :: hex 4 c.toNat
  else '\\' :: 'U' :: hex 8 c.toNat

def quoted (s : Text) : Text :=
  let q := quoteFor s
  q :: s.flatMap (quotedChar q) ++ [q]

end Stencil.Text
