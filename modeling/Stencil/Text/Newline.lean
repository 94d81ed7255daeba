import Stencil.Text.Basic

/-!
# Line ends

Lines may end in a line feed, in a carriage return or in both; all of them are read as line feeds.
-/

namespace Stencil.Text

/-- The text with a line feed for each line end. -/
def unifyNewlines : Text → Text
  | [] => []
  | '\r' :: '\n' :: s => '\n' :: unifyNewlines s
  | c :: s => (if c = '\r' then '\n' else c) :: unifyNewlines s

def ofBytes? (bytes : ByteArray) : Option Text :=
  (String.fromUTF8? bytes).map fun s => unifyNewlines s.toList

end Stencil.Text
