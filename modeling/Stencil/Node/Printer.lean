import Stencil.Node.Basic

/-!
# Printing nodes

The source that a node stands for, with one blank on each side of what a tag holds.
-/

namespace Stencil

def openBraces : Text := ['{', '{']

def closeBraces : Text := ['}', '}']

/-- A tag that holds `mark` and then `inner` between blanks. -/
def printTag (mark inner : Text) : Text := openBraces ++ mark ++ ' ' :: inner ++ ' ' :: closeBraces

namespace Node

mutual

def print : Node → Text
  | text t => t
  | name path => path
  | primitive token => token
  | escaped inner => printTag [] inner.print
  | unescaped inner => printTag ['{'] inner.print ++ ['}']
  | block sense context body =>
    printTag [sense.sigil] context.print ++ printAll body ++ printTag ['/'] context.print
  | helper f [] => printTag ['%'] f.print
  | helper f (a :: as) => printTag ['%'] (f.print ++ ':' :: ' ' :: printArgs (a :: as))
  | args values => printArgs values
  | foreign _ => []

def printAll : List Node → Text
  | [] => []
  | n :: ns => n.print ++ printAll ns

def printArgs : List Node → Text
  | [] => []
  | [n] => n.print
  | n :: m :: ns => n.print ++ ',' :: ' ' :: printArgs (m :: ns)

end

end Node

end Stencil
