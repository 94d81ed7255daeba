import Stencil.Text.Basic

/-!
# Classes of errors

Errors that a user can mend, in a template, in its data or in the arguments of a command, are kept apart from all
others. Who calls may explain the first kind to the user; nobody is expected to meet the second.
-/

namespace Stencil

/-- The errors of templates that are refused. -/
inductive SyntaxClass where
  | malformedTag
  | unterminatedSection
  | nestingTooDeep
deriving DecidableEq

/-- The errors that a user can mend. -/
inductive UserClass where
  | plain
  | template (c : SyntaxClass)
  | dataLoad
deriving DecidableEq

inductive InternalClass where
  | evaluation
  | key
  | value
  | type
  | overflow
  | decoding
  | system
  | other (name : Text)
deriving DecidableEq

inductive ErrorClass where
  | user (c : UserClass)
  | internal (c : InternalClass)
deriving DecidableEq

def ErrorClass.isUser : ErrorClass → Bool
  | user _ => true
  | internal _ => false

end Stencil
