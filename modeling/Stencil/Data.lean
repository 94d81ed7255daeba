import Stencil.Error
import Stencil.Text.Blank
import Stencil.Value.Mapping

/-!
# Data for templates

The names that a template sees come from a document whose top level is a mapping, and from overrides of the
form KEY=VALUE, which write one dotted path each. How documents are read is left open: a loader is given.
`applyAll_append` says that lists of overrides are applied one after the other.
-/

namespace Stencil

/-! ### Documents -/

/-- Why a text gives no value: it is no document, or what is in it goes wrong in a way that nobody expects. -/
inductive LoadFault where
  | malformed (reason : Text)
  | unexpected (errorClass : InternalClass) (message : Text)
deriving DecidableEq

/-- Reads the value that a document stands for. -/
abbrev Loader : Type := Text → Except LoadFault Value

/-- Why data cannot be had. -/
inductive DataFault where
  | malformed (source reason : Text)
  | notMapping (source kind : Text)
  | noFile (path : Text)
  | unreadable (path reason : Text)
  | noEquals (override : Text)
  | emptyKey (override : Text)
  | unexpected (errorClass : InternalClass) (message : Text)
deriving DecidableEq

namespace DataFault

def errorClass : DataFault → ErrorClass
  | unexpected c _ => .internal c
  | _ => .user .dataLoad

def message : DataFault → Text
  | malformed source reason => "Failed to parse ".toList ++ source ++ ": ".toList ++ reason
  | notMapping source kind => source ++ ": top level must be a mapping, got ".toList ++ kind
  | noFile path => "Data file not found: ".toList ++ path
  | unreadable path reason => "Failed to read data file ".toList ++ path ++ ": ".toList ++ reason
  | noEquals o => "Invalid override '".toList ++ o ++ "'. Expected 'key=value'".toList
  | emptyKey o => "Invalid override '".toList ++ o ++ "': empty key".toList
  | unexpected _ message => message

end DataFault

/-- The entries of a document; `source` names it in messages. An empty document has none. -/
def dataOfText (load : Loader) (source text : Text) : Except DataFault (List (Value × Value)) :=
  match load text with
  | .error (.malformed reason) => .error (.malformed source reason)
  | .error (.unexpected c message) => .error (.unexpected c message)
  | .ok .null => .ok []
  | .ok (.mapping (.entries es)) => .ok es
  | .ok v => .error (.notMapping source v.kind)

/-! ### Overrides -/

namespace Override

/-- The value that the right side of an override stands for: text that is no document stands for itself. -/
def valueOf (load : Loader) (raw : Text) : Except DataFault Value :=
  if (Text.trim raw).isEmpty then .ok (.str [])
  else match load raw with
    | .error (.malformed _) => .ok (.str raw)
    | .error (.unexpected c message) => .error (.unexpected c message)
    | .ok v => .ok v

/-- Writes a value at a path of names. What is no mapping on the way gives way to an empty one. -/
def assign (v : Value) : (path : List Text) → List (Value × Value) → List (Value × Value)
  | [], es => es
  | [leaf], es => putEntry (.str leaf) v es
  | part :: next :: rest, es =>
    let inner := match named? part es with
      | some (.mapping (.entries inner)) => inner
      | _ => []
    putEntry (.str part) (.mapping (.entries (assign v (next :: rest) inner))) es

def parse (override : Text) : Except DataFault (List Text × Text) :=
  match Text.cut? '=' override with
  | none => .error (.noEquals override)
  | some (key, raw) =>
    let key := Text.trim key
    if key.isEmpty then .error (.emptyKey override) else .ok (Text.split '.' key, raw)

def apply (load : Loader) (es : List (Value × Value)) (override : Text) :
    Except DataFault (List (Value × Value)) := do
  let (path, raw) ← parse override
  return assign (← valueOf load raw) path es

def applyAll (load : Loader) (es : List (Value × Value)) (overrides : List Text) :
    Except DataFault (List (Value × Value)) :=
  overrides.foldlM (apply load) es

theorem applyAll_append (load : Loader) (es : List (Value × Value)) (xs ys : List Text) :
    applyAll load es (xs ++ ys) = (applyAll load es xs).bind fun es' => applyAll load es' ys := by
  simp [applyAll, List.foldlM_append, bind]

end Override

end Stencil
