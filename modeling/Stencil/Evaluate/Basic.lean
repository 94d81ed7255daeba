import Stencil.Error
import Stencil.Escape
import Stencil.Evaluate.Literal
import Stencil.Node.Printer
import Stencil.Traced
import Stencil.Value.Display

/-!
# Evaluation

Nodes are evaluated against a mapping that gives names to values. Evaluation is lenient: names that are
absent, helpers that are no functions and helpers that fail render nothing. The lemmas at the end say what each
kind of node comes to.
-/

namespace Stencil

/-! ### Names -/

/-- The value that a path of keys leads to from a value; null where a key is missing. -/
def Value.follow : Value → List Text → Value
  | v, [] => v
  | .mapping m, key :: keys =>
    match m.find? key with
    | some v => v.follow keys
    | none => .null
  | _, _ :: _ => .null

def Mapping.lookup (env : Mapping) (path : Text) : Value := (Value.mapping env).follow (Node.segments path)

/-! ### Events and errors -/

/-- What happens besides the text that comes out. -/
inductive Event where
  | call (helper : Text) (args : List Value)
  /-- A helper fails; its name is as in the template. -/
  | failure (name reason : Text)

inductive EvalFault where
  | unknownNode (kind : Text)
  | numeral (fault : NumeralFault)
deriving DecidableEq

namespace EvalFault

def errorClass : EvalFault → ErrorClass
  | unknownNode _ => .internal .evaluation
  | numeral _ => .internal .value

def message : EvalFault → Text
  | unknownNode kind => "Unknown node type: ".toList ++ kind
  | numeral fault => fault.message

end EvalFault

def warning (name reason : Text) : Text := "Helper '".toList ++ name ++ "' failed: ".toList ++ reason

/-- Calls the helper of a name with what it holds and the arguments; a failure gives its reason. -/
abbrev Host := (helper : Text) → (held args : List Value) → Except Text Value

/-- The host of data, which holds no functions. -/
def Host.empty : Host := fun helper _ _ => .error ("unknown helper ".toList ++ helper)

/-- Evaluation with its events; those before an error are kept. -/
abbrev Eval (α : Type) : Type := ExceptT EvalFault (Traced Event) α

namespace Eval

def emit (e : Event) : Eval Unit := ExceptT.lift (Traced.emit e)

def ofNumeral {α : Type} (r : Except NumeralFault α) : Eval α :=
  ExceptT.mk (pure (r.mapError .numeral))

end Eval

/-! ### Nodes -/

/-- The environment of a section over a value, from the one around it. -/
abbrev Entering := Mapping → Value → Mapping

/-- The environment of a section over `item`. -/
def Mapping.enter (env : Mapping) : Value → Mapping
  | .mapping m => .layered m env
  | _ => env

/-- Calls a helper under the name that the template gives it. -/
def callHelper (host : Host) (name helper : Text) (held args : List Value) : Eval Value := do
  Eval.emit (.call helper args)
  match host helper held args with
  | .ok v => return v
  | .error reason =>
    Eval.emit (.failure name reason)
    return .null

mutual

/-- The value of a node: of names and literals as it is, of all else as text. Sections over a value are entered
by `enter`. -/
def evaluateBy (enter : Entering) (host : Host) (env : Mapping) : Node → Eval Value
  | .text t => return .str t
  | .name path => return env.lookup path
  | .primitive token => Eval.ofNumeral (decodeLiteral token)
  | .escaped inner => do
    let v ← evaluateBy enter host env inner
    if v.truthy then return .str (escapeHtml (← Eval.ofNumeral v.text))
    else return .str []
  | .unescaped inner => do
    let v ← evaluateBy enter host env inner
    return .str (← Eval.ofNumeral v.text)
  | .block .plain context body => do
    let v ← evaluateBy enter host env context
    match v.items?, v with
    | some items, _ => return .str (← items.mapM fun item => renderBy enter host (enter env item) body).flatten
    | none, .mapping _ => return .str (← renderBy enter host (enter env v) body)
    | none, _ => if v.truthy then return .str (← renderBy enter host env body) else return .str []
  | .block .inverted context body => do
    let v ← evaluateBy enter host env context
    if v.truthy then return .str [] else return .str (← renderBy enter host env body)
  | .helper name args => do
    match ← evaluateBy enter host env name with
    | .helper f held => callHelper host name.print f held (← evaluateAllBy enter host env args)
    | _ => return .null
  | .args values => return .list (← evaluateAllBy enter host env values)
  | .foreign kind => throw (.unknownNode kind)

def evaluateAllBy (enter : Entering) (host : Host) (env : Mapping) : List Node → Eval (List Value)
  | [] => return []
  | n :: ns => do
    let v ← evaluateBy enter host env n
    return v :: (← evaluateAllBy enter host env ns)

def renderBy (enter : Entering) (host : Host) (env : Mapping) : List Node → Eval Text
  | [] => return []
  | n :: ns => do
    let v ← evaluateBy enter host env n
    let t ← Eval.ofNumeral v.text
    return t ++ (← renderBy enter host env ns)

end

/-- Evaluates with each section over a mapping laid over what is around it. -/
def evaluate : Host → Mapping → Node → Eval Value := evaluateBy Mapping.enter

def evaluateAll : Host → Mapping → List Node → Eval (List Value) := evaluateAllBy Mapping.enter

def render : Host → Mapping → List Node → Eval Text := renderBy Mapping.enter

/-! ### One node at a time -/

section

variable (host : Host) (env : Mapping)

theorem evaluate_text (t : Text) : evaluate host env (.text t) = pure (.str t) := by
  rw [evaluate, evaluateBy]

theorem evaluate_name (path : Text) : evaluate host env (.name path) = pure (env.lookup path) := by
  rw [evaluate, evaluateBy]

theorem evaluate_primitive (token : Text) :
    evaluate host env (.primitive token) = Eval.ofNumeral (decodeLiteral token) := by
  rw [evaluate, evaluateBy]

theorem evaluate_escaped (inner : Node) : evaluate host env (.escaped inner) = (do
    let v ← evaluate host env inner
    if v.truthy then return .str (escapeHtml (← Eval.ofNumeral v.text))
    else return .str []) := by
  rw [evaluate, evaluateBy]

theorem evaluate_unescaped (inner : Node) : evaluate host env (.unescaped inner) = (do
    let v ← evaluate host env inner
    return .str (← Eval.ofNumeral v.text)) := by
  rw [evaluate, evaluateBy]

theorem evaluate_plain (context : Node) (body : List Node) : evaluate host env (.block .plain context body) = (do
    let v ← evaluate host env context
    match v.items?, v with
    | some items, _ => return .str (← items.mapM fun item => render host (env.enter item) body).flatten
    | none, .mapping _ => return .str (← render host (env.enter v) body)
    | none, _ => if v.truthy then return .str (← render host env body) else return .str []) := by
  rw [evaluate, evaluateBy]
  rfl

theorem evaluate_inverted (context : Node) (body : List Node) :
    evaluate host env (.block .inverted context body) = (do
    let v ← evaluate host env context
    if v.truthy then return .str [] else return .str (← render host env body)) := by
  rw [evaluate, evaluateBy]
  rfl

theorem evaluate_helper (name : Node) (args : List Node) : evaluate host env (.helper name args) = (do
    match ← evaluate host env name with
    | .helper f held => callHelper host name.print f held (← evaluateAll host env args)
    | _ => return .null) := by
  rw [evaluate, evaluateBy]
  rfl

theorem evaluate_args (values : List Node) :
    evaluate host env (.args values) = (do return .list (← evaluateAll host env values)) := by
  rw [evaluate, evaluateBy]
  rfl

theorem evaluate_foreign (kind : Text) : evaluate host env (.foreign kind) = throw (.unknownNode kind) := by
  rw [evaluate, evaluateBy]

theorem evaluateAll_nil : evaluateAll host env [] = pure [] := by
  rw [evaluateAll, evaluateAllBy]

theorem evaluateAll_cons (n : Node) (ns : List Node) : evaluateAll host env (n :: ns) = (do
    let v ← evaluate host env n
    return v :: (← evaluateAll host env ns)) := by
  rw [evaluateAll, evaluateAllBy]
  rfl

theorem render_nil : render host env [] = pure [] := by
  rw [render, renderBy]

theorem render_cons (n : Node) (ns : List Node) : render host env (n :: ns) = (do
    let v ← evaluate host env n
    let t ← Eval.ofNumeral v.text
    return t ++ (← render host env ns)) := by
  rw [render, renderBy]
  rfl

end

end Stencil
