import Stencil.CommandLine.Command
import Stencil.CommandLine.Report
import Stencil.Data
import Stencil.Evaluate.Basic
import Stencil.Text.Newline

/-!
# Running commands

What a command writes, and how it ends. A command writes its text only when all has gone well, and tells
of problems on the way in a log. `outcome_stdout` says that a command that fails writes nothing.
-/

namespace Stencil.CommandLine

/-- What stands at a path. -/
inductive File where
  | missing
  /-- Not even whether there is a file can be told. -/
  | hidden (reason : Text)
  | unreadable (reason : Text)
  | bytes (contents : ByteArray)

/-- What a command can reach. -/
structure World where
  file : Path → File
  stdin : ByteArray
  load : Loader
  host : Host
  /-- The version under which the program is installed. -/
  version? : Option Text
  /-- Whether problems are told of as they are met. -/
  debug : Bool

inductive Failure where
  | sharedStdin
  | noTemplate (path : Path)
  | unreadableTemplate (path : Path) (reason : Text)
  | hidden (reason : Text)
  | undecodable
  | data (fault : DataFault)
  | template (error : SyntaxError)
  | evaluation (fault : EvalFault)
deriving DecidableEq

namespace Failure

def errorClass : Failure → ErrorClass
  | sharedStdin | noTemplate _ | unreadableTemplate _ _ => .user .plain
  | template error => .user (.template error.errorClass)
  | data fault => fault.errorClass
  | evaluation fault => fault.errorClass
  | hidden _ => .internal .system
  | undecodable => .internal .decoding

def message : Failure → Text
  | sharedStdin => "Template and data cannot both be read from stdin".toList
  | noTemplate path => "Template file not found: ".toList ++ path.text
  | unreadableTemplate path reason => "Failed to read template ".toList ++ path.text ++ ": ".toList ++ reason
  | hidden reason => reason
  | undecodable => "Not a text in UTF-8".toList
  | data fault => fault.message
  | template error => error.message
  | evaluation fault => fault.message

/-- Whether a command explains the failure and ends by itself; the others break it off. -/
def explained (f : Failure) : Bool := f.errorClass.isUser

end Failure

inductive Ending where
  | code (n : Nat)
  /-- The arguments stop it before it starts, with an exit code. -/
  | stopped (n : Nat)
  | broken (failure : Failure)
deriving DecidableEq

structure Outcome where
  ending : Ending
  stdout : Text
  stderr : Text
deriving DecidableEq

/-- A computation with a log, line by line, that may fail. -/
abbrev Run (α : Type) : Type := ExceptT Failure (Traced Text) α

namespace Run

def log (level : String) (messages : List Text) : Run Unit :=
  ExceptT.lift ⟨messages.map fun m => '[' :: level.toList ++ "] ".toList ++ m, ()⟩

def ofExcept {ε α : Type} (failure : ε → Failure) (r : Except ε α) : Run α :=
  ExceptT.mk (pure (r.mapError failure))

/-- The warning that an event of an evaluation calls for. -/
def warning? : Event → Option Text
  | .call _ _ => none
  | .failure name reason => some (warning name reason)

def ofEval {α : Type} (x : Eval α) : Run α := do
  log "WARNING" (x.run.events.filterMap warning?)
  ofExcept .evaluation x.run.result

end Run

/-! ### Reading -/

/-- What a source is read for. -/
inductive Purpose where
  | template
  | data
deriving DecidableEq

namespace Purpose

def missing (path : Path) : Purpose → Failure
  | template => .noTemplate path
  | data => .data (.noFile path.text)

def unreadable (path : Path) (reason : Text) : Purpose → Failure
  | template => .unreadableTemplate path reason
  | data => .data (.unreadable path.text reason)

end Purpose

namespace World

def decode (bytes : ByteArray) : Except Failure Text := (Text.ofBytes? bytes).elim (.error .undecodable) .ok

/-- The text of a source. -/
def read (w : World) (purpose : Purpose) : Source → Except Failure Text
  | .stdin => decode w.stdin
  | .file path =>
    match w.file path with
    | .missing => .error (purpose.missing path)
    | .hidden reason => .error (.hidden reason)
    | .unreadable reason => .error (purpose.unreadable path reason)
    | .bytes contents => decode contents

def readTemplate (w : World) (s : Source) : Except Failure Text := w.read .template s

/-- The entries of a data source; none without a source. -/
def readData (w : World) : Option Source → Except Failure (List (Value × Value))
  | none => .ok []
  | some s => do
    let text ← w.read .data s
    (dataOfText w.load s.name text).mapError .data

/-- Reads a template, and tells of its problems. -/
def parse (w : World) (source : Text) : Run Template := do
  let t := Template.parse defaultLimit source
  Run.log "DEBUG" (if w.debug then
    t.diagnostics.map fun d => d.text ++ ", keeping the rest as text".toList else [])
  return t

end World

/-! ### Commands -/

namespace Command

/-- The exit code of a command and the text that it writes. -/
def run (w : World) : Command → Run (Nat × Text)
  | render template data overrides strict => do
    if template = .stdin ∧ data = some .stdin then throw .sharedStdin
    let source ← Run.ofExcept id (w.readTemplate template)
    let entries ← Run.ofExcept id (w.readData data)
    let entries ← Run.ofExcept .data (Override.applyAll w.load entries overrides)
    let t ← w.parse source
    if strict then Run.ofExcept .template ((Template.parseStrict source).map fun _ => ())
    Run.log "WARNING" (t.diagnostics.map Diagnostic.text)
    let text ← Run.ofEval (Stencil.render w.host (.entries entries) t.nodes)
    return (0, text)
  | check template => do
    let source ← Run.ofExcept id (w.readTemplate template)
    let t ← w.parse source
    return (if t.ok then 0 else 1, t.report)

def lines (ts : List Text) : Text := ts.flatMap (· ++ ['\n'])

/-- What a run comes to; an explained failure ends it with code 2 and its message. -/
def outcomeOf (r : Traced Text (Except Failure (Nat × Text))) : Outcome :=
  match r.result with
  | .ok (n, text) => ⟨.code n, text, lines r.events⟩
  | .error f =>
    if f.explained then ⟨.code 2, [], lines (r.events ++ [Text.trimEnd f.message])⟩
    else ⟨.broken f, [], lines r.events⟩

def outcome (w : World) (c : Command) : Outcome := outcomeOf (c.run w).run

end Command

def Stop.outcome (version? : Option Text) : Stop → Outcome
  | help u => ⟨.stopped 0, u.synopsis ++ '\n' :: u.details, []⟩
  | version => ⟨.stopped 0, program ++ ' ' :: version?.getD "0.0.0".toList ++ ['\n'], []⟩
  | misuse u message => ⟨.stopped 2, [], u.synopsis ++ u.program ++ ": error: ".toList ++ message ++ ['\n']⟩

def run (w : World) (args : List Text) : Outcome :=
  match Command.ofArguments args with
  | .error stop => stop.outcome w.version?
  | .ok c => c.outcome w

end Stencil.CommandLine
