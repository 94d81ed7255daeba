import Stencil.Decimal.Numeral
import Stencil.Error
import Stencil.Grammar.Tag

/-!
# Templates

A template is read as texts and tags in turn. A tag that cannot be read makes a text of the rest of its
node list and is reported, so reading never fails. Bodies of sections are read in the same way, with one
level of nesting less to spend. `readNodes_text` says how a text without tags is read.
-/

namespace Stencil

open Grammar Stencil.Parser

/-! ### Reading -/

/-- A tag that cannot be read, at `left` characters from the end of the source. -/
structure Fault where
  cause : TagFault
  left : Nat
deriving DecidableEq

/-- A text as a node; nothing for the empty text. -/
def textNodes (t : Text) : List Node := if t.isEmpty then [] else [.text t]

/-- The nodes of a text with `trailing` characters of the source behind it; `body` reads the bodies of
sections in the same terms. -/
def readNodes (body : Nat → Text → Traced Fault (Option (List Node))) (trailing : Nat) (s : Text) :
    Traced Fault (List Node) :=
  match _hc : cutBefore (literal openBraces) s with
  | (plain, []) => pure (textNodes plain)
  | (plain, c :: cs) =>
    let attempt := tag (fun inner after => body (trailing + after) inner) (c :: cs)
    match ht : attempt.result with
    | .error cause =>
      ⟨attempt.events ++ [⟨cause, trailing + (c :: cs).length⟩], textNodes plain ++ [.text (c :: cs)]⟩
    | .ok (n, rest) =>
      let more := readNodes body trailing rest
      ⟨attempt.events ++ more.events, textNodes plain ++ n :: more.result⟩
termination_by s.length
decreasing_by
  have h := cutBefore_append (literal openBraces) s
  rw [_hc] at h
  have := (tag_ok ht).2
  rw [← h, List.length_append]
  simp only at *
  omega

/-- Reads bodies of sections down to a depth; a body below it is refused. -/
def readBody : (depth : Nat) → (trailing : Nat) → Text → Traced Fault (Option (List Node))
  | 0, _, _ => pure none
  | depth + 1, trailing, s => some <$> readNodes (readBody depth) trailing s

/-! ### Diagnostics -/

inductive Problem where
  | malformedTag
  | unterminatedSection (name : Text)
  | nestingTooDeep (limit : Int)
deriving DecidableEq

def Problem.kind : Problem → Text
  | malformedTag => "malformed_tag".toList
  | unterminatedSection _ => "unterminated_section".toList
  | nestingTooDeep _ => "nesting_too_deep".toList

def Problem.message : Problem → Text
  | malformedTag => "Malformed tag".toList
  | unterminatedSection name => "Section '".toList ++ name ++ "' is never closed".toList
  | nestingTooDeep limit =>
    "Sections nested deeper than ".toList ++ Numeral.decimal limit ++ " levels".toList

/-- A problem in a source. The text from `position` on, up to the end of the node list, is kept as text.
Lines and columns count from one. -/
structure Diagnostic where
  problem : Problem
  position : Nat
  line : Nat
  column : Nat
deriving DecidableEq

def lineColumn (before : Text) : Nat × Nat :=
  (before.count '\n' + 1, (before.reverse.takeWhile (· != '\n')).length + 1)

/-- What a fault means in a source with this limit on the depth of sections. -/
def Fault.diagnostic (source : Text) (limit : Int) (f : Fault) : Diagnostic :=
  let position := source.length - f.left
  let (line, column) := lineColumn (source.take position)
  let problem := match f.cause with
    | .malformed => .malformedTag
    | .unterminated name => .unterminatedSection name
    | .refused => .nestingTooDeep limit
  { problem, position, line, column }

def Diagnostic.text (d : Diagnostic) : Text :=
  d.problem.message ++ " at ".toList ++ Nat.toDigits 10 d.line ++ ':' :: Nat.toDigits 10 d.column

/-! ### Refusal -/

def Problem.errorClass : Problem → SyntaxClass
  | unterminatedSection _ => .unterminatedSection
  | nestingTooDeep _ => .nestingTooDeep
  | malformedTag => .malformedTag

/-- A template that is refused for a problem. -/
@[ext]
structure SyntaxError where
  errorClass : SyntaxClass
  diagnostic : Diagnostic
deriving DecidableEq

namespace SyntaxError

def ofDiagnostic (d : Diagnostic) : SyntaxError := ⟨d.problem.errorClass, d⟩

def message (e : SyntaxError) : Text := e.diagnostic.text

def line (e : SyntaxError) : Nat := e.diagnostic.line

def column (e : SyntaxError) : Nat := e.diagnostic.column

end SyntaxError

/-! ### Templates -/

structure Template where
  nodes : List Node
  diagnostics : List Diagnostic
deriving DecidableEq

/-- The depth of sections that is read where no other limit is given. -/
def defaultLimit : Int := 64

namespace Template

/-- Reads a source in which sections may lie in at most `limit` others, counting themselves. -/
def parse (limit : Int) (source : Text) : Template :=
  let read := readNodes (readBody limit.toNat) 0 source
  { nodes := read.result, diagnostics := read.events.map (Fault.diagnostic source limit) }

/-- Refuses a source with problems; the error tells of the first one. -/
def parseStrict (source : Text) : Except SyntaxError Template :=
  let t := parse defaultLimit source
  match t.diagnostics with
  | [] => .ok t
  | d :: _ => .error (.ofDiagnostic d)

theorem parseStrict_ok {source : Text} (accepted : (parse defaultLimit source).diagnostics = []) :
    parseStrict source = .ok (parse defaultLimit source) := by
  simp only [parseStrict, accepted]

theorem parseStrict_error {source : Text} {d : Diagnostic} {ds : List Diagnostic}
    (found : (parse defaultLimit source).diagnostics = d :: ds) :
    parseStrict source = .error (.ofDiagnostic d) := by
  simp only [parseStrict, found]

def ok (t : Template) : Bool := t.diagnostics.isEmpty

def print (t : Template) : Text := Node.printAll t.nodes

end Template

theorem readNodes_text {body : Nat → Text → Traced Fault (Option (List Node))} {trailing : Nat} {s : Text}
    (h : (cutBefore (literal openBraces) s).2 = []) :
    readNodes body trailing s = pure (textNodes s) := by
  have hs := cutBefore_append (literal openBraces) s
  rw [h, List.append_nil] at hs
  unfold readNodes
  split
  · next hc => rw [hc] at hs; simp only at hs; rw [hs]
  · next hc => rw [hc] at h; cases h

end Stencil
