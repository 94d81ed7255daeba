import Stencil.CommandLine.Arguments
import Stencil.Path

/-!
# Commands

What the command line can ask for: to render a template, or to check one. `ofArguments_check` reads the
shortest command that checks a file.
-/

namespace Stencil.CommandLine

inductive Source where
  | stdin
  | file (path : Path)
deriving DecidableEq

/-- A single dash means standard input. -/
def Source.ofText (arg : Text) : Source := if arg = ['-'] then .stdin else .file (.ofText arg)

def Source.name : Source → Text
  | stdin => "<stdin>".toList
  | file path => path.text

inductive Command where
  /-- Writes a template, filled from data and overrides; a strict command refuses templates with
  problems. -/
  | render (template : Source) (data : Option Source) (overrides : List Text) (strict : Bool)
  | check (template : Source)
deriving DecidableEq

/-! ### Usage -/

def program : Text := "stache".toList

def helpSwitch : Switch := ⟨["-h".toList, "--help".toList], .help⟩

def versionSwitch : Switch := ⟨["-v".toList, "--version".toList], .version⟩

def dataSwitch : Switch := ⟨["--data".toList], .value⟩

def setSwitch : Switch := ⟨["--set".toList], .value⟩

def strictSwitch : Switch := ⟨["--strict".toList], .flag⟩

def linesOf (ls : List String) : Text := ls.flatMap fun l => l.toList ++ ['\n']

-- The texts are laid out for a width of 80 characters.

def usage : Usage where
  program := program
  switches := [helpSwitch, versionSwitch]
  positional := "cmd".toList
  greedy := true
  synopsis := linesOf ["usage: stache [-h] [-v] \x7brender,check\x7d ..."]
  details := linesOf [
    "Mustache-style template renderer",
    "",
    "positional arguments:",
    "  \x7brender,check\x7d",
    "    render        Render a template to stdout",
    "    check         Report parse diagnostics (JSON)",
    "",
    "options:",
    "  -h, --help      show this help message and exit",
    "  -v, --version   show program's version number and exit"]

def renderUsage : Usage where
  program := program ++ " render".toList
  switches := [helpSwitch, dataSwitch, setSwitch, strictSwitch]
  positional := "template".toList
  greedy := false
  synopsis := linesOf [
    "usage: stache render [-h] [--data FILE|-] [--set KEY=VALUE] [--strict]",
    "                     template"]
  details := linesOf [
    "positional arguments:",
    "  template         template file, or - for stdin",
    "",
    "options:",
    "  -h, --help       show this help message and exit",
    "  --data FILE|-    YAML/JSON file with the template environment (- for stdin)",
    "  --set KEY=VALUE  set an environment value, dotted keys allowed (can be",
    "                   repeated)",
    "  --strict         fail on malformed tags and unterminated sections instead of",
    "                   printing them as text"]

def checkUsage : Usage where
  program := program ++ " check".toList
  switches := [helpSwitch]
  positional := "template".toList
  greedy := false
  synopsis := linesOf ["usage: stache check [-h] template"]
  details := linesOf [
    "positional arguments:",
    "  template    template file, or - for stdin",
    "",
    "options:",
    "  -h, --help  show this help message and exit"]

namespace Command

def valuesOf (a : Arguments) (s : Switch) : List Text :=
  a.given.filterMap fun (s', value) => if s' = s then value else none

/-- The last data counts; an empty name means none. -/
def ofRender (a : Arguments) : Command :=
  let data := match (valuesOf a dataSwitch).getLast? with
    | none | some [] => none
    | some arg => some (.ofText arg)
  .render (.ofText a.positional) data (valuesOf a setSwitch) (a.given.any (·.1 = strictSwitch))

def ofCheck (a : Arguments) : Command := .check (.ofText a.positional)

/-- The command of a name, and the arguments that have no place in it. -/
def ofName (name : Text) (args : List Text) : Except Stop (Command × List Text) :=
  if name = "render".toList then
    (renderUsage.read args).map fun a => (ofRender a, a.extras)
  else if name = "check".toList then
    (checkUsage.read args).map fun a => (ofCheck a, a.extras)
  else
    .error (.misuse usage ("argument cmd: invalid choice: ".toList ++ Text.quoted name ++
      " (choose from 'render', 'check')".toList))

/-- The command that arguments ask for; what has no place is refused last. -/
def ofArguments (args : List Text) : Except Stop Command := do
  let a ← usage.read args
  let (command, extras) ← ofName a.positional a.behind
  match a.extras ++ extras with
  | [] => return command
  | extras => throw (.misuse usage ("unrecognized arguments: ".toList ++ Text.join [' '] extras))

theorem ofArguments_check {arg : Text} (h : arg.head? ≠ some '-') :
    ofArguments ["check".toList, arg] = .ok (.check (.ofText arg)) := by
  have hd : arg ≠ ['-', '-'] := by rintro rfl; simp at h
  have hm : usage.mark arg = .ok .plain := by rw [Usage.mark]; simp [h]
  have hr : usage.read ["check".toList, arg] = .ok ⟨[], "check".toList, [arg], []⟩ := by
    have hs : usage.marks ["check".toList, arg] = .ok [("check".toList, .plain), (arg, .plain)] := by
      simp only [Usage.marks, hm, if_neg hd]
      rfl
    rw [Usage.read, hs]
    rfl
  have hn : ofName "check".toList [arg] = .ok (.check (.ofText arg), []) := by
    rw [ofName, if_neg (by decide), if_pos rfl, Usage.read_word checkUsage h]
    rfl
  rw [ofArguments, hr]
  show (ofName _ _ >>= _) = _
  rw [hn]
  rfl

def files : Command → List Path
  | render template data _ _ => pathOf template ++ (data.map pathOf).getD []
  | check template => pathOf template
where
  pathOf : Source → List Path
    | .stdin => []
    | .file path => [path]

def readsStdin : Command → Bool
  | render template data _ _ => template = .stdin || data = some .stdin
  | check template => template = .stdin

end Command

end Stencil.CommandLine
