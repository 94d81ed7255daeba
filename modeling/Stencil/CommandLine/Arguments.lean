import Stencil.Text.Digit
import Stencil.Text.Quoted

/-!
# Command line arguments

A command takes switches and one positional argument, in any order. Long switches may be shortened, and
may have their value behind an equals sign; short ones may be written together. What follows two dashes is
positional. `read_word` says how a single word is read.
-/

namespace Stencil.CommandLine

inductive Effect where
  | help
  | version
  | flag
  | value
deriving DecidableEq

structure Switch where
  names : List Text
  effect : Effect
deriving DecidableEq

def Switch.takesValue (s : Switch) : Bool := s.effect = .value

def Switch.title (s : Switch) : Text := Text.join ['/'] s.names

structure Usage where
  /-- The words that start the command. -/
  program : Text
  switches : List Switch
  positional : Text
  /-- Whether the positional argument takes all arguments behind it too. -/
  greedy : Bool
  /-- The lines that tell how to call the command. -/
  synopsis : Text
  /-- What the help says behind the synopsis. -/
  details : Text
deriving DecidableEq

inductive Stop where
  | help (usage : Usage)
  | version
  | misuse (usage : Usage) (message : Text)
deriving DecidableEq

structure Arguments where
  given : List (Switch × Option Text)
  positional : Text
  /-- What a greedy positional argument takes behind it. -/
  behind : List Text
  /-- What has no place. -/
  extras : List Text
deriving DecidableEq

namespace Usage

def names (u : Usage) : List (Text × Switch) := u.switches.flatMap fun s => s.names.map (·, s)

def find? (u : Usage) (name : Text) : Option Switch := u.names.lookup name

def missing (u : Usage) : Stop :=
  .misuse u ("the following arguments are required: ".toList ++ u.positional)

def misuse (u : Usage) (s : Switch) (message : Text) : Stop :=
  .misuse u ("argument ".toList ++ s.title ++ ": ".toList ++ message)

end Usage

/-! ### What each argument is -/

inductive Mark where
  | plain
  /-- Two dashes, the first time. -/
  | dashes
  /-- A switch under one of its names, with what is attached to it. -/
  | switch (switch : Switch) (name : Text) (attached : Option Text)
  /-- It looks like a switch, but there is none of the name. -/
  | unknown
deriving DecidableEq

abbrev Item := Text × Mark

/-- A dash and a number, with a point or without; a line feed may follow. -/
def isNegativeNumber : Text → Bool
  | '-' :: s =>
    let s := if s.getLast? = some '\n' then s.dropLast else s
    match s.dropWhile Text.isDigit with
    | [] => !s.isEmpty
    | '.' :: fraction => !fraction.isEmpty && fraction.all Text.isDigit
    | _ => false
  | _ => false

namespace Usage

/-- The switches that an argument may stand for if it is none of their names: a long one shortened, or a
short one with more behind it. -/
def candidates (u : Usage) (arg : Text) : List Mark :=
  match arg with
  | '-' :: '-' :: _ =>
    let (stem, attached) := match Text.cut? '=' arg with
      | some (stem, value) => (stem, some ('=' :: value))
      | none => (arg, none)
    u.names.filterMap fun (name, s) => (Text.after? stem name).map fun _ => .switch s name attached
  | _ =>
    u.names.filterMap fun (name, s) =>
      if name = arg.take 2 then some (.switch s name (some (arg.drop 2))) else none

/-- The switch with the very name of an argument, or with the name before its equals sign. -/
def named? (u : Usage) (arg : Text) : Option Mark :=
  match u.find? arg, Text.cut? '=' arg with
  | some s, _ => some (.switch s arg none)
  | none, some (name, value) => (u.find? name).map (.switch · name (some ('=' :: value)))
  | none, none => none

def mark (u : Usage) (arg : Text) : Except Stop Mark :=
  if arg.head? ≠ some '-' || arg.length = 1 then .ok .plain
  else match u.named? arg, u.candidates arg with
    | some m, _ => .ok m
    | none, [m] => .ok m
    | none, [] => .ok (if isNegativeNumber arg || arg.contains ' ' then .plain else .unknown)
    | none, several =>
      let titles := several.filterMap fun
        | .switch _ name _ => some name
        | _ => none
      .error (.misuse u ("ambiguous option: ".toList ++ arg ++ " could match ".toList ++
        Text.join ", ".toList titles))

/-- Each argument with what it looks like; behind two dashes all are plain. -/
def marks (u : Usage) : List Text → Except Stop (List Item)
  | [] => .ok []
  | arg :: rest => do
    if arg = ['-', '-'] then return (arg, .dashes) :: rest.map (·, .plain)
    let m ← u.mark arg
    return (arg, m) :: (← u.marks rest)

/-! ### The switches of one argument -/

/-- The switches that one argument stands for. -/
structure Expansion where
  given : List (Switch × Option Text)
  /-- What has no place. -/
  extras : List Text
  /-- Whether the argument behind is the value of the last switch. -/
  takesNext : Bool

def expandAlone (u : Usage) (next : Option Item) (s : Switch) : Except Stop Expansion :=
  if s.takesValue then
    match next with
    | some (arg, .plain) => .ok ⟨[(s, some arg)], [], true⟩
    | _ => .error (u.misuse s "expected one argument".toList)
  else .ok ⟨[(s, none)], [], false⟩

def ignored (u : Usage) (s : Switch) (value : Text) : Except Stop Expansion :=
  .error (u.misuse s ("ignored explicit argument ".toList ++ Text.quoted value))

def Expansion.behind (s : Switch) (e : Expansion) : Expansion := { e with given := (s, none) :: e.given }

/-- A switch with text attached. The text is its value, less an equals sign in front; for a short switch
without value it is further short switches. -/
def expandAttached (u : Usage) (next : Option Item) (s : Switch) (name : Text) :
    (text : Text) → Except Stop Expansion
  | [] => if s.takesValue then .ok ⟨[(s, some [])], [], false⟩ else u.ignored s []
  | c :: rest =>
    let value := if c = '=' then rest else c :: rest
    if s.takesValue then .ok ⟨[(s, some value)], [], false⟩
    else if name[1]? = some '-' || c = '=' || c = '-' then u.ignored s value
    else match u.find? ['-', c] with
      | none => .ok ⟨[(s, none)], ['-' :: c :: rest], false⟩
      | some s' =>
        if rest.isEmpty then .behind s <$> u.expandAlone next s'
        else .behind s <$> u.expandAttached next s' ['-', c] rest

def expand (u : Usage) (next : Option Item) (s : Switch) (name : Text) :
    Option Text → Except Stop Expansion
  | none => u.expandAlone next s
  | some text => u.expandAttached next s name text

/-! ### Taking arguments -/

structure Taken where
  given : List (Switch × Option Text)
  /-- The positional argument with those behind it; empty before it comes. -/
  positional : List Text
  extras : List Text

/-- The first switch that stops the command. -/
def stops? (u : Usage) (given : List (Switch × Option Text)) : Option Stop :=
  given.findSome? fun (s, _) =>
    match s.effect with
    | .help => some (.help u)
    | .version => some .version
    | _ => none

/-- The number of items at the start that the positional argument takes; none if it is not there. -/
def reach? (u : Usage) (items : List Item) : Option Nat :=
  let leading := (items.takeWhile (·.2 = .dashes)).length
  match items.drop leading with
  | (_, .plain) :: rest =>
    if u.greedy then some items.length
    else some (leading + 1 + (rest.takeWhile (·.2 = .dashes)).length)
  | _ => none

/-- The texts of the positional argument; without the first two dashes unless it is greedy. -/
def positionalTexts (u : Usage) (items : List Item) : List Text :=
  let texts := items.map (·.1)
  if u.greedy then texts else texts.erase ['-', '-']

def take (u : Usage) (t : Taken) : (items : List Item) → (fuel : Nat) → Except Stop Taken
  | [], _ => .ok t
  | items, 0 => .ok { t with extras := t.extras ++ items.map (·.1) }
  | (arg, m) :: rest, fuel + 1 =>
    match m with
    | .unknown => u.take { t with extras := t.extras ++ [arg] } rest fuel
    | .switch s name attached => do
      let e ← u.expand rest.head? s name attached
      match u.stops? e.given with
      | some stop => .error stop
      | none =>
        u.take { t with given := t.given ++ e.given, extras := t.extras ++ e.extras }
          (if e.takesNext then rest.tail else rest) fuel
    | _ =>
      match t.positional, u.reach? ((arg, m) :: rest) with
      | [], some n =>
        let items := (arg, m) :: rest
        u.take { t with positional := u.positionalTexts (items.take n) } (items.drop n) fuel
      | _, _ => u.take { t with extras := t.extras ++ [arg] } rest fuel

/-- Reads the arguments of a command; the positional one must be there. -/
def read (u : Usage) (args : List Text) : Except Stop Arguments := do
  let t ← u.take ⟨[], [], []⟩ (← u.marks args) args.length
  match t.positional with
  | [] => throw u.missing
  | positional :: behind => return { given := t.given, positional, behind, extras := t.extras }

theorem read_word (u : Usage) {word : Text} (h : word.head? ≠ some '-') :
    u.read [word] = .ok ⟨[], word, [], []⟩ := by
  have hd : word ≠ ['-', '-'] := by rintro rfl; simp at h
  have hr : u.reach? [(word, .plain)] = some 1 := by unfold reach?; simp
  have ht : u.positionalTexts [(word, .plain)] = [word] := by
    unfold positionalTexts; simp [hd]
  simp [read, marks, hd, mark, h, take, hr, ht, bind, Except.bind, pure, Except.pure]

end Usage

end Stencil.CommandLine
