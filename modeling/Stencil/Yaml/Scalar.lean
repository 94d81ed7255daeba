import Stencil.Yaml.Cursor

/-!
# Scalars of YAML

The three forms of scalars: plain, in quotes, and as indented blocks. Each reader stands at the first
character of its form and yields the text that the scalar denotes.
-/

namespace Stencil.Yaml

/-- What the ends of lines between two words of a folded scalar stand for: the first one for itself if
it is a separator, otherwise for nothing or, when it is alone, for a space. -/
def foldBreaks (first : Char) (more : Text) : Text :=
  if first ≠ '\n' then first :: more else if more.isEmpty then [' '] else more

/-! ### Plain scalars -/

/-- The number of characters of a plain scalar before a gap or an indicator. -/
def plainLength (inFlow : Bool) : Text → Nat
  | [] => 0
  | c :: s =>
    if c = ':' && !isGap s.head? then plainLength inFlow s + 1
    else if c = '?' then plainLength inFlow s + 1
    else if isGap (some c) || c = ':' || (inFlow && (c = ',' || c = '[' || c = ']' || c = '\x7b' || c = '\x7d'))
    then 0
    else plainLength inFlow s + 1

/-- Spaces and further ends of lines behind the first one; nothing at a line that separates documents. -/
def plainBreaks : (fuel : Nat) → Read (Option Text)
  | 0 => fail
  | fuel + 1 => do
    match ← peek 0 with
    | some ' ' => skip 1; plainBreaks fuel
    | _ =>
      match ← takeBreak with
      | none => return some []
      | some b =>
        if ← atSeparator then return none
        return (← plainBreaks fuel).map (b :: ·)

/-- What stands between two words of a plain scalar, and whether a line ends there. -/
def plainGap : Read (Text × Bool) := do
  let spaces ← takeRun (· = ' ')
  match ← takeBreak with
  | none => return (spaces, false)
  | some first =>
    if ← atSeparator then return ([], true)
    match ← plainBreaks (← stepLimit) with
    | none => return ([], true)
    | some more => return (foldBreaks first more, true)

/-- The rest of a plain scalar behind `gap`, and whether a line ends behind it. -/
def plainRest (inFlow : Bool) (indent : Int) : (gap : Text) → (broke : Bool) → (fuel : Nat) → Read (Text × Bool)
  | _, _, 0 => fail
  | gap, broke, fuel + 1 => do
    let n := plainLength inFlow (← get).rest
    if (← peek 0) = some '#' || n = 0 then return ([], broke)
    let word ← take n
    let (gap', broke') ← plainGap
    let stop := gap'.isEmpty || (← peek 0) = some '#' || (!inFlow && ((← get).column : Int) < indent)
    if stop then return (gap ++ word, broke')
    let (rest, broke'') ← plainRest inFlow indent gap' broke' fuel
    return (gap ++ word ++ rest, broke'')

/-- A plain scalar whose further lines are indented by `indent` at least, and whether a line ends behind
it. -/
def readPlain (inFlow : Bool) (indent : Int) : Read (Text × Bool) := do
  plainRest inFlow indent [] false (← stepLimit)

/-! ### Quoted scalars -/

def escapeOf? (c : Char) : Option Char :=
  match c with
  | '0' => some '\x00'
  | 'a' => some '\x07'
  | 'b' => some '\x08'
  | 't' => some '\t'
  | '\t' => some '\t'
  | 'n' => some '\n'
  | 'v' => some '\x0b'
  | 'f' => some '\x0c'
  | 'r' => some '\r'
  | 'e' => some '\x1b'
  | ' ' => some ' '
  | '"' => some '"'
  | '/' => some '/'
  | '\\' => some '\\'
  | 'N' => some '\u0085'
  | '_' => some '\u00A0'
  | 'L' => some '\u2028'
  | 'P' => some '\u2029'
  | _ => none

/-- The number of hexadecimal digits behind a letter that stands behind a backslash. -/
def escapeWidth? (c : Char) : Option Nat :=
  match c with
  | 'x' => some 2
  | 'u' => some 4
  | 'U' => some 8
  | _ => none

def readCode (width : Nat) : Read Char := do
  let ds := ((← get).rest.take width).filterMap fun c => if c.toNat < 0x80 then Numeral.valueIn? 16 c else none
  if ds.length < width then fail
  let n := Text.ofDigits 16 ds
  if Nat.isValidChar n then skip width
  else if 0x110000 ≤ n then throw (.codePoint n)
  else fail
  return Char.ofNat n

/-- Ends of lines, with the blanks at the starts of lines left out. -/
def quotedBreaks : (fuel : Nat) → Read Text
  | 0 => fail
  | fuel + 1 => do
    if ← atSeparator then fail
    let _ ← takeRun fun c => c = ' ' || c = '\t'
    match ← takeBreak with
    | none => return []
    | some b => return b :: (← quotedBreaks fuel)

def isQuotedPlain (c : Char) : Bool :=
  !(isBreak c) && c != ' ' && c != '\t' && c != '\'' && c != '"' && c != '\\'

/-- A quoted scalar behind its opening quote, up to and with the closing one. -/
def readQuotedRest (quote : Char) : (fuel : Nat) → Read Text
  | 0 => fail
  | fuel + 1 => do
    let word ← takeRun isQuotedPlain
    let andThen (t : Text) : Read Text := do return word ++ t ++ (← readQuotedRest quote fuel)
    match ← peek 0 with
    | none => fail
    | some c =>
      if c = quote then
        skip 1
        if quote = '\'' && (← peek 0) = some '\'' then skip 1; andThen ['\'']
        else return word
      else if c = '\\' && quote = '"' then
        skip 1
        match ← peek 0 with
        | none => fail
        | some e =>
          match escapeOf? e, escapeWidth? e with
          | some x, _ => skip 1; andThen [x]
          | none, some width => skip 1; andThen [← readCode width]
          | none, none =>
            match ← takeBreak with
            | none => fail
            | some _ => andThen (← quotedBreaks (← stepLimit))
      else if c = ' ' || c = '\t' || isBreak c then
        let blanks ← takeRun fun c => c = ' ' || c = '\t'
        match ← takeBreak with
        | none => andThen blanks
        | some first => andThen (foldBreaks first (← quotedBreaks (← stepLimit)))
      else skip 1; andThen [c]

def readQuoted : Read Text := do
  match ← peek 0 with
  | some quote =>
    skip 1
    readQuotedRest quote (← stepLimit)
  | none => fail

/-! ### Block scalars -/

/-- What happens to the ends of lines at the end of a block scalar. -/
inductive Chomping where
  | strip
  | clip
  | keep

/-- The indentation indicator: a digit from 1 to 9. -/
def readIncrement? : Read (Option Nat) := do
  match ← peek 0 with
  | some c =>
    if c.isDigit then
      if c = '0' then fail
      skip 1
      return some (c.toNat - '0'.toNat)
    else return none
  | none => return none

def readChomping? : Read (Option Chomping) := do
  match ← peek 0 with
  | some '+' => skip 1; return some .keep
  | some '-' => skip 1; return some .strip
  | _ => return none

/-- The line of a block scalar's indicators behind the first one. -/
def readBlockHeader : Read (Chomping × Option Nat) := do
  let header ← match ← readChomping? with
    | some chomping => pure (chomping, ← readIncrement?)
    | none =>
      let increment ← readIncrement?
      pure ((← readChomping?).getD .clip, increment)
  match ← peek 0 with
  | some c => if c ≠ ' ' && !isBreak c then fail
  | none => pure ()
  let _ ← takeRun (· = ' ')
  if (← peek 0) = some '#' then let _ ← takeRun fun c => !isLineEnd (some c)
  if !isLineEnd (← peek 0) then fail
  let _ ← takeBreak
  return header

def skipIndent (indent : Int) : Read Unit := do
  let room := (indent - (← get).column).toNat
  skip (((← get).rest.take room).takeWhile (· = ' ')).length

def blockBreaks (indent : Int) : (fuel : Nat) → Read Text
  | 0 => fail
  | fuel + 1 => do
    skipIndent indent
    match ← takeBreak with
    | none => return []
    | some b => return b :: (← blockBreaks indent fuel)

/-- Leading empty lines of a block scalar with the widest column in them. The first of them that ends
behind column zero bounds those that follow. -/
def leadingBreaks (first : Option Nat) (widest : Nat) : (fuel : Nat) → Read (Text × Nat)
  | 0 => fail
  | fuel + 1 => do
    let _ ← takeRun (· = ' ')
    let column := (← get).column
    let widest := max widest column
    match ← takeBreak with
    | none =>
      if let some f := first then
        if 0 < f && f < widest then fail
      return ([], widest)
    | some b =>
      let (more, widest) ← leadingBreaks (first.or (some column)) widest fuel
      return (b :: more, widest)

/-- The lines of a block scalar at column `indent`, behind the ends of lines `breaks`, and the ends of
lines that follow the last one. -/
def blockLines (folded topLevel : Bool) (indent : Int) : (breaks : Text) → (fuel : Nat) →
    Read (Text × Option Char × Text)
  | _, 0 => fail
  | breaks, fuel + 1 => do
    if ((← get).column : Int) ≠ indent || (← peek 0).isNone then return ([], none, breaks)
    let isText (c : Option Char) : Bool := c ≠ some ' ' && c ≠ some '\t'
    let startsText := isText (← peek 0)
    let line ← takeRun fun c => !isLineEnd (some c)
    let lineBreak ← takeBreak
    let next ← blockBreaks indent (← stepLimit)
    let here := breaks ++ line
    if topLevel && (← get).column = 0 && (← atSeparator) then return (here, lineBreak, next)
    if ((← get).column : Int) = indent && (← peek 0).isSome then
      let between :=
        if folded && lineBreak = some '\n' && startsText && isText (← peek 0) then
          if next.isEmpty then [' '] else []
        else lineBreak.toList
      let (more, last, trailing) ← blockLines folded topLevel indent next fuel
      return (here ++ between ++ more, last, trailing)
    else return (here, lineBreak, next)

/-- A literal or folded block below something that is indented by `parent`. -/
def readBlock (folded : Bool) (parent : Int) : Read Text := do
  skip 1
  let (chomping, increment) ← readBlockHeader
  let least := parent + 1
  let (breaks, indent) ← match increment with
    | none =>
      let (breaks, widest) ← leadingBreaks none 0 (← stepLimit)
      pure (breaks, max least widest)
    | some n =>
      let indent := max least 1 + n - 1
      pure (← blockBreaks indent (← stepLimit), indent)
  let topLevel := least = 0 && increment.isNone
  let (body, last, trailing) ← blockLines folded topLevel indent breaks (← stepLimit)
  match chomping with
  | .strip => return body
  | .clip => return body ++ last.toList
  | .keep => return body ++ last.toList ++ trailing

end Stencil.Yaml
