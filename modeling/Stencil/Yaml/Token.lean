import Stencil.Yaml.Scalar

/-!
# Tokens of YAML

A text is cut into tokens. Indentation shows in tokens that open and close block collections. Whether a
token is a key is known only at the colon behind it, so the lexer keeps the places where a key may have
begun and puts the key token there later. `Token.ofText` is the whole lexer.
-/

namespace Stencil.Yaml

inductive Token where
  | documentStart
  | documentEnd
  | streamEnd
  | blockSequenceStart
  | blockMappingStart
  | blockEnd
  | flowSequenceStart
  | flowSequenceEnd
  | flowMappingStart
  | flowMappingEnd
  | blockEntry
  | flowEntry
  | key
  | value
  | alias (name : Text)
  | anchor (name : Text)
  /-- The tag in full; of a local one the part behind the mark. -/
  | tag (tag : Text)
  | scalar (text : Text) (plain : Bool)
deriving DecidableEq

structure KeyPlace where
  tokens : Nat
  /-- The place must be a key, being at the column of a block mapping. -/
  required : Bool
  index : Nat
  line : Nat
  column : Nat

/-- The furthest that a colon may stand behind the start of its key. -/
def keyReach : Nat := 1024

structure Lexer where
  cursor : Cursor
  tokens : Array Token
  /-- Column of the innermost block collection; -1 outside of all. -/
  indent : Int
  /-- Columns of the block collections around it. -/
  outer : List Int
  /-- The flow collections that are open, innermost first; true for mappings. -/
  flows : List Bool
  /-- Where a key may have begun, for each number of open flow collections. -/
  keys : List (Nat × KeyPlace)
  keyAllowed : Bool

abbrev Lex (α : Type) : Type := StateT Lexer (Except Fault) α

namespace Lexer

def start (s : Text) : Lexer :=
  { cursor := .ofText s, tokens := #[], indent := -1, outer := [], flows := [], keys := [], keyAllowed := true }

def depth (l : Lexer) : Nat := l.flows.length

def inFlow (l : Lexer) : Bool := !l.flows.isEmpty

end Lexer

/-! ### Steps of the lexer -/

def reading {α : Type} (r : Read α) : Lex α := do
  let (a, cursor) ← r (← get).cursor
  modify ({ · with cursor })
  return a

def push (t : Token) : Lex Unit := modify fun l => { l with tokens := l.tokens.push t }

def allowKey (b : Bool) : Lex Unit := modify ({ · with keyAllowed := b })

/-- Gives up places of keys on other lines or out of reach; a required one must not be given up. -/
def dropStaleKeys : Lex Unit := do
  let l ← get
  let stale (k : KeyPlace) : Bool := k.line ≠ l.cursor.line || keyReach < l.cursor.index - k.index
  if l.keys.any fun (_, k) => stale k && k.required then throw .malformed
  set { l with keys := l.keys.filter fun (_, k) => !stale k }

def dropKey : Lex Unit := do
  let l ← get
  if l.keys.any fun (d, k) => d = l.depth && k.required then throw .malformed
  set { l with keys := l.keys.filter fun (d, _) => d ≠ l.depth }

def noteKey : Lex Unit := do
  if (← get).keyAllowed then
    dropKey
    let l ← get
    let c := l.cursor
    let required := !l.inFlow && l.indent = c.column
    set { l with keys := (l.depth, ⟨l.tokens.size, required, c.index, c.line, c.column⟩) :: l.keys }

/-- Closes the block collections that begin right of a column. -/
def closeBlocks (column : Int) : (fuel : Nat) → Lex Unit
  | 0 => return
  | fuel + 1 => do
    let l ← get
    if !l.inFlow && column < l.indent then
      set { l with indent := l.outer.headD (-1), outer := l.outer.tail }
      push .blockEnd
      closeBlocks column fuel

/-- Opens a block collection at a column right of the innermost one; tells whether it does. -/
def openBlock (column : Int) : Lex Bool := do
  let l ← get
  if l.indent < column then
    set { l with indent := column, outer := l.indent :: l.outer }
    return true
  else return false

/-- Skips spaces, comments and ends of lines. A new line outside of flow collections may begin a key. -/
def skipGaps : (fuel : Nat) → Lex Unit
  | 0 => throw .malformed
  | fuel + 1 => do
    let inFlow := (← get).inFlow
    let _ ← reading (takeRun fun c => c = ' ' || (inFlow && c = '\t'))
    if (← reading (peek 0)) = some '#' then
      let _ ← reading (takeRun fun c => !isLineEnd (some c))
    if (← reading takeBreak).isSome then
      if !inFlow then allowKey true
      skipGaps fuel

def punctuation (t : Token) : Lex Unit := do
  reading (skip 1)
  push t

/-- A line that separates documents closes all block collections. -/
def separator (t : Token) : Lex Unit := do
  closeBlocks (-1) ((← get).outer.length + 1)
  dropKey
  allowKey false
  reading (skip 3)
  push t

def openFlow (isMapping : Bool) : Lex Unit := do
  noteKey
  modify fun l => { l with flows := isMapping :: l.flows }
  allowKey true
  punctuation (if isMapping then .flowMappingStart else .flowSequenceStart)

def closeFlow (t : Token) : Lex Unit := do
  dropKey
  modify fun l => { l with flows := l.flows.tail }
  allowKey false
  punctuation t

/-- Opens the block collection that an entry or a key begins, where one may begin. -/
def beginBlock (t : Token) : Lex Unit := do
  let l ← get
  if !l.inFlow then
    if !l.keyAllowed then throw .malformed
    if ← openBlock l.cursor.column then push t

def blockEntry : Lex Unit := do
  beginBlock .blockSequenceStart
  allowKey true
  dropKey
  punctuation .blockEntry

def explicitKey : Lex Unit := do
  beginBlock .blockMappingStart
  allowKey (!(← get).inFlow)
  dropKey
  punctuation .key

/-- Puts a token before those that followed the first `n`. -/
def insertAt (n : Nat) (t : Token) : Lex Unit :=
  modify fun l => { l with tokens := l.tokens.insertIdxIfInBounds n t }

/-- A colon. If a key may have begun at this depth, it did. -/
def colon : Lex Unit := do
  let l ← get
  match l.keys.find? fun (d, _) => d = l.depth with
  | some (_, k) =>
    set { l with keys := l.keys.filter fun (d, _) => d ≠ l.depth }
    insertAt k.tokens .key
    if !l.inFlow then
      if ← openBlock k.column then insertAt k.tokens .blockMappingStart
    allowKey false
  | none =>
    beginBlock .blockMappingStart
    allowKey (!l.inFlow)
    dropKey
  punctuation .value

/-! ### Names and tags -/

def isAnchorChar (c : Char) : Bool :=
  let n := c.toNat
  c ≠ ',' && c ≠ '[' && c ≠ ']' && c ≠ '\x7b' && c ≠ '\x7d' &&
    ((0x21 ≤ n && n ≤ 0x7E) || (0xA0 ≤ n && n ≤ 0xD7FF) || (0xE000 ≤ n && n ≤ 0xFFFD && c ≠ byteOrderMark) ||
      0x10000 ≤ n)

/-- The name behind the mark of an anchor or alias. -/
def readAnchor : Read Text := do
  skip 1
  let name ← takeRun isAnchorChar
  if name.isEmpty then fail
  match ← peek 0 with
  | none => return name
  | some c =>
    if isBreak c || " \t?:,[]\x7b\x7d%@\x60".toList.contains c then return name else fail

/-- Characters of tags; no others are read, so escapes are not. -/
def isTagChar (c : Char) : Bool := c.isAlphanum || "-;/?:@&=+$,_.!~*'()[]#".toList.contains c

/-- What the tags of the core schema begin with. -/
def coreTag : Text := "tag:yaml.org,2002:".toList

/-- A tag with its mark. Only the primary and the secondary handle are known. -/
def readTag : Read Text := do
  let tag ← match (← get).rest with
    | '!' :: '<' :: _ =>
      skip 2
      let t ← takeRun isTagChar
      if (← peek 0) ≠ some '>' || t.isEmpty then fail
      skip 1
      pure t
    | '!' :: rest =>
      if isGap rest.head? then
        skip 1
        pure ['!']
      else
        let word := rest.takeWhile fun c => c ≠ ' ' && !isBreak c
        if word.contains '!' then
          if word.head? ≠ some '!' then fail
          skip 2
          let t ← takeRun isTagChar
          if t.isEmpty then fail
          pure (coreTag ++ t)
        else
          skip 1
          let t ← takeRun isTagChar
          if t.isEmpty then fail
          pure ('!' :: t)
    | _ => fail
  match ← peek 0 with
  | some c => if c ≠ ' ' && !isBreak c then fail
  | none => pure ()
  return tag

/-! ### The lexer -/

/-- A scalar or a property of one, which may begin a key. -/
def keyable (r : Read Token) : Lex Unit := do
  noteKey
  allowKey false
  push (← reading r)

def plainScalar : Lex Unit := do
  noteKey
  allowKey false
  let l ← get
  let (text, broke) ← reading (readPlain l.inFlow (l.indent + 1))
  if broke then allowKey true
  push (.scalar text true)

def blockScalar (folded : Bool) : Lex Unit := do
  allowKey true
  dropKey
  let parent := (← get).indent
  push (.scalar (← reading (readBlock folded parent)) false)

/-- Characters that have a meaning at the start of a token. -/
def indicators : List Char := "-?:,[]\x7b\x7d#&*!|>'\"%@\x60".toList

/-- Whether the colon at the cursor separates a key and a value. In a flow mapping a gap need not follow,
unless another colon came just before and its token is still held back. -/
def isValueColon (l : Lexer) (heldBack : Bool) (next : Option Char) : Bool :=
  match l.flows with
  | [] => isGap next
  | false :: _ => isGap next
  | true :: _ => isGap next || !(heldBack && l.tokens.back? = some .value)

/-- Whether a plain scalar begins with `c` before `next`. -/
def beginsPlain (inFlow : Bool) (c : Char) (next : Option Char) : Bool :=
  if c = '-' then !isGap next
  else if c = ':' then !isGap next
  else if c = '?' then !inFlow && !isGap next
  else !(indicators.contains c || c = '\t' || isBreak c)

/-- The next token and those that it closes; tells whether there are more. -/
def nextToken : Lex Bool := do
  dropStaleKeys
  let heldBack := !(← get).keys.isEmpty
  skipGaps (← reading stepLimit)
  dropStaleKeys
  let l ← get
  closeBlocks l.cursor.column (l.outer.length + 1)
  match ← reading (peek 0) with
  | none =>
    closeBlocks (-1) (l.outer.length + 1)
    dropKey
    push .streamEnd
    return false
  | some c =>
    let next ← reading (peek 1)
    let atMargin := l.cursor.column = 0
    if c = '%' && atMargin then throw .malformed
    else if c = '-' && atMargin && (← reading (startsWithMark '-')) then separator .documentStart
    else if c = '.' && atMargin && (← reading (startsWithMark '.')) then separator .documentEnd
    else if c = '[' then openFlow false
    else if c = '\x7b' then openFlow true
    else if c = ']' then closeFlow .flowSequenceEnd
    else if c = '\x7d' then closeFlow .flowMappingEnd
    else if c = ',' then
      allowKey true
      dropKey
      punctuation .flowEntry
    else if c = '-' && isGap next then blockEntry
    else if c = '?' && (l.inFlow || isGap next) then explicitKey
    else if c = ':' && isValueColon (← get) heldBack next then colon
    else if c = '*' then keyable (.alias <$> readAnchor)
    else if c = '&' then keyable (.anchor <$> readAnchor)
    else if c = '!' then keyable (.tag <$> readTag)
    else if c = '|' && !l.inFlow then blockScalar false
    else if c = '>' && !l.inFlow then blockScalar true
    else if c = '\'' || c = '"' then keyable ((.scalar · false) <$> readQuoted)
    else if beginsPlain l.inFlow c next then plainScalar
    else throw .malformed
    return true

def allTokens : (fuel : Nat) → Lex Unit
  | 0 => throw .malformed
  | fuel + 1 => do if ← nextToken then allTokens fuel

/-- The tokens of a text, the end of the stream included. A byte order mark at the start is skipped. -/
def Token.ofText (s : Text) : Except Fault (List Token) := do
  if !s.all isAllowed then throw .malformed
  let start := Lexer.start s
  let start := if s.head? = some byteOrderMark then { start with cursor := start.cursor.advance } else start
  let (_, l) ← (allTokens (s.length + 2)).run start
  return l.tokens.toList

end Stencil.Yaml
