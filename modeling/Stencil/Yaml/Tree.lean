import Stencil.Yaml.Token

/-!
# Documents of YAML

A document is a tree of scalars, sequences and mappings. It is read from the tokens by recursive descent;
an alias stands for the tree under its anchor. `Tree.ofText?` reads a text that holds one document at most.
-/

namespace Stencil.Yaml

inductive Tree where
  | scalar (tag : Option Text) (text : Text) (plain : Bool)
  | sequence (tag : Option Text) (items : List Tree)
  | mapping (tag : Option Text) (entries : List (Tree × Tree))

instance : Inhabited Tree := ⟨.scalar none [] true⟩

/-- What stands where a value is left out. -/
def Tree.absent : Tree := .scalar none [] true

/-- The tokens to be read, and the trees under the anchors so far, the latest first. -/
structure Reading where
  tokens : List Token
  anchors : List (Text × Tree)

abbrev Build (α : Type) : Type := StateT Reading (Except Fault) α

def next : Build Token := do return (← get).tokens.headD .streamEnd

def drop : Build Unit := modify fun r => { r with tokens := r.tokens.tail }

def accept (t : Token) : Build Bool := do
  if (← next) = t then
    drop
    return true
  else return false

def nextIsIn (ts : List Token) : Build Bool := do return ts.contains (← next)

/-- The name and the tag in front of a node, in either order. -/
def properties : Build (Option Text × Option Text) := do
  match ← next with
  | .anchor name =>
    drop
    match ← next with
    | .tag tag => drop; return (some name, some tag)
    | _ => return (some name, none)
  | .tag tag =>
    drop
    match ← next with
    | .anchor name => drop; return (some name, some tag)
    | _ => return (none, some tag)
  | _ => return (none, none)

/-- Which collections a node may be: in flow collections no block collections, and as the value of a block
mapping also a sequence that is not indented. -/
inductive Place where
  | flow
  | block
  | blockValue
deriving DecidableEq

mutual

def node (place : Place) : (fuel : Nat) → Build Tree
  | 0 => throw .malformed
  | fuel + 1 => do
    if let .alias name ← next then
      drop
      match (← get).anchors.lookup name with
      | some tree => return tree
      | none => throw .malformed
    else
      let (anchor, tag) ← properties
      let tree ← content place anchor tag fuel
      if let some name := anchor then
        modify fun r => { r with anchors := (name, tree) :: r.anchors }
      return tree

def content (place : Place) (anchor tag : Option Text) : (fuel : Nat) → Build Tree
  | 0 => throw .malformed
  | fuel + 1 => do
    match ← next with
    | .scalar text plain =>
      drop
      return .scalar tag text plain
    | .flowSequenceStart =>
      drop
      return .sequence tag (← flowItems true fuel)
    | .flowMappingStart =>
      drop
      return .mapping tag (← flowEntries true fuel)
    | t =>
      if t = .blockEntry && place = .blockValue then return .sequence tag (← looseItems fuel)
      else if t = .blockSequenceStart && place ≠ .flow then
        drop
        return .sequence tag (← blockItems fuel)
      else if t = .blockMappingStart && place ≠ .flow then
        drop
        return .mapping tag (← blockEntries fuel)
      else if anchor.isSome || tag.isSome then return .scalar tag [] (tag.isNone)
      else throw .malformed

/-- A node, unless one of these tokens comes next. -/
def nodeUnless (stops : List Token) (place : Place) : (fuel : Nat) → Build Tree
  | 0 => throw .malformed
  | fuel + 1 => do if ← nextIsIn stops then return .absent else node place fuel

/-- The node behind a colon; absent where there is no colon or one of these tokens follows it. -/
def valueUnless (stops : List Token) (place : Place) : (fuel : Nat) → Build Tree
  | 0 => throw .malformed
  | fuel + 1 => do if ← accept .value then nodeUnless stops place fuel else return .absent

/-- The items of a block sequence, with its end. -/
def blockItems : (fuel : Nat) → Build (List Tree)
  | 0 => throw .malformed
  | fuel + 1 => do
    if ← accept .blockEntry then
      let item ← nodeUnless [.blockEntry, .blockEnd] .block fuel
      return item :: (← blockItems fuel)
    else if ← accept .blockEnd then return []
    else throw .malformed

/-- The items of a sequence that is indented no more than its key; it ends with no token of its own. -/
def looseItems : (fuel : Nat) → Build (List Tree)
  | 0 => throw .malformed
  | fuel + 1 => do
    if ← accept .blockEntry then
      let item ← nodeUnless [.blockEntry, .key, .value, .blockEnd] .block fuel
      return item :: (← looseItems fuel)
    else return []

/-- The entries of a block mapping, with its end. Keys and values may be left out. -/
def blockEntries : (fuel : Nat) → Build (List (Tree × Tree))
  | 0 => throw .malformed
  | fuel + 1 => do
    let stops := [.key, .value, .blockEnd]
    if ← accept .key then
      let key ← nodeUnless stops .blockValue fuel
      let value ← valueUnless stops .blockValue fuel
      return (key, value) :: (← blockEntries fuel)
    else if (← next) = .value then
      let value ← valueUnless stops .blockValue fuel
      return (.absent, value) :: (← blockEntries fuel)
    else if ← accept .blockEnd then return []
    else throw .malformed

/-- The items of a flow sequence, with its end. A pair among them is a mapping of its own. -/
def flowItems (first : Bool) : (fuel : Nat) → Build (List Tree)
  | 0 => throw .malformed
  | fuel + 1 => do
    if ← accept .flowSequenceEnd then return []
    if !first then
      if !(← accept .flowEntry) then throw .malformed
    if ← accept .key then
      let key ← nodeUnless [.value, .flowEntry, .flowSequenceEnd] .flow fuel
      let value ← valueUnless [.flowEntry, .flowSequenceEnd] .flow fuel
      return .mapping none [(key, value)] :: (← flowItems false fuel)
    else if ← accept .flowSequenceEnd then return []
    else
      let item ← node .flow fuel
      return item :: (← flowItems false fuel)

def flowEntries (first : Bool) : (fuel : Nat) → Build (List (Tree × Tree))
  | 0 => throw .malformed
  | fuel + 1 => do
    if ← accept .flowMappingEnd then return []
    if !first then
      if !(← accept .flowEntry) then throw .malformed
    let stops := [.flowEntry, .flowMappingEnd]
    if ← accept .key then
      let key ← nodeUnless (.value :: stops) .flow fuel
      let value ← valueUnless stops .flow fuel
      return (key, value) :: (← flowEntries false fuel)
    else if (← next) = .value then
      let value ← valueUnless stops .flow fuel
      return (.absent, value) :: (← flowEntries false fuel)
    else if ← accept .flowMappingEnd then return []
    else
      let key ← node .flow fuel
      return (key, .absent) :: (← flowEntries false fuel)

end

/-- A stream with at most one document. Behind the line that opens it, the document may be left out. -/
def stream (fuel : Nat) : Build (Option Tree) := do
  if ← accept .streamEnd then return none
  let tree ←
    if ← accept .documentStart then nodeUnless [.documentStart, .documentEnd, .streamEnd] .block fuel
    else node .block fuel
  let _ ← accept .documentEnd
  if ← accept .streamEnd then return some tree else throw .malformed

/-- The document of a text; none if there is nothing but blanks and comments. -/
def Tree.ofText? (s : Text) : Except Fault (Option Tree) := do
  let tokens ← Token.ofText s
  let (tree, _) ← (stream (4 * tokens.length + 8)).run ⟨tokens, []⟩
  return tree

end Stencil.Yaml
