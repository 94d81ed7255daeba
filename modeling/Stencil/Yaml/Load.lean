import Stencil.Value.Mapping
import Stencil.Yaml.Resolve
import Stencil.Yaml.Tree

/-!
# Values of documents

The value that a document stands for. Collections are filled level by level, so of several faults the one
in the outermost collection counts, and of those in one level the first.
-/

namespace Stencil.Yaml

/-! ### Faults in order -/

/-- A fault with the level of the collection that it is found in. -/
structure Located where
  level : Nat
  fault : Fault

/-- Of two faults the one at the lesser level; the first one if the levels are equal. -/
def Located.sooner (a b : Located) : Located := if b.level < a.level then b else a

def firstFault? : List Located → Option Located
  | [] => none
  | a :: as =>
    match firstFault? as with
    | none => some a
    | some b => some (a.sooner b)

/-- A value, or the faults that stand in its way. -/
abbrev Built (α : Type) : Type := Except (List Located) α

def faultsOf {α : Type} : Built α → List Located
  | .ok _ => []
  | .error ls => ls

def gather {α : Type} : List (Built α) → Built (List α)
  | [] => .ok []
  | .ok a :: rest => (a :: ·) <$> gather rest
  | .error ls :: rest => .error (ls ++ faultsOf (gather rest))

/-! ### Keys -/

/-- The kind of value that a key cannot hold: keys are scalars, or tuples of them at any depth. -/
def unhashable? : Value → Option Text
  | .list items => some (Value.list items).kind
  | .mapping m => some (Value.mapping m).kind
  | .tuple items => unhashableIn? items
  | _ => none
where
  unhashableIn? : List Value → Option Text
    | [] => none
    | v :: vs => (unhashable? v).or (unhashableIn? vs)

/-- A value as a key: a list becomes a tuple, and a mapping is no key. -/
def asKey : Value → Except Fault Value
  | .list items =>
    match unhashable?.unhashableIn? items with
    | some kind => .error (.unhashable kind)
    | none => .ok (.tuple items)
  | .mapping _ => .error .malformed
  | v => .ok v

/-! ### Scalars -/

/-- The truth value that a scalar with the tag of booleans is. -/
def truthOf? (s : Text) : Option Bool :=
  let s := s.map Char.toLower
  if ["yes".toList, "y".toList, "true".toList, "on".toList].any (· = s) then some true
  else if ["no".toList, "n".toList, "false".toList, "off".toList].any (· = s) then some false
  else none

/-- The value of a scalar with a tag of the core schema. -/
def taggedScalar (tag s : Text) : Except Fault Resolved :=
  let is (name : String) : Bool := tag = coreTag ++ name.toList
  if tag = ['!'] then resolve s
  else if is "str" then .ok (.value (.str s))
  else if is "null" then .ok (.value .null)
  else if is "int" then .value <$> resolveInt s
  else if is "float" then .value <$> resolveFloat s
  else if is "bool" then
    match truthOf? s with
    | some b => .ok (.value (.bool b))
    | none => .error .malformed
  else if is "timestamp" then
    match timestamp s with
    | some (w, _) => .value <$> resolveTimestamp w
    | none => .error .malformed
  else .error .malformed

def scalarValue (tag : Option Text) (s : Text) (plain : Bool) : Except Fault Resolved :=
  match tag with
  | some tag => taggedScalar tag s
  | none => if plain then resolve s else .ok (.value (.str s))

/-! ### Entries of mappings -/

def keyMeaning? : Tree → Option Resolved
  | .scalar tag s plain => (scalarValue tag s plain).toOption
  | _ => none

def isMergeKey (t : Tree) : Bool :=
  match keyMeaning? t with
  | some .merge => true
  | _ => false

/-- A key of a tree, whose value as a value is `built`. -/
def keyOf (level : Nat) (t : Tree) (built : Built Value) : Built Value :=
  match keyMeaning? t with
  | some .equals => .ok (.str ['='])
  | _ => built.bind fun k => (asKey k).mapError fun f => [⟨level, f⟩]

abbrev BuiltEntries := List (Built Value × Built Value)

/-- What is wrong with an entry that follows others. Where `unique` holds its key must be new. -/
def faultsOfEntry (level : Nat) (unique : Bool) (before : List (Value × Value)) (key value : Built Value) :
    List Located :=
  let twice := match key with
    | .ok k => if unique && (keyed? k before).isSome then [⟨level, .malformed⟩] else []
    | .error _ => []
  faultsOf key ++ faultsOf value ++ twice

/-- A mapping of entries that follow others. -/
def collect (level : Nat) (unique : Bool) (before : List (Value × Value)) (faults : List Located) :
    BuiltEntries → Built Value
  | [] => if faults.isEmpty then .ok (.mapping (.entries (entriesOfList before))) else .error faults
  | (key, value) :: es =>
    let before' := match key with
      | .ok k => before ++ [(k, value.toOption.getD .null)]
      | .error _ => before
    collect level unique before' (faults ++ faultsOfEntry level unique before key value) es

/-- Whether a collection of this name may have the tag. -/
def allowsTag (name : String) : Option Text → Bool
  | none => true
  | some tag => tag = coreTag ++ name.toList || tag = ['!']

/-! ### Collections -/

mutual

/-- The value of a tree in a collection of a level; `deep` trees are filled at that level at once. -/
def build (level : Nat) (deep : Bool) : Tree → Built Value
  | .scalar tag s plain =>
    match scalarValue tag s plain with
    | .ok (.value v) => .ok v
    | .ok .merge => .error [⟨level, .malformed⟩]
    | .ok .equals => .error [⟨level, .malformed⟩]
    | .error f => .error [⟨level, f⟩]
  | .sequence tag items =>
    if allowsTag "seq" tag then
      .list <$> gather (buildAll (if deep then level else level + 1) deep items)
    else .error [⟨level, .malformed⟩]
  | .mapping tag entries =>
    if allowsTag "map" tag then
      let inner := if deep then level else level + 1
      match buildEntries inner deep [] entries with
      | .ok (merged, own) => collect inner merged.isEmpty [] [] (merged ++ own)
      | .error f => .error [⟨inner, f⟩]
    else .error [⟨level, .malformed⟩]

def buildAll (level : Nat) (deep : Bool) : List Tree → List (Built Value)
  | [] => []
  | t :: ts => build level deep t :: buildAll level deep ts

/-- The entries that merge keys bring into a mapping, and its own. `merged` are those brought in so far;
behind them no second merge key may come. -/
def buildEntries (level : Nat) (deep : Bool) (merged : BuiltEntries) :
    List (Tree × Tree) → Except Fault (BuiltEntries × BuiltEntries)
  | [] => .ok (merged, [])
  | (k, v) :: es =>
    if isMergeKey k then
      if merged.isEmpty then
        match broughtBy level deep v with
        | .ok brought => buildEntries level deep brought es
        | .error f => .error f
      else .error .malformed
    else
      match buildEntries level deep merged es with
      | .ok (merged, own) => .ok (merged, (keyOf level k (build level true k), build level deep v) :: own)
      | .error f => .error f

/-- What the value of a merge key brings in: the entries of a mapping, or of several, of which the earlier
ones come last and so count. -/
def broughtBy (level : Nat) (deep : Bool) : Tree → Except Fault BuiltEntries
  | .mapping _ es => (buildEntries level deep [] es).map fun (merged, own) => merged ++ own
  | .sequence _ items => broughtByAll level deep items
  | .scalar _ _ _ => .error .malformed

def broughtByAll (level : Nat) (deep : Bool) : List Tree → Except Fault BuiltEntries
  | [] => .ok []
  | .mapping _ es :: items =>
    match buildEntries level deep [] es, broughtByAll level deep items with
    | .ok (merged, own), .ok later => .ok (later ++ (merged ++ own))
    | _, _ => .error .malformed
  | _ :: _ => .error .malformed

end

/-- The value of the document that a text holds; null if there is none. -/
def load (s : Text) : Except Fault Value := do
  match ← Tree.ofText? s with
  | none => return .null
  | some tree =>
    match build 0 false tree with
    | .ok v => return v
    | .error ls =>
      match firstFault? ls with
      | some l => throw l.fault
      | none => throw .malformed

/-- The text of a fault that is about a value and not about the form of the document. -/
def Fault.message : Fault → Text
  | malformed => []
  | numeral f => f.message
  | calendar f => f.message
  | unhashable kind => "unhashable type: '".toList ++ kind ++ ['\'']
  | codePoint _ => "chr() arg not in range(0x110000)".toList

end Stencil.Yaml
