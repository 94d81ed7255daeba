import Stencil.Error
import Stencil.Value.Display
import Stencil.Value.Equality

/-!
# Operations on mappings

Look-up by any key, access to an item, the merged list of entries, and writes to a list of entries. A write keeps
the place of a key that is there and puts a new key last. `named?_put_same` and `named?_put_other` say what
a write does to look-ups by name.
-/

namespace Stencil

/-- The value of the first entry whose key equals `key`. -/
def keyed? (key : Value) (es : List (Value × Value)) : Option Value :=
  (es.find? fun e => e.1.agrees key).map (·.2)

def putEntry (key v : Value) : List (Value × Value) → List (Value × Value)
  | [] => [(key, v)]
  | (k, w) :: es => if k.agrees key then (k, v) :: es else (k, w) :: putEntry key v es

def eraseEntry (key : Value) (es : List (Value × Value)) : List (Value × Value) :=
  es.eraseP fun e => e.1.agrees key

/-- The entries of a list of pairs: a repeated key keeps its first place and takes the last value. -/
def entriesOfList (pairs : List (Value × Value)) : List (Value × Value) :=
  pairs.foldl (fun es (k, v) => putEntry k v es) []

/-- The failure of an access to a key that is not there. -/
structure MissingKey where
  key : Value

namespace MissingKey

def errorClass (_ : MissingKey) : ErrorClass := .internal .key

def message (e : MissingKey) : Except NumeralFault Text := e.key.display

end MissingKey

namespace Mapping

def get? (key : Value) (m : Mapping) : Option Value := keyed? key m.allEntries

/-- The value of a key that is there: the inner mapping is asked for its item if it has the key, and else the outer
one. -/
def getItem (key : Value) : Mapping → Except MissingKey Value
  | entries es => (keyed? key es).elim (.error ⟨key⟩) .ok
  | layered inner outer => if inner.hasKey key then inner.getItem key else outer.getItem key

/-- The entries that are not hidden, the inner ones first. -/
def toList : Mapping → List (Value × Value)
  | entries es => es
  | layered inner outer => inner.toList ++ outer.toList.filter fun e => (inner.get? e.1).isNone

end Mapping

theorem named?_cons_same (key : Text) (v : Value) (es : List (Value × Value)) :
    named? key ((.str key, v) :: es) = some v := by
  rw [named?, if_pos rfl]

theorem named?_cons_other {key : Text} {k : Value} (apart : k ≠ .str key) (v : Value) (es : List (Value × Value)) :
    named? key ((k, v) :: es) = named? key es := by
  cases k with
  | str k => rw [named?, if_neg fun same => apart (congrArg _ same)]
  | _ => rfl

theorem named?_put_same (key : Text) (v : Value) (es : List (Value × Value)) :
    named? key (putEntry (.str key) v es) = some v := by
  induction es with
  | nil => exact named?_cons_same key v []
  | cons e es ih =>
    obtain ⟨k, w⟩ := e
    rw [putEntry]
    by_cases named : k = .str key
    · rw [if_pos (Value.agrees_str_right.mpr named), named, named?_cons_same]
    · rw [if_neg (mt Value.agrees_str_right.mp named), named?_cons_other named, ih]

theorem named?_put_other {key : Value} {other : Text} (apart : key ≠ .str other) (v : Value)
    (es : List (Value × Value)) : named? other (putEntry key v es) = named? other es := by
  induction es with
  | nil => exact named?_cons_other apart v []
  | cons e es ih =>
    obtain ⟨k, w⟩ := e
    rw [putEntry]
    by_cases named : k = .str other
    · have kept : ¬ k.agrees key := by
        rw [named, Value.agrees_str]
        exact apart
      rw [if_neg kept, named, named?_cons_same, named?_cons_same]
    · rw [named?_cons_other named]
      split
      · exact named?_cons_other named v es
      · rw [named?_cons_other named, ih]

end Stencil
