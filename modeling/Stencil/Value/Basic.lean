import Stencil.Calendar
import Stencil.Decimal.Numeral

/-!
# Values

What templates compute with, and the mappings that give names to values. A mapping is a list of entries
in order, or one mapping laid over another. `find?_layered` says that the inner mapping is asked first.
-/

namespace Stencil

mutual

inductive Value where
  | null
  | bool (b : Bool)
  | int (n : Int)
  | float (x : Float)
  | str (s : Text)
  | list (items : List Value)
  | tuple (items : List Value)
  | mapping (m : Mapping)
  | time (t : Timestamp)
  /-- A function of the host, with the values that it holds. -/
  | helper (name : Text) (held : List Value)

inductive Mapping where
  | entries (es : List (Value × Value))
  | layered (inner outer : Mapping)

end

instance : Inhabited Value := ⟨.null⟩

namespace Mapping

def empty : Mapping := .entries []

instance : Inhabited Mapping := ⟨empty⟩

/-- All entries, the inner ones first, those that inner ones hide included. -/
def allEntries : Mapping → List (Value × Value)
  | entries es => es
  | layered inner outer => inner.allEntries ++ outer.allEntries

def isEmpty (m : Mapping) : Bool := m.allEntries.isEmpty

end Mapping

/-- The value of the first entry whose key is the text `key`. -/
def named? (key : Text) : List (Value × Value) → Option Value
  | [] => none
  | (.str k, v) :: es => if k = key then some v else named? key es
  | _ :: es => named? key es

namespace Mapping

def find? (key : Text) : Mapping → Option Value
  | entries es => named? key es
  | layered inner outer => (inner.find? key).or (outer.find? key)

theorem find?_layered (key : Text) (inner outer : Mapping) :
    (layered inner outer).find? key = (inner.find? key).or (outer.find? key) := rfl

theorem named?_append (key : Text) (xs ys : List (Value × Value)) :
    named? key (xs ++ ys) = (named? key xs).or (named? key ys) := by
  induction xs with
  | nil => rfl
  | cons e es ih =>
    obtain ⟨k, v⟩ := e
    cases k <;> simp only [List.cons_append, named?, ih]
    split <;> rfl

theorem find?_eq_named? (key : Text) (m : Mapping) : m.find? key = named? key m.allEntries := by
  induction m using Mapping.rec (motive_1 := fun _ => True) (motive_3 := fun _ => True)
    (motive_4 := fun _ => True) (motive_5 := fun _ => True) with
  | layered inner outer hi ho => simp [find?, allEntries, named?_append, hi, ho]
  | entries es => rfl
  | _ => trivial

end Mapping

namespace Value

/-- Null, false, zeros, and what is empty count as false. -/
def truthy : Value → Bool
  | null => false
  | bool b => b
  | int n => n != 0
  | float x => x != 0
  | str s => !s.isEmpty
  | list items => !items.isEmpty
  | tuple items => !items.isEmpty
  | mapping m => !m.isEmpty
  | time _ => true
  | helper _ _ => true

def items? : Value → Option (List Value)
  | list items => some items
  | tuple items => some items
  | _ => none

def kind : Value → Text
  | null => "NoneType".toList
  | bool _ => "bool".toList
  | int _ => "int".toList
  | float _ => "float".toList
  | str _ => "str".toList
  | list _ => "list".toList
  | tuple _ => "tuple".toList
  | mapping (.entries _) => "dict".toList
  | mapping (.layered _ _) => "Scope".toList
  | time (.date _) => "date".toList
  | time (.moment _ _) => "datetime".toList
  | helper _ _ => "Fn".toList

end Value

end Stencil
