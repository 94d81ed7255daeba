import Stencil.Value.Basic

/-!
# Equality of values

Numbers are equal when they stand for the same number, whatever their kind, and true and false count as
one and zero. Lists differ from tuples. Mappings are equal when they give the same keys equal values, in
any order. `agrees_str` says that on names this is equality of texts.
-/

namespace Stencil

/-- The whole number that a boolean, integer or whole float stands for. -/
def Value.whole? : Value → Option Int
  | .bool b => some (if b then 1 else 0)
  | .int n => some n
  | .float x => (Decimal.Binary.ofFloat x).toInt?
  | _ => none

mutual

def Value.agrees : Value → Value → Bool
  | .null, .null => true
  | .bool a, w => w.whole? == some (if a then 1 else 0)
  | .int a, w => w.whole? == some a
  | .float x, w =>
    match w with
    | .float y => x == y
    | _ => (w.whole?).isSome && w.whole? == (Value.float x).whole?
  | .str a, .str b => a = b
  | .list xs, .list ys => agreesAll xs ys
  | .tuple xs, .tuple ys => agreesAll xs ys
  | .mapping m, .mapping n => m.within [] n && n.allEntries.all fun (k, _) => m.hasKey k
  | .time s, .time t => s = t
  | _, _ => false

def agreesAll : List Value → List Value → Bool
  | [], [] => true
  | x :: xs, y :: ys => x.agrees y && agreesAll xs ys
  | _, _ => false

/-- Whether `n` gives every key of the mapping that is not among `hidden` an equal value. -/
def Mapping.within : Mapping → (hidden : List Value) → (n : Mapping) → Bool
  | .entries es, hidden, n => entriesWithin es hidden n
  | .layered inner outer, hidden, n =>
    inner.within hidden n && outer.within (hidden ++ inner.allEntries.map (·.1)) n

def entriesWithin : List (Value × Value) → List Value → Mapping → Bool
  | [], _, _ => true
  | (k, v) :: es, hidden, n =>
    (hidden.any k.agrees ||
      match n.allEntries.find? fun (k', _) => k.agrees k' with
      | some (_, v') => v.agrees v'
      | none => false) && entriesWithin es hidden n

def Mapping.hasKey : Mapping → (key : Value) → Bool
  | .entries es, key => entriesHave es key
  | .layered inner outer, key => inner.hasKey key || outer.hasKey key

def entriesHave : List (Value × Value) → Value → Bool
  | [], _ => false
  | (k, _) :: es, key => k.agrees key || entriesHave es key

end

theorem Value.agrees_str {a : Text} {w : Value} : (Value.str a).agrees w = true ↔ w = .str a := by
  cases w <;> simp [Value.agrees, eq_comm]

theorem Value.agrees_str_right {v : Value} {b : Text} : v.agrees (.str b) = true ↔ v = .str b := by
  cases v <;> simp [Value.agrees, Value.whole?]

end Stencil
