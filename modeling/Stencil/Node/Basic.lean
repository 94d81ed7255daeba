import Stencil.Text.Basic

/-!
# Template nodes

What a template is made of. Value nodes are names and literal tokens; tags hold value nodes, and sections
hold lists of nodes. `same_iff` says that the structural test decides equality.
-/

namespace Stencil

/-- A plain section shows its body for what is there, an inverted one for what is not. -/
inductive Sense where
  | plain
  | inverted
deriving DecidableEq

def Sense.sigil : Sense → Char
  | plain => '#'
  | inverted => '^'

inductive Node where
  | text (text : Text)
  | name (path : Text)
  /-- The token of a string, number or boolean. -/
  | primitive (token : Text)
  | escaped (inner : Node)
  | unescaped (inner : Node)
  | block (sense : Sense) (context : Node) (body : List Node)
  | helper (name : Node) (args : List Node)
  | args (values : List Node)
  /-- A node of a kind that is not evaluated. -/
  | foreign (kind : Text)

instance : Inhabited Node := ⟨.text []⟩

namespace Node

def kind : Node → Text
  | text _ => "text".toList
  | name _ => "name".toList
  | primitive _ => "primitive".toList
  | escaped _ => "escaped".toList
  | unescaped _ => "unescaped".toList
  | block .plain _ _ => "section".toList
  | block .inverted _ _ => "inverted_section".toList
  | helper _ _ => "helper".toList
  | args _ => "args".toList
  | foreign kind => kind

def segments (path : Text) : List Text := Text.split '.' path

mutual

def same : Node → Node → Bool
  | text a, text b => a = b
  | name a, name b => a = b
  | primitive a, primitive b => a = b
  | escaped a, escaped b => a.same b
  | unescaped a, unescaped b => a.same b
  | block s c xs, block t d ys => s = t && c.same d && sameAll xs ys
  | helper a xs, helper b ys => a.same b && sameAll xs ys
  | args xs, args ys => sameAll xs ys
  | foreign a, foreign b => a = b
  | _, _ => false

def sameAll : List Node → List Node → Bool
  | [], [] => true
  | x :: xs, y :: ys => x.same y && sameAll xs ys
  | _, _ => false

end

mutual

theorem same_iff : (a b : Node) → (a.same b = true ↔ a = b)
  | text _, b => by cases b <;> simp [same]
  | name _, b => by cases b <;> simp [same]
  | primitive _, b => by cases b <;> simp [same]
  | escaped a, b => by cases b <;> simp [same, same_iff a]
  | unescaped a, b => by cases b <;> simp [same, same_iff a]
  | block _ c xs, b => by cases b <;> simp [same, same_iff c, sameAll_iff xs, and_assoc]
  | helper a xs, b => by cases b <;> simp [same, same_iff a, sameAll_iff xs]
  | args xs, b => by cases b <;> simp [same, sameAll_iff xs]
  | foreign _, b => by cases b <;> simp [same]

theorem sameAll_iff : (xs ys : List Node) → (sameAll xs ys = true ↔ xs = ys)
  | [], ys => by cases ys <;> simp [sameAll]
  | x :: xs, ys => by cases ys <;> simp [sameAll, same_iff x, sameAll_iff xs]

end

instance : DecidableEq Node := fun a b => decidable_of_iff _ (same_iff a b)

end Node

end Stencil
