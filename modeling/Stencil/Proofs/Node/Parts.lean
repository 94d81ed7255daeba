import Stencil.Proofs.Node.Spelling

/-!
# Parts of nodes

`parts` lists a node with everything in it, in the order of the document, and `texts` the texts among them.
`height` is the number of sections that lie in each other.
-/

namespace Stencil.Node

mutual

/-- The node and all nodes in it, each one before what it holds. -/
def parts : Node → List Node
  | text t => [.text t]
  | name path => [.name path]
  | primitive token => [.primitive token]
  | escaped inner => .escaped inner :: inner.parts
  | unescaped inner => .unescaped inner :: inner.parts
  | block sense context body => .block sense context body :: (context.parts ++ partsAll body)
  | helper f values => .helper f values :: (f.parts ++ partsAll values)
  | args values => .args values :: partsAll values
  | foreign kind => [.foreign kind]

def partsAll : List Node → List Node
  | [] => []
  | n :: ns => n.parts ++ partsAll ns

end

theorem mem_parts_self (n : Node) : n ∈ n.parts := by
  cases n <;> simp [parts]

theorem mem_partsAll {m : Node} {ns : List Node} : m ∈ partsAll ns ↔ ∃ n ∈ ns, m ∈ n.parts := by
  induction ns with
  | nil => simp [partsAll]
  | cons n ns ih => simp [partsAll, ih]

mutual

def height : Node → Nat
  | block _ _ body => heightAll body + 1
  | _ => 0

def heightAll : List Node → Nat
  | [] => 0
  | n :: ns => max n.height (heightAll ns)

end

def text? : Node → Option Text
  | text t => some t
  | _ => none

/-- The texts at any depth, in the order of the document. -/
def texts (ns : List Node) : List Text := (partsAll ns).filterMap text?

theorem texts_cons (n : Node) (ns : List Node) : texts (n :: ns) = n.parts.filterMap text? ++ texts ns := by
  rw [texts, partsAll, List.filterMap_append, texts]

theorem texts_text (t : Text) (ns : List Node) : texts (.text t :: ns) = t :: texts ns := by
  rw [texts_cons, parts]
  rfl

theorem texts_block (sense : Sense) (name : Text) (body ns : List Node) :
    texts (.block sense (.name name) body :: ns) = texts body ++ texts ns := by
  rw [texts_cons, parts, parts, List.filterMap_cons_none rfl, List.singleton_append, List.filterMap_cons_none rfl]
  rfl

/-! ### Parts of tags -/

theorem SpellsValue.parts_eq {v : Node} {t : Text} (value : SpellsValue v t) : v.parts = [v] := by
  cases value with
  | name | primitive => rw [parts]

theorem SpellsMore.partsAll_eq {vs : List Node} {a : Text} (more : SpellsMore vs a) : partsAll vs = vs := by
  induction more with
  | nil => rw [partsAll]
  | cons value padded more ih => rw [partsAll, value.parts_eq, ih, List.singleton_append]

theorem SpellsValue.text?_eq {v : Node} {t : Text} (value : SpellsValue v t) : v.text? = none := by
  cases value <;> rfl

theorem SpellsMore.text?_eq {vs : List Node} {a : Text} (more : SpellsMore vs a) :
    vs.filterMap text? = [] := by
  induction more with
  | nil => rfl
  | cons value padded more ih => rw [List.filterMap_cons_none value.text?_eq, ih]

/-- Tags of values and of helper calls hold no texts. -/
theorem SpellsTag.texts_cons {n : Node} {p : Text} (tag : SpellsTag n p) (ns : List Node) :
    texts (n :: ns) = texts ns := by
  have none : n.parts.filterMap text? = [] := by
    cases tag with
    | escaped value | unescaped value =>
      rw [parts, value.parts_eq, List.filterMap_cons_none rfl, List.filterMap_cons_none value.text?_eq]
      rfl
    | call =>
      rw [parts, parts, partsAll]
      rfl
    | callWith helper value padded more =>
      rw [parts, parts, partsAll, value.parts_eq, more.partsAll_eq, List.filterMap_cons_none rfl,
        List.singleton_append, List.filterMap_cons_none rfl, List.singleton_append,
        List.filterMap_cons_none value.text?_eq, more.text?_eq]
  rw [Node.texts_cons, none, List.nil_append]

end Stencil.Node
