import Stencil.Evaluate.Basic
import Stencil.Proofs.Node.Parts
import Stencil.Value.Layers
import Stencil.Value.Mapping

/-!
# What rendering reads

Nodes read an environment only through the first segments of the names in them, their heads. Environments
that agree on these render alike, and stay in agreement where a section is entered. This is stated for any
two ways to enter a section, so that `evaluateBy_congr` also compares one way with another.
-/

namespace Stencil

/-! ### Heads of names -/

namespace Node

def head? : Node → Option Text
  | name path => (segments path).head?
  | _ => none

/-- The heads of the names at any depth of a node. -/
def heads (n : Node) : List Text := n.parts.filterMap head?

def headsAll (ns : List Node) : List Text := (partsAll ns).filterMap head?

theorem headsAll_cons (n : Node) (ns : List Node) : headsAll (n :: ns) = n.heads ++ headsAll ns := by
  rw [headsAll, partsAll, List.filterMap_append]
  rfl

theorem heads_name (path : Text) : (name path).heads = (segments path).head?.toList := by
  rw [heads, parts]
  cases h : (segments path).head? <;> simp [head?, h]

theorem heads_block (sense : Sense) (context : Node) (body : List Node) :
    (block sense context body).heads = context.heads ++ headsAll body := by
  rw [heads, parts, List.filterMap_cons_none rfl, List.filterMap_append]
  rfl

theorem heads_helper (f : Node) (values : List Node) : (helper f values).heads = f.heads ++ headsAll values := by
  rw [heads, parts, List.filterMap_cons_none rfl, List.filterMap_append]
  rfl

end Node

/-! ### Environments that agree -/

namespace Mapping

variable {keys : List Text} {env env' : Mapping}

/-- The two give each of the names the same value, or both none. -/
def Agree (keys : List Text) (env env' : Mapping) : Prop :=
  ∀ key ∈ keys, env.find? key = env'.find? key

theorem Agree.mono {few : List Text} (within : few ⊆ keys) (agree : Agree keys env env') : Agree few env env' :=
  fun key mem => agree key (within mem)

theorem Agree.layered (m : Mapping) (agree : Agree keys env env') : Agree keys (layered m env) (layered m env') := by
  intro key mem
  rw [find?_layered, find?_layered, agree key mem]

theorem Agree.enter (v : Value) (agree : Agree keys env env') : Agree keys (env.enter v) (env'.enter v) := by
  cases v with
  | mapping m => exact agree.layered m
  | _ => exact agree

theorem Agree.lookup {path : Text} (agree : Agree (Node.segments path).head?.toList env env') :
    env.lookup path = env'.lookup path := by
  unfold Mapping.lookup
  cases whole : Node.segments path with
  | nil => exact absurd whole (Text.split_ne_nil _ _)
  | cons key more =>
    have same : env.find? key = env'.find? key := agree key (by rw [whole]; exact List.mem_singleton_self key)
    rw [Value.follow, Value.follow, same]

end Mapping

/-! ### Entering sections in another way -/

/-- The two lead from environments that agree into environments that agree. -/
def Entering.Alike (keys : List Text) (enter enter' : Entering) : Prop :=
  ∀ {env env'} v, Mapping.Agree keys env env' → Mapping.Agree keys (enter env v) (enter' env' v)

section

variable {keys : List Text} {enter enter' : Entering} (host : Host)

mutual

theorem evaluateBy_congr (alike : Entering.Alike keys enter enter') :
    (n : Node) → n.heads ⊆ keys → ∀ {env env'}, Mapping.Agree keys env env' →
      evaluateBy enter host env n = evaluateBy enter' host env' n
  | .text _, _, _, _, _ | .primitive _, _, _, _, _ | .foreign _, _, _, _, _ => by rw [evaluateBy, evaluateBy]
  | .name path, named, _, _, agree => by
    rw [Node.heads_name] at named
    rw [evaluateBy, evaluateBy, (agree.mono named).lookup]
  | .escaped inner, named, _, _, agree | .unescaped inner, named, _, _, agree => by
    rw [evaluateBy, evaluateBy, evaluateBy_congr alike inner named agree]
  | .block .plain context body, named, _, _, agree => by
    rw [Node.heads_block] at named
    obtain ⟨outside, inside⟩ := List.append_subset.mp named
    -- The body sees the environment of each item of a list, that of a mapping, or the one around it.
    have entered (v : Value) := renderBy_congr alike body inside (alike v agree)
    have around := renderBy_congr alike body inside agree
    simp only [evaluateBy, evaluateBy_congr alike context outside agree, entered, around]
  | .block .inverted context body, named, _, _, agree => by
    rw [Node.heads_block] at named
    obtain ⟨outside, inside⟩ := List.append_subset.mp named
    rw [evaluateBy, evaluateBy, evaluateBy_congr alike context outside agree, renderBy_congr alike body inside agree]
  | .helper name args, named, _, _, agree => by
    rw [Node.heads_helper] at named
    obtain ⟨called, given⟩ := List.append_subset.mp named
    rw [evaluateBy, evaluateBy, evaluateBy_congr alike name called agree, evaluateAllBy_congr alike args given agree]
  | .args values, named, _, _, agree => by
    rw [evaluateBy, evaluateBy, evaluateAllBy_congr alike values named agree]

theorem evaluateAllBy_congr (alike : Entering.Alike keys enter enter') :
    (ns : List Node) → Node.headsAll ns ⊆ keys → ∀ {env env'}, Mapping.Agree keys env env' →
      evaluateAllBy enter host env ns = evaluateAllBy enter' host env' ns
  | [], _, _, _, _ => by rw [evaluateAllBy, evaluateAllBy]
  | n :: ns, named, _, _, agree => by
    rw [Node.headsAll_cons] at named
    obtain ⟨first, others⟩ := List.append_subset.mp named
    rw [evaluateAllBy, evaluateAllBy, evaluateBy_congr alike n first agree, evaluateAllBy_congr alike ns others agree]

theorem renderBy_congr (alike : Entering.Alike keys enter enter') :
    (ns : List Node) → Node.headsAll ns ⊆ keys → ∀ {env env'}, Mapping.Agree keys env env' →
      renderBy enter host env ns = renderBy enter' host env' ns
  | [], _, _, _, _ => by rw [renderBy, renderBy]
  | n :: ns, named, _, _, agree => by
    rw [Node.headsAll_cons] at named
    obtain ⟨first, others⟩ := List.append_subset.mp named
    rw [renderBy, renderBy, evaluateBy_congr alike n first agree, renderBy_congr alike ns others agree]

end

end

/-! ### Rendering in environments that agree -/

theorem Entering.alike_enter (keys : List Text) : Alike keys Mapping.enter Mapping.enter :=
  fun v agree => agree.enter v

theorem render_congr (host : Host) {nodes : List Node} {env env' : Mapping}
    (agree : Mapping.Agree (Node.headsAll nodes) env env') : render host env nodes = render host env' nodes := by
  exact renderBy_congr host (Entering.alike_enter _) nodes (List.Subset.refl _) agree

theorem Mapping.find?_modifyLayer {key : Value} {other : Text} (apart : key ≠ .str other) (v : Value) (i : Nat)
    (env : Mapping) : (env.modifyLayer (putEntry key v) i).find? other = env.find? other := by
  fun_induction modifyLayer (putEntry key v) i env with
  | case1 es => exact named?_put_other apart v es
  | case2 i es behind => rfl
  | case3 i inner outer inside ih => rw [find?_layered, find?_layered, ih]
  | case4 i inner outer behind ih => rw [find?_layered, find?_layered, ih]

/-- Rendering depends on nothing of an environment but what it gives to the heads of the names in the nodes;
an entry under any other key may be written into any of its layers. -/
theorem render_eq_of_agree (host : Host) (nodes : List Node) :
    (∀ env env' : Mapping, Mapping.Agree (Node.headsAll nodes) env env' →
      render host env nodes = render host env' nodes) ∧
    ∀ key : Value, (∀ first ∈ Node.headsAll nodes, key ≠ .str first) → ∀ v i (env : Mapping),
      render host (env.modifyLayer (putEntry key v) i) nodes = render host env nodes := by
  constructor
  · intro env env' agree
    exact render_congr host agree
  · intro key unnamed v i env
    apply render_congr host
    intro first named
    exact Mapping.find?_modifyLayer (unnamed first named) v i env

/-- A dictionary and a layered environment that hides a null, under a section and a helper call; an entry is
then written into the outer layer. -/
theorem render_eq_of_agree_layered :
    let nodes : List Node :=
      [.block .plain (.name ['a']) [.escaped (.name ['b'])], .helper (.name ['f']) [.name "c.d".toList]]
    let a := Value.mapping (.entries [(.str ['b'], .str ['x'])])
    let f := Value.helper "first".toList []
    let host : Host := fun _ _ args => .ok (args.headD .null)
    let c := Value.mapping (.entries [(.str ['d'], .str ['q'])])
    let flat := Mapping.entries [(.str ['a'], a), (.str ['f'], f), (.str ['c'], c)]
    let deep := Mapping.layered (.entries [(.int 7, .null), (.str ['a'], a)])
      (.entries [(.str ['a'], .null), (.str ['c'], c), (.str ['f'], f)])
    Mapping.Agree (Node.headsAll nodes) flat deep ∧ (∀ first ∈ Node.headsAll nodes, Value.str ['d'] ≠ .str first) ∧
      render host flat nodes = render host deep nodes ∧
      render host (deep.modifyLayer (putEntry (.str ['d']) .null) 1) nodes = render host deep nodes ∧
      (render host flat nodes).run = ⟨[.call "first".toList [.str ['q']]], .ok ['x', 'q']⟩ := by
  intro nodes a f host c flat deep
  have heads : Node.headsAll nodes = [['a'], ['b'], ['f'], ['c']] := rfl
  have agree : Mapping.Agree (Node.headsAll nodes) flat deep := by
    rw [heads]
    simp [Mapping.Agree, flat, deep, Mapping.find?, named?]
  have unnamed : ∀ first ∈ Node.headsAll nodes, Value.str ['d'] ≠ .str first := by
    rw [heads]
    simp
  obtain ⟨same, written⟩ := render_eq_of_agree host nodes
  exact ⟨agree, unnamed, same flat deep agree, written (.str ['d']) unnamed .null 1 deep, rfl⟩

end Stencil
