import Stencil.Proofs.Evaluate.Outcome

/-!
# Which sections show their bodies

A section renders its body in a list of environments, its views: one for each item of a list, one for a
mapping, one or none for any other value. `section_complement` compares the views of a plain section with
those of an inverted one.
-/

namespace Stencil

/-- The environments in which a section over `v` renders its body, one for each time that it does. -/
def Mapping.views (env : Mapping) (sense : Sense) (v : Value) : List Mapping :=
  match sense, v with
  | .plain, .list items | .plain, .tuple items => items.map env.enter
  | .plain, .mapping m => [.layered m env]
  | .plain, v => if v.truthy then [env] else []
  | .inverted, v => if v.truthy then [] else [env]

/-- A section renders its body in each of its views, in order. -/
theorem evaluate_block (host : Host) (env : Mapping) (sense : Sense) (context : Node) (body : List Node) :
    evaluate host env (.block sense context body) = do
      let v ← evaluate host env context
      let parts ← (env.views sense v).mapM fun view => render host view body
      return .str parts.flatten := by
  cases sense with
  | plain =>
    rw [evaluate_plain]
    congr 1
    funext v
    cases v with
    | list items | tuple items => simp [Value.items?, Mapping.views, List.mapM_map, Function.comp_def]
    | mapping m => simp [Value.items?, Mapping.views, Mapping.enter]
    | _ =>
      simp only [Value.items?, Mapping.views]
      split <;> simp
  | inverted =>
    rw [evaluate_inverted]
    congr 1
    funext v
    simp only [Mapping.views]
    split <;> simp

theorem views_inverted_eq_nil {env : Mapping} {v : Value} : env.views .inverted v = [] ↔ v.truthy = true := by
  simp [Mapping.views]

/-- A plain section shows its body for a mapping even where that is empty, and so counts as false. -/
theorem views_plain_ne_nil {env : Mapping} {v : Value} :
    env.views .plain v ≠ [] ↔ v.truthy = true ∨ ∃ m, v = .mapping m := by
  cases v with
  | list items | tuple items => simp [Mapping.views, Value.truthy]
  | mapping m => simp [Mapping.views]
  | _ =>
    simp only [Mapping.views]
    split <;> simp [*]

/-- A section and the inverted section on the same name render their bodies in their views. Exactly one of
them has a view, unless the name stands for an empty mapping: then each of them has one. -/
theorem section_complement (host : Host) (env : Mapping) (path : Text) (body : List Node) :
    (∀ sense, evaluate host env (.block sense (.name path) body) = do
      let parts ← (env.views sense (env.lookup path)).mapM fun view => render host view body
      return .str parts.flatten) ∧
    ((env.views .plain (env.lookup path) ≠ [] ↔ env.views .inverted (env.lookup path) = []) ↔
      ∀ m, env.lookup path = .mapping m → m.isEmpty = false) ∧
    ∀ m, env.lookup path = .mapping m → m.isEmpty = true →
      env.views .plain (env.lookup path) = [.layered m env] ∧ env.views .inverted (env.lookup path) = [env] := by
  refine ⟨fun sense => ?_, ?_, ?_⟩
  · rw [evaluate_block, evaluate_name, pure_bind]
  · rw [views_plain_ne_nil, views_inverted_eq_nil]
    constructor
    · intro exclusive m found
      have truthy := exclusive.mp (.inr ⟨m, found⟩)
      simpa [found, Value.truthy] using truthy
    · intro nonempty
      constructor
      · intro shown
        rcases shown with truthy | ⟨m, found⟩
        · exact truthy
        · simp [found, Value.truthy, nonempty m found]
      · exact .inl
  · intro m found empty
    rw [found]
    simp [Mapping.views, Value.truthy, empty]

/-- An environment of layers without entries, as a section over it sees it. -/
theorem section_complement_layers :
    let m := Mapping.layered .empty .empty
    let env := Mapping.entries [(.str ['c'], .mapping m)]
    env.lookup ['c'] = .mapping m ∧ m.isEmpty = true ∧
      env.views .plain (env.lookup ['c']) = [.layered m env] ∧ env.views .inverted (env.lookup ['c']) = [env] := by
  intro m env
  have found : env.lookup ['c'] = .mapping m := rfl
  obtain ⟨-, -, both⟩ := section_complement Host.empty env ['c'] []
  exact ⟨found, rfl, both m found rfl⟩

/-- Both sections show their bodies where the name stands for a dictionary without entries. -/
theorem section_empty_mapping :
    let env := Mapping.entries [(.str ['c'], .mapping .empty)]
    (evaluate Host.empty env (.block .plain (.name ['c']) [.text ['x']])).run = ⟨[], .ok (.str ['x'])⟩ ∧
      (evaluate Host.empty env (.block .inverted (.name ['c']) [.text ['x']])).run = ⟨[], .ok (.str ['x'])⟩ ∧
      ¬ (env.views .plain (env.lookup ['c']) ≠ [] ↔ env.views .inverted (env.lookup ['c']) = []) := by
  refine ⟨rfl, rfl, ?_⟩
  intro exclusive
  exact absurd (exclusive.mp (List.cons_ne_nil _ _)) (List.cons_ne_nil _ _)

end Stencil
