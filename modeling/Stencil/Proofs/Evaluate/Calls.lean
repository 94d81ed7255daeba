import Stencil.Proofs.Evaluate.Block
import Stencil.Proofs.Evaluate.Concat
import Stencil.Proofs.Node.Parts

/-!
# Calls while rendering

The events of rendering are those of its helper calls: the call, and a failure behind it where the helper
fails. What comes out does not tell a helper that fails from one that gives nothing: `steady_render`.
-/

namespace Stencil

open Node (parts partsAll mem_parts_self)

/-- A helper is called, with what it holds, under the name that a template gives it. -/
structure Call where
  name : Text
  helper : Text
  held : List Value
  args : List Value

def Call.events (host : Host) (c : Call) : List Event :=
  .call c.helper c.args :: match host c.helper c.held c.args with
    | .ok _ => []
    | .error reason => [.failure c.name reason]

/-- Some of the calls that fail give nothing instead. -/
def Host.Mends (host host' : Host) : Prop := ∀ f held args, host' f held args = host f held args ∨
  (∃ reason, host f held args = .error reason) ∧ host' f held args = .ok .null

theorem Host.Mends.refl (host : Host) : host.Mends host := fun _ _ _ => .inl rfl

/-- All calls among the nodes are under such names. -/
def Naming (named : Text → Prop) (ns : List Node) : Prop := ∀ f args, .helper f args ∈ ns → named f.print

/-- The same calls are made, under such names, and the result is the same, whichever failing calls are
mended. -/
def Steady {α : Type} (host : Host) (named : Text → Prop) (x : Host → Eval α) : Prop :=
  ∃ (calls : List Call) (r : Except EvalFault α), (∀ c ∈ calls, named c.name) ∧
    ∀ host', Host.Mends host host' → (x host').run = ⟨calls.flatMap (Call.events host'), r⟩

variable {α β : Type} {host : Host} {named : Text → Prop}

theorem Naming.mono {few ns : List Node} (naming : Naming named ns) (within : few ⊆ ns) : Naming named few :=
  fun f args member => naming f args (within member)

/-! ### Steps -/

theorem steady_quiet {x : Eval α} (quiet : x.run.events = []) : Steady host named fun _ => x :=
  ⟨[], x.run.result, nofun, fun _ _ => Traced.ext_iff.mpr ⟨quiet, rfl⟩⟩

theorem Steady.bind {x : Host → Eval α} {f : Host → α → Eval β} (first : Steady host named x)
    (next : ∀ a, Steady host named fun h => f h a) : Steady host named fun h => x h >>= f h := by
  obtain ⟨calls, r, names, run⟩ := first
  -- The result of the first step does not depend on what is mended, so the second step is one and the same.
  cases r with
  | error e => exact ⟨calls, .error e, names, fun host' mends => Eval.run_bind_error (run host' mends)⟩
  | ok a =>
    obtain ⟨calls', r, names', run'⟩ := next a
    refine ⟨calls ++ calls', r, List.forall_mem_append.mpr ⟨names, names'⟩, ?_⟩
    intro host' mends
    rw [Eval.run_bind_ok (run host' mends), run' host' mends, List.flatMap_append]

theorem steady_mapM {f : Host → α → Eval β} (each : ∀ a, Steady host named fun h => f h a) (xs : List α) :
    Steady host named fun h => xs.mapM (f h) := by
  induction xs with
  | nil =>
    simp only [List.mapM_nil]
    exact steady_quiet rfl
  | cons x xs ih =>
    simp only [List.mapM_cons]
    exact (each x).bind fun y => ih.bind fun ys => steady_quiet rfl

/-- A call returns the same whether its helper fails or gives nothing. -/
theorem steady_callHelper {name f : Text} {held args : List Value} (called : named name) :
    Steady host named fun h => callHelper h name f held args := by
  have events (h : Host) : (callHelper h name f held args).run.events = Call.events h ⟨name, f, held, args⟩ := by
    unfold callHelper Call.events
    cases h f held args <;> rfl
  have result (h : Host) : (callHelper h name f held args).run.result =
      .ok (match h f held args with | .ok v => v | .error _ => .null) := by
    unfold callHelper
    cases h f held args <;> rfl
  refine ⟨[⟨name, f, held, args⟩], (callHelper host name f held args).run.result,
    List.forall_mem_singleton.mpr called, ?_⟩
  intro host' mends
  rw [Traced.ext_iff]
  constructor
  · rw [events, List.flatMap_singleton]
  · rw [result, result]
    rcases mends f held args with same | ⟨⟨reason, failed⟩, mended⟩
    · rw [same]
    · rw [failed, mended]

/-! ### Failing calls -/

/-- A call that fails leaves its warning and no text; the nodes behind it render as they do without it. -/
theorem render_failing_call {env : Mapping} {name f reason : Text} {held vs : List Value} {args : List Node}
    (found : env.lookup name = .helper f held) (given : (evaluateAll host env args).run = ⟨[], .ok vs⟩)
    (failed : host f held vs = .error reason) (ns : List Node) :
    (render host env (.helper (.name name) args :: ns)).run =
      ⟨.call f vs :: .failure name reason :: (render host env ns).run.events, (render host env ns).run.result⟩ := by
  have called : (callHelper host name f held vs).run = ⟨[.call f vs, .failure name reason], .ok .null⟩ := by
    unfold callHelper
    rw [failed]
    rfl
  have value : (evaluate host env (.helper (.name name) args)).run =
      ⟨[.call f vs, .failure name reason], .ok .null⟩ := by
    rw [evaluate_helper, evaluate_name, pure_bind, found, Eval.run_bind_ok given, Node.print, called]
    rfl
  have empty : Eval.ofNumeral Value.null.text = pure [] := rfl
  rw [render_cons, Eval.run_bind_ok value, empty, pure_bind]
  simp only [List.nil_append, bind_pure]
  rfl

/-! ### Nodes -/

mutual

theorem steady_evaluate : (n : Node) → Naming named n.parts →
    ∀ env, Steady host named fun h => evaluate h env n
  | .text _, _, _ | .name _, _, _ | .primitive _, _, _ | .foreign _, _, _ => by
    simp only [evaluate_text, evaluate_name, evaluate_primitive, evaluate_foreign]
    exact steady_quiet rfl
  | .escaped inner, naming, env => by
    simp only [evaluate_escaped]
    refine (steady_evaluate inner (naming.mono (by simp [parts])) env).bind fun v => ?_
    split
    · exact (steady_quiet rfl).bind fun t => steady_quiet rfl
    · exact steady_quiet rfl
  | .unescaped inner, naming, env => by
    simp only [evaluate_unescaped]
    refine (steady_evaluate inner (naming.mono (by simp [parts])) env).bind fun v => ?_
    exact (steady_quiet rfl).bind fun t => steady_quiet rfl
  | .block sense context body, naming, env => by
    simp only [evaluate_block]
    have inside := steady_render body (naming.mono (by simp [parts]))
    refine (steady_evaluate context (naming.mono (by simp [parts])) env).bind fun v => ?_
    exact (steady_mapM inside _).bind fun ts => steady_quiet rfl
  | .helper f args, naming, env => by
    simp only [evaluate_helper]
    have given := steady_evaluateAll args (naming.mono (by simp [parts])) env
    refine (steady_evaluate f (naming.mono (by simp [parts])) env).bind fun v => ?_
    split
    · exact given.bind fun vs => steady_callHelper (naming f args (mem_parts_self _))
    · exact steady_quiet rfl
  | .args values, naming, env => by
    simp only [evaluate_args]
    have given := steady_evaluateAll values (naming.mono (by simp [parts])) env
    exact given.bind fun vs => steady_quiet rfl

theorem steady_evaluateAll : (ns : List Node) → Naming named (partsAll ns) →
    ∀ env, Steady host named fun h => evaluateAll h env ns
  | [], _, _ => by
    simp only [evaluateAll_nil]
    exact steady_quiet rfl
  | n :: ns, naming, env => by
    simp only [evaluateAll_cons]
    have behind := steady_evaluateAll ns (naming.mono (by simp [partsAll])) env
    refine (steady_evaluate n (naming.mono (by simp [partsAll])) env).bind fun v => ?_
    exact behind.bind fun vs => steady_quiet rfl

/-- Rendering is steady: its events are those of calls under names in the nodes. -/
theorem steady_render : (ns : List Node) → Naming named (partsAll ns) →
    ∀ env, Steady host named fun h => render h env ns
  | [], _, _ => by
    simp only [render_nil]
    exact steady_quiet rfl
  | n :: ns, naming, env => by
    simp only [render_cons]
    have behind := steady_render ns (naming.mono (by simp [partsAll])) env
    refine (steady_evaluate n (naming.mono (by simp [partsAll])) env).bind fun v => ?_
    exact (steady_quiet rfl).bind fun t => behind.bind fun u => steady_quiet rfl

end

end Stencil
