import Stencil.Proofs.Evaluate.Block
import Stencil.Proofs.Evaluate.Concat
import Stencil.Proofs.Value.Parts

/-!
# Rendering data

In an environment of data no name stands for a helper, so rendering calls none and leaves no warning:
`render_quiet`.
-/

namespace Stencil

/-- No event happens, and what is returned has the property. -/
def Quiet {α : Type} (p : α → Prop) (x : Eval α) : Prop := x.run.events = [] ∧ ∀ a, x.Returns a → p a

variable {α β : Type} {p : α → Prop} {q : β → Prop} {x : Eval α} {f : α → Eval β}

theorem quiet_pure {a : α} (holds : p a) : Quiet p (pure a) := by
  refine ⟨rfl, fun b same => ?_⟩
  obtain rfl := Eval.returns_pure.mp same
  exact holds

theorem quiet_ofNumeral {r : Except NumeralFault α} (holds : ∀ a, r = .ok a → p a) : Quiet p (Eval.ofNumeral r) :=
  ⟨rfl, fun a returned => holds a (Eval.returns_ofNumeral.mp returned)⟩

theorem silent_ofNumeral {r : Except NumeralFault α} : Quiet (fun _ => True) (Eval.ofNumeral r) :=
  quiet_ofNumeral fun _ _ => trivial

theorem Quiet.bind (first : Quiet p x) (next : ∀ a, p a → Quiet q (f a)) : Quiet q (x >>= f) := by
  obtain ⟨silent, holds⟩ := first
  constructor
  · cases result : x.run.result with
    | error e =>
      have run : x.run = ⟨[], .error e⟩ := Traced.ext_iff.mpr ⟨silent, result⟩
      rw [Eval.run_bind_error run]
    | ok a =>
      have run : x.run = ⟨[], .ok a⟩ := Traced.ext_iff.mpr ⟨silent, result⟩
      rw [Eval.run_bind_ok run]
      exact (next a (holds a result)).1
  · intro b returned
    obtain ⟨a, value, returned⟩ := Eval.returns_bind.mp returned
    exact (next a (holds a value)).2 b returned

theorem quiet_mapM {xs : List α} (each : ∀ a ∈ xs, Quiet q (f a)) : Quiet (fun bs => ∀ b ∈ bs, q b) (xs.mapM f) := by
  induction xs with
  | nil =>
    rw [List.mapM_nil]
    exact quiet_pure nofun
  | cons a xs ih =>
    obtain ⟨here, behind⟩ := List.forall_mem_cons.mp each
    rw [List.mapM_cons]
    refine here.bind fun b holds => (ih behind).bind fun bs rest => ?_
    exact quiet_pure (List.forall_mem_cons.mpr ⟨holds, rest⟩)

/-! ### Nodes -/

theorem views_data {env : Mapping} {v : Value} (data : Data env.parts) (value : Data v.parts) (sense : Sense) :
    ∀ view ∈ env.views sense v, Data view.parts := by
  have enter (w : Value) (inside : Data w.parts) : Data (env.enter w).parts := by
    cases w with
    | mapping m =>
      rw [Value.parts] at inside
      exact data_append.mpr ⟨(List.forall_mem_cons.mp inside).2, data⟩
    | _ => exact data
  have items (vs : List Value) (inside : ∀ w ∈ vs, Data w.parts) : ∀ view ∈ vs.map env.enter, Data view.parts := by
    intro view member
    obtain ⟨w, item, rfl⟩ := List.mem_map.mp member
    exact enter w (inside w item)
  have around (b : Bool) : ∀ view ∈ if b then [env] else [], Data view.parts := by
    cases b
    · exact List.forall_mem_nil _
    · exact List.forall_mem_singleton.mpr data
  cases sense with
  | inverted =>
    rw [Mapping.views]
    cases v.truthy
    · exact around true
    · exact around false
  | plain =>
    cases v with
    | list vs | tuple vs =>
      rw [Mapping.views]
      refine items vs fun w member => ?_
      rw [Value.parts] at value
      exact fun u inside => (List.forall_mem_cons.mp value).2 u (mem_partsAll.mpr ⟨w, member, inside⟩)
    | mapping m => exact List.forall_mem_singleton.mpr (enter (.mapping m) value)
    | _ =>
      unfold Mapping.views
      exact around _

theorem decodeLiteral_scalar {token : Text} {v : Value} (done : decodeLiteral token = .ok v) :
    v.isScalar = true := by
  unfold decodeLiteral at done
  split at done
  · cases done; rfl
  split at done
  · cases done; rfl
  split at done
  · cases done; rfl
  split at done
  · cases read : Numeral.readFloat token with
    | ok x =>
      rw [read] at done
      cases done
      rfl
    | error f =>
      rw [read] at done
      cases done
  · cases read : Numeral.readInt 10 token with
    | ok n =>
      rw [read] at done
      cases done
      rfl
    | error f =>
      rw [read] at done
      cases done

variable {host : Host}

mutual

theorem evaluate_quiet : (n : Node) → ∀ {env : Mapping}, Data env.parts →
    Quiet (fun v => Data v.parts) (evaluate host env n)
  | .text t, env, data => by
    rw [evaluate_text]
    exact quiet_pure (data_scalar rfl)
  | .name path, env, data => by
    rw [evaluate_name]
    exact quiet_pure (Mapping.lookup_data data path)
  | .primitive token, env, data => by
    rw [evaluate_primitive]
    exact quiet_ofNumeral fun v done => data_scalar (decodeLiteral_scalar done)
  | .escaped inner, env, data => by
    rw [evaluate_escaped]
    refine (evaluate_quiet inner data).bind fun v _ => ?_
    split
    · exact silent_ofNumeral.bind fun t _ => quiet_pure (data_scalar rfl)
    · exact quiet_pure (data_scalar rfl)
  | .unescaped inner, env, data => by
    rw [evaluate_unescaped]
    refine (evaluate_quiet inner data).bind fun v _ => ?_
    exact silent_ofNumeral.bind fun t _ => quiet_pure (data_scalar rfl)
  | .block sense context body, env, data => by
    rw [evaluate_block]
    refine (evaluate_quiet context data).bind fun v value => ?_
    have inside := quiet_mapM (f := fun view => render host view body) fun view member =>
      render_quiet body (views_data data value sense view member)
    exact inside.bind fun ts _ => quiet_pure (data_scalar rfl)
  | .helper f args, env, data => by
    rw [evaluate_helper]
    refine (evaluate_quiet f data).bind fun v value => ?_
    split
    · next called held =>
      have datum := value _ (Value.mem_parts_self _)
      cases datum
    · exact quiet_pure (data_scalar rfl)
  | .args values, env, data => by
    rw [evaluate_args]
    exact (evaluateAll_data values data).bind fun vs each => quiet_pure (data_list.mpr each)
  | .foreign kind, env, data => by
    rw [evaluate_foreign]
    exact ⟨rfl, nofun⟩

theorem evaluateAll_data : (ns : List Node) → ∀ {env : Mapping}, Data env.parts →
    Quiet (fun vs => ∀ v ∈ vs, Data v.parts) (evaluateAll host env ns)
  | [], env, data => by
    rw [evaluateAll_nil]
    exact quiet_pure nofun
  | n :: ns, env, data => by
    rw [evaluateAll_cons]
    refine (evaluate_quiet n data).bind fun v value => (evaluateAll_data ns data).bind fun vs rest => ?_
    exact quiet_pure (List.forall_mem_cons.mpr ⟨value, rest⟩)

/-- Data renders without calls and warnings. -/
theorem render_quiet : (ns : List Node) → ∀ {env : Mapping}, Data env.parts →
    Quiet (fun _ => True) (render host env ns)
  | [], env, data => by
    rw [render_nil]
    exact quiet_pure trivial
  | n :: ns, env, data => by
    rw [render_cons]
    refine (evaluate_quiet n data).bind fun v _ => silent_ofNumeral.bind fun t _ => ?_
    exact (render_quiet ns data).bind fun u _ => quiet_pure trivial

end

end Stencil
