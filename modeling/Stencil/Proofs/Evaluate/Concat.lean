import Stencil.Evaluate.Basic

/-!
# Node lists one behind the other

Two node lists are put together so that a text at the end of the first takes up a text at the start of the
second. Such a list renders as its parts do, one after the other: `render_concat`.
-/

namespace Stencil

/-- The lists in order; a text at the end of the first one takes up a text that opens no tag. -/
def Node.concat : List Node → List Node → List Node
  | [.text t], .text u :: ms =>
    if openBraces.isPrefixOf u then [.text t, .text u] ++ ms else .text (t ++ u) :: ms
  | [], ms => ms
  | n :: ns, ms => n :: concat ns ms

theorem Node.concat_cons {n : Node} {ns ms : List Node} (apart : ns ≠ [] ∨ ∀ t, n ≠ .text t) :
    concat (n :: ns) ms = n :: concat ns ms := by
  rw [concat]
  intro t u ms' _ same nil
  rcases apart with more | other
  · exact absurd nil more
  · exact absurd same (other t)

theorem Node.concat_of_head {ns ms : List Node} (apart : ∀ t, ms.head? = some (.text t) → openBraces <+: t) :
    concat ns ms = ns ++ ms := by
  fun_induction concat ns ms with
  | case1 => rfl
  | case2 t u ms closed => exact absurd (List.isPrefixOf_iff_prefix.mpr (apart u rfl)) closed
  | case3 => rfl
  | case4 n ns ms _ ih => rw [ih apart]; rfl

/-! ### Results of steps -/

variable {α β : Type}

/-- A step that ends well hands its value on; the events of what follows stand behind its own. -/
theorem Eval.run_bind_ok {x : Eval α} {f : α → Eval β} {es : List Event} {a : α} (done : x.run = ⟨es, .ok a⟩) :
    (x >>= f).run = ⟨es ++ (f a).run.events, (f a).run.result⟩ := by
  show (x.run >>= ExceptT.bindCont f) = _
  rw [done]
  rfl

theorem Eval.run_bind_error {x : Eval α} {f : α → Eval β} {es : List Event} {e : EvalFault}
    (failed : x.run = ⟨es, .error e⟩) : (x >>= f).run = ⟨es, .error e⟩ := by
  show (x.run >>= ExceptT.bindCont f) = _
  rw [failed, Traced.ext_iff]
  exact ⟨List.append_nil es, rfl⟩

variable (host : Host) (env : Mapping)

theorem render_text (t : Text) (ns : List Node) :
    render host env (.text t :: ns) = do return t ++ (← render host env ns) := by
  rw [render_cons, evaluate_text, pure_bind]
  rfl

/-! ### Rendering in parts -/

theorem render_concat (ns ms : List Node) : render host env (Node.concat ns ms) = do
    let t ← render host env ns
    let u ← render host env ms
    return t ++ u := by
  fun_induction Node.concat ns ms with
  | case1 t u ms opens =>
    simp only [List.cons_append, List.nil_append, render_text, render_nil, bind_assoc, pure_bind, List.append_nil]
  | case2 t u ms closed =>
    simp only [render_text, render_nil, bind_assoc, pure_bind, List.append_nil, List.append_assoc]
  | case3 ms => simp only [render_nil, pure_bind, List.nil_append, bind_pure]
  | case4 n ns ms apart ih => simp only [render_cons, ih, bind_assoc, pure_bind, List.append_assoc]

theorem render_concat_ok {ns ms : List Node} {es fs : List Event} {t u : Text}
    (first : (render host env ns).run = ⟨es, .ok t⟩) (second : (render host env ms).run = ⟨fs, .ok u⟩) :
    (render host env (Node.concat ns ms)).run = ⟨es ++ fs, .ok (t ++ u)⟩ := by
  rw [render_concat, Eval.run_bind_ok first, Eval.run_bind_ok second]
  simp

end Stencil
