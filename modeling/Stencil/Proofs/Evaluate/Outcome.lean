import Mathlib.Data.List.Forall2
import Stencil.Evaluate.Basic

/-!
# How evaluation ends

A step of evaluation returns a value or fails. A sequence returns when its steps do, and fails with the first
step that fails: `returns_bind` and `fails_bind`, and `returns_mapM` and `fails_mapM` over lists. So do lists of
nodes: `returns_render_cons` and `fails_render_cons`.
-/

namespace Stencil

namespace Eval

variable {α β : Type} {x : Eval α} {f : α → Eval β} {a b : α} {e : EvalFault}

def Returns (x : Eval α) (a : α) : Prop := x.run.result = .ok a

def Fails (x : Eval α) (e : EvalFault) : Prop := x.run.result = .error e

theorem returns_or_fails (x : Eval α) : (∃ a, x.Returns a) ∨ ∃ e, x.Fails e := by
  unfold Returns Fails
  cases x.run.result with
  | ok a => exact .inl ⟨a, rfl⟩
  | error e => exact .inr ⟨e, rfl⟩

theorem result_run_bind (x : Eval α) (f : α → Eval β) : (x >>= f).run.result =
    match x.run.result with
    | .ok a => (f a).run.result
    | .error e => .error e := by
  show (x.run >>= ExceptT.bindCont f).result = _
  rw [Traced.result_bind]
  cases x.run.result <;> rfl

@[simp] theorem returns_pure : (pure a : Eval α).Returns b ↔ a = b := by
  show Except.ok a = Except.ok b ↔ a = b
  exact Except.ok.injEq a b ▸ Iff.rfl

@[simp] theorem fails_pure : ¬ (pure a : Eval α).Fails e := nofun

@[simp] theorem returns_bind {b : β} : (x >>= f).Returns b ↔ ∃ a, x.Returns a ∧ (f a).Returns b := by
  unfold Returns
  rw [result_run_bind]
  cases x.run.result <;> simp

@[simp] theorem fails_bind : (x >>= f).Fails e ↔ x.Fails e ∨ ∃ a, x.Returns a ∧ (f a).Fails e := by
  unfold Returns Fails
  rw [result_run_bind]
  cases x.run.result <;> simp

@[simp] theorem returns_map {f : α → β} {b : β} : (f <$> x).Returns b ↔ ∃ a, x.Returns a ∧ f a = b := by
  rw [map_eq_pure_bind, returns_bind]
  simp only [returns_pure]

@[simp] theorem fails_map {f : α → β} : (f <$> x).Fails e ↔ x.Fails e := by
  rw [map_eq_pure_bind, fails_bind]
  simp only [fails_pure, and_false, exists_false, or_false]

theorem returns_ofNumeral {r : Except NumeralFault α} : (ofNumeral r).Returns a ↔ r = .ok a := by
  cases r <;> simp [Returns, ofNumeral, Except.mapError]

theorem fails_ofNumeral {r : Except NumeralFault α} :
    (ofNumeral r).Fails e ↔ ∃ fault, r = .error fault ∧ e = .numeral fault := by
  cases r <;> simp [Fails, ofNumeral, Except.mapError, eq_comm]

theorem returns_mapM {xs : List α} {ys : List β} :
    (xs.mapM f).Returns ys ↔ List.Forall₂ (fun x y => (f x).Returns y) xs ys := by
  induction xs generalizing ys with
  | nil => cases ys <;> simp
  | cons x xs ih =>
    cases ys with
    | nil => simp
    | cons y ys => simp [ih]

/-- A list fails at one of its items; those before it return. -/
theorem fails_mapM {xs : List α} : (xs.mapM f).Fails e ↔
    ∃ before x behind, xs = before ++ x :: behind ∧ (∀ y ∈ before, ∃ b, (f y).Returns b) ∧ (f x).Fails e := by
  induction xs with
  | nil => simp
  | cons x xs ih =>
    rw [List.mapM_cons]
    constructor
    · intro failed
      rcases fails_bind.mp failed with here | ⟨b, done, failed⟩
      · exact ⟨[], x, xs, rfl, nofun, here⟩
      · have later : (xs.mapM f).Fails e := by simpa using failed
        obtain ⟨before, y, behind, rfl, early, failed⟩ := ih.mp later
        refine ⟨x :: before, y, behind, rfl, ?_, failed⟩
        exact List.forall_mem_cons.mpr ⟨⟨b, done⟩, early⟩
    · rintro ⟨before, y, behind, split, early, failed⟩
      cases before with
      | nil =>
        obtain ⟨rfl, rfl⟩ := List.cons.inj split
        exact fails_bind.mpr (.inl failed)
      | cons z before =>
        obtain ⟨rfl, rfl⟩ := List.cons.inj split
        obtain ⟨⟨b, done⟩, early⟩ := List.forall_mem_cons.mp early
        have later := ih.mpr ⟨before, y, behind, rfl, early, failed⟩
        exact fails_bind.mpr (.inr ⟨b, done, fails_bind.mpr (.inl later)⟩)

end Eval

/-! ### Lists of nodes -/

variable {host : Host} {env : Mapping} {e : EvalFault}

theorem evaluateAll_eq_mapM (ns : List Node) : evaluateAll host env ns = ns.mapM (evaluate host env) := by
  induction ns with
  | nil => rw [evaluateAll_nil, List.mapM_nil]
  | cons n ns ih => rw [evaluateAll_cons, List.mapM_cons, ih]

/-- A list of nodes renders as its first node, written as text, and what the others render as. -/
theorem returns_render_cons {n : Node} {ns : List Node} {t : Text} : (render host env (n :: ns)).Returns t ↔
    ∃ v first rest, (evaluate host env n).Returns v ∧ v.text = .ok first ∧ (render host env ns).Returns rest ∧
      first ++ rest = t := by
  rw [render_cons]
  simp only [Eval.returns_bind, Eval.returns_ofNumeral, Eval.returns_pure]
  constructor
  · rintro ⟨v, value, first, written, rest, later, same⟩
    exact ⟨v, first, rest, value, written, later, same⟩
  · rintro ⟨v, first, rest, value, written, later, same⟩
    exact ⟨v, value, first, written, rest, later, same⟩

/-- Where a list fails, its first node does, or has no text, or those behind it fail. -/
theorem fails_render_cons {n : Node} {ns : List Node} : (render host env (n :: ns)).Fails e ↔
    (evaluate host env n).Fails e ∨ ∃ v, (evaluate host env n).Returns v ∧
      ((∃ fault, v.text = .error fault ∧ e = .numeral fault) ∨
        ∃ t, v.text = .ok t ∧ (render host env ns).Fails e) := by
  rw [render_cons]
  simp only [Eval.fails_bind, Eval.fails_ofNumeral, Eval.returns_ofNumeral, Eval.fails_pure, and_false,
    exists_false, or_false]

end Stencil
