/-!
# Results with a trace

A result together with the events on the way to it, in order. `events_bind` says that what comes later
adds its events behind.
-/

namespace Stencil

structure Traced (ε α : Type) where
  events : List ε
  result : α

namespace Traced

variable {ε α β : Type}

def emit (e : ε) : Traced ε Unit := ⟨[e], ()⟩

instance : Monad (Traced ε) where
  pure a := ⟨[], a⟩
  bind x f := let y := f x.result; ⟨x.events ++ y.events, y.result⟩

@[simp] theorem events_pure (a : α) : (pure a : Traced ε α).events = [] := rfl

@[simp] theorem result_pure (a : α) : (pure a : Traced ε α).result = a := rfl

@[simp] theorem events_bind (x : Traced ε α) (f : α → Traced ε β) :
    (x >>= f).events = x.events ++ (f x.result).events := rfl

@[simp] theorem result_bind (x : Traced ε α) (f : α → Traced ε β) :
    (x >>= f).result = (f x.result).result := rfl

theorem ext_iff {x y : Traced ε α} : x = y ↔ x.events = y.events ∧ x.result = y.result := by
  cases x; cases y; simp

instance : LawfulMonad (Traced ε) :=
  LawfulMonad.mk' (Traced ε) (fun x => by simp [Functor.map]) (fun a f => by simp [ext_iff])
    (fun x f g => by simp [ext_iff, List.append_assoc])

end Traced

end Stencil
