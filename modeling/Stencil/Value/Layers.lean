import Stencil.Value.Mapping

/-!
# Layers of a mapping

A mapping that is laid over others consists of lists of entries, its layers, the innermost first. Layers
are written one at a time. `layers_ofLayersRight` and `layers_ofLayersLeft` say that either way of nesting
keeps the layers and their order.
-/

namespace Stencil.Mapping

def layers : Mapping → List (List (Value × Value))
  | entries es => [es]
  | layered inner outer => inner.layers ++ outer.layers

def modifyLayer (f : List (Value × Value) → List (Value × Value)) : Nat → Mapping → Mapping
  | i, entries es => if i = 0 then entries (f es) else entries es
  | i, layered inner outer =>
    if i < inner.layers.length then layered (modifyLayer f i inner) outer
    else layered inner (modifyLayer f (i - inner.layers.length) outer)

/-- Each layer over all that follow it. -/
def ofLayersRight (first : List (Value × Value)) : List (List (Value × Value)) → Mapping
  | [] => entries first
  | next :: rest => layered (entries first) (ofLayersRight next rest)

/-- All layers so far over the next one. -/
def ofLayersLeft (first : List (Value × Value)) (rest : List (List (Value × Value))) : Mapping :=
  rest.foldl (fun m es => layered m (entries es)) (entries first)

theorem layers_ofLayersRight (first : List (Value × Value)) (rest : List (List (Value × Value))) :
    (ofLayersRight first rest).layers = first :: rest := by
  induction rest generalizing first with
  | nil => rfl
  | cons next rest ih => simp [ofLayersRight, layers, ih]

theorem layers_ofLayersLeft (first : List (Value × Value)) (rest : List (List (Value × Value))) :
    (ofLayersLeft first rest).layers = first :: rest := by
  have go (m : Mapping) : (rest.foldl (fun m es => layered m (entries es)) m).layers = m.layers ++ rest := by
    induction rest generalizing m with
    | nil => simp
    | cons next rest ih => simp [ih, layers]
  exact go (entries first)

theorem allEntries_eq_flatten (m : Mapping) : m.allEntries = m.layers.flatten := by
  induction m using Mapping.rec (motive_1 := fun _ => True) (motive_3 := fun _ => True)
    (motive_4 := fun _ => True) (motive_5 := fun _ => True) with
  | layered inner outer hi ho => simp [allEntries, layers, hi, ho]
  | entries es => simp [allEntries, layers]
  | _ => trivial

end Stencil.Mapping
