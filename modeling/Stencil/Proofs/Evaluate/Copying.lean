import Stencil.Proofs.Evaluate.Agreement

/-!
# Copying environments

A section over a mapping lays it over the environment around it, and copies nothing. The same comes out as
from a fresh flat dictionary at each such section, with all entries of the environment and the mapping's own
in their place: `renderBy_enterCopy`.
-/

namespace Stencil

/-! ### Look-ups in lists of entries -/

theorem keyed?_str (key : Text) (es : List (Value × Value)) : keyed? (.str key) es = named? key es := by
  induction es with
  | nil => rfl
  | cons e es ih =>
    obtain ⟨k, v⟩ := e
    rw [keyed?, List.find?_cons]
    by_cases same : k = .str key
    · have hit : k.agrees (.str key) = true := Value.agrees_str_right.mpr same
      simp only [hit, Option.map_some]
      rw [same, named?_cons_same]
    · have other : k.agrees (.str key) = false := Bool.eq_false_iff.mpr (mt Value.agrees_str_right.mp same)
      simp only [other]
      rw [named?_cons_other same]
      exact ih

theorem named?_filter {key : Text} {keep : Value × Value → Bool} (kept : ∀ v, keep (.str key, v) = true)
    (es : List (Value × Value)) : named? key (es.filter keep) = named? key es := by
  induction es with
  | nil => rfl
  | cons e es ih =>
    obtain ⟨k, v⟩ := e
    by_cases same : k = .str key
    · subst same
      rw [List.filter_cons_of_pos (kept v), named?_cons_same, named?_cons_same]
    · rw [named?_cons_other same, ← ih, List.filter_cons]
      split
      · exact named?_cons_other same v _
      · rfl

theorem named?_map (key : Text) (f : Value → Value → Value) (es : List (Value × Value)) :
    named? key (es.map fun e => (e.1, f e.1 e.2)) = (named? key es).map (f (.str key)) := by
  induction es with
  | nil => rfl
  | cons e es ih =>
    obtain ⟨k, v⟩ := e
    rw [List.map_cons]
    by_cases same : k = .str key
    · rw [same, named?_cons_same, named?_cons_same]
      rfl
    · rw [named?_cons_other same, named?_cons_other same, ih]

namespace Mapping

theorem get?_str (key : Text) (m : Mapping) : m.get? (.str key) = m.find? key := by
  rw [get?, keyed?_str, find?_eq_named?]

theorem named?_toList (key : Text) : (m : Mapping) → named? key m.toList = m.find? key
  | entries es => rfl
  | layered inner outer => by
    rw [toList, named?_append, find?_layered, named?_toList key inner]
    cases found : inner.find? key with
    | some v => rfl
    | none =>
      have shown : (inner.get? (.str key)).isNone = true := by rw [get?_str, found, Option.isNone_none]
      rw [named?_filter fun _ => shown, named?_toList key outer]

/-! ### Flat copies -/

/-- A flat copy of `outer` with the values of `inner` in place of its own; what only `inner` has stands last. -/
def overridden (outer inner : Mapping) : Mapping :=
  .entries (outer.toList.map (fun e => (e.1, (inner.get? e.1).getD e.2)) ++
    inner.toList.filter fun e => (outer.get? e.1).isNone)

theorem find?_overridden (key : Text) (outer inner : Mapping) :
    (overridden outer inner).find? key = (inner.find? key).or (outer.find? key) := by
  rw [overridden, find?, named?_append, named?_map key fun k v => (inner.get? k).getD v, named?_toList, get?_str]
  cases bound : outer.find? key with
  | some w => cases inner.find? key <;> rfl
  | none =>
    have new : (outer.get? (.str key)).isNone = true := by rw [get?_str, bound, Option.isNone_none]
    rw [named?_filter fun _ => new, named?_toList]
    cases inner.find? key <;> rfl

example : overridden (.entries [(.str ['a'], .str ['x']), (.str ['b'], .str ['y'])])
    (.entries [(.str ['c'], .str ['z']), (.str ['a'], .null)]) =
    .entries [(.str ['a'], .null), (.str ['b'], .str ['y']), (.str ['c'], .str ['z'])] := by cbv

/-- Enters a section over a mapping with a copy of the environment around it. -/
def enterCopy : Entering
  | env, .mapping m => env.overridden m
  | env, _ => env

end Mapping

theorem Entering.alike_enterCopy (keys : List Text) : Alike keys Mapping.enterCopy Mapping.enter := by
  intro env env' v agree
  cases v with
  | mapping m =>
    intro key mem
    show (env.overridden m).find? key = (Mapping.layered m env').find? key
    rw [Mapping.find?_overridden, Mapping.find?_layered, agree key mem]
  | _ => exact agree

/-- Copies at sections change neither text nor error, nor the calls of helpers and their failures. -/
theorem renderBy_enterCopy (host : Host) (env : Mapping) (nodes : List Node) :
    renderBy Mapping.enterCopy host env nodes = render host env nodes := by
  have same : Mapping.Agree (Node.headsAll nodes) env env := fun _ _ => rfl
  exact renderBy_congr host (Entering.alike_enterCopy _) nodes (List.Subset.refl _) same

end Stencil
