import Stencil.Proofs.Grammar.Marker

/-!
# Where an end marker is found

The search for an end marker gives two places: the least one at which an end marker of the name begins, and the
place of its closing braces. The name may be any text, so that blanks at its ends, braces in it and the empty
name are no exception: `findEnd_least`.
-/

namespace Stencil.Grammar

open Stencil.Parser

/-- At `i` stand opening braces, a slash and the name between blanks, and at `j` the closing braces of them. -/
def MarkerAt (name s : Text) (i j : Nat) : Prop :=
  ∃ w w' rest, Text.Blanks w ∧ Text.Blanks w' ∧
    s.drop i = openBraces ++ ['/'] ++ w ++ name ++ w' ++ closeBraces ++ rest ∧
    j = i + (3 + w.length + name.length + w'.length)

/-- Where the marker begins, and where its closing braces stand. -/
def Ending.span (e : Ending) : Nat × Nat := (e.body.length, e.body.length + (e.marker.length - e.closing.length))

/-! ### Places in a text -/

theorem nowhere_iff_drop {p : Text → Prop} {t r : Text} :
    Nowhere p t r ↔ ∀ i < t.length, ¬ p ((t ++ r).drop i) := by
  induction t with
  | nil => exact iff_of_true trivial nofun
  | cons c t ih =>
    rw [Nowhere, ih]
    constructor
    · rintro ⟨first, later⟩ i inside
      cases i with
      | zero => exact first
      | succ i => exact later i (Nat.lt_of_succ_lt_succ inside)
    · intro absent
      exact ⟨absent 0 (Nat.zero_lt_succ _), fun i inside => absent (i + 1) (Nat.succ_lt_succ inside)⟩

theorem marker_length {name s w w' rest : Text} {i : Nat}
    (shape : s.drop i = openBraces ++ ['/'] ++ w ++ name ++ w' ++ closeBraces ++ rest) :
    i + (3 + w.length + name.length + w'.length) + (closeBraces ++ rest).length = s.length := by
  have long := congrArg List.length shape
  simp only [openBraces, closeBraces, List.length_drop, List.length_append, List.length_cons,
    List.length_nil] at long ⊢
  omega

theorem MarkerAt.bounds {name s : Text} {i j : Nat} (place : MarkerAt name s i j) : i < j ∧ j < s.length := by
  obtain ⟨w, w', rest, -, -, shape, rfl⟩ := place
  have long := marker_length shape
  have closing : 0 < (closeBraces ++ rest).length := Nat.zero_lt_succ _
  omega

/-- The end of the text tells where the closing braces stand, whichever way the blanks are divided. -/
theorem markerAt_iff {name s : Text} {i j : Nat} :
    MarkerAt name s i j ↔ ∃ c, endMarker name (s.drop i) = some c ∧ j + c.length = s.length := by
  constructor
  · rintro ⟨w, w', rest, blanks, blanks', shape, rfl⟩
    have foot : Node.Framed ['/'] name (openBraces ++ ['/'] ++ w ++ name ++ w' ++ closeBraces) :=
      ⟨_, ⟨w, w', blanks, blanks', rfl⟩, by simp⟩
    exact ⟨closeBraces ++ rest, endMarker_eq_some.mpr ⟨_, rest, foot, shape, rfl⟩, marker_length shape⟩
  · rintro ⟨c, marked, ends⟩
    obtain ⟨_, rest, ⟨_, ⟨w, w', blanks, blanks', rfl⟩, rfl⟩, shape, rfl⟩ := endMarker_eq_some.mp marked
    have whole : s.drop i = openBraces ++ ['/'] ++ w ++ name ++ w' ++ closeBraces ++ rest := by simpa using shape
    have long := marker_length whole
    exact ⟨w, w', rest, blanks, blanks', whole, by omega⟩

theorem marked_drop_iff {name s : Text} {i : Nat} : Marked name (s.drop i) ↔ ∃ j, MarkerAt name s i j := by
  rw [Marked, Option.isSome_iff_exists]
  constructor
  · rintro ⟨c, marked⟩
    have short := (endMarker_suffix marked).length_le
    rw [List.length_drop] at short
    exact ⟨s.length - c.length, markerAt_iff.mpr ⟨c, marked, by omega⟩⟩
  · rintro ⟨j, place⟩
    obtain ⟨c, marked, -⟩ := markerAt_iff.mp place
    exact ⟨c, marked⟩

/-! ### The search -/

theorem span_sound {name s : Text} {e : Ending} {i j : Nat} (found : findEnd name s = some e)
    (span : e.span = (i, j)) : MarkerAt name s i j ∧ ∀ k < i, ∀ l, ¬ MarkerAt name s k l := by
  obtain ⟨b, m, d⟩ := e
  obtain ⟨rfl, rfl⟩ := Prod.mk.inj span
  obtain ⟨rfl, absent, marked⟩ := findEnd_eq_some.mp found
  dsimp only
  constructor
  · have short := (endMarker_suffix marked).length_le
    refine markerAt_iff.mpr ⟨d, by rw [List.drop_left]; exact marked, ?_⟩
    rw [List.length_append]
    omega
  · intro k before l place
    exact nowhere_iff_drop.mp absent k before (marked_drop_iff.mpr ⟨l, place⟩)

theorem span_complete {name s : Text} {i j : Nat} (place : MarkerAt name s i j)
    (least : ∀ k < i, ∀ l, ¬ MarkerAt name s k l) : (findEnd name s).map Ending.span = some (i, j) := by
  have bounds := place.bounds
  obtain ⟨c, marked, ends⟩ := markerAt_iff.mp place
  have length : (s.take i).length = i := List.length_take_of_le (by omega)
  have absent : Nowhere (Marked name) (s.take i) (s.drop i) := by
    rw [nowhere_iff_drop, List.take_append_drop, length]
    intro k before later
    obtain ⟨l, earlier⟩ := marked_drop_iff.mp later
    exact least k before l earlier
  have found := findEnd_of_nowhere absent marked
  rw [List.take_append_drop] at found
  have closing : i + (s.length - i - c.length) = j := by omega
  rw [found, Option.map_some, Ending.span]
  dsimp only
  rw [length, List.length_drop, closing]

/-- The search gives `i` and `j` where an end marker of the name begins at `i` and at no place before it, and has
its closing braces at `j`; it gives nothing where there is no end marker. -/
theorem findEnd_least (name s : Text) :
    (∀ i j, (findEnd name s).map Ending.span = some (i, j) ↔
      MarkerAt name s i j ∧ ∀ k < i, ∀ l, ¬ MarkerAt name s k l) ∧
    (findEnd name s = none ↔ ∀ i j, ¬ MarkerAt name s i j) := by
  constructor
  · intro i j
    constructor
    · intro found
      obtain ⟨e, found, same⟩ := Option.map_eq_some_iff.mp found
      exact span_sound found same
    · rintro ⟨place, least⟩
      exact span_complete place least
  · rw [findEnd_eq_none, nowhere_iff_drop, List.append_nil]
    constructor
    · intro absent i j place
      have bounds := place.bounds
      exact absent i (by omega) (marked_drop_iff.mpr ⟨j, place⟩)
    · intro absent i _ marked
      obtain ⟨j, place⟩ := marked_drop_iff.mp marked
      exact absent i j place

/-- The name is blank at its ends, and an end marker of another name stands before the one that is found. -/
example : (findEnd " a ".toList "\x7b\x7b/ b\x7d\x7d \x7b\x7b/  a \x7d\x7d\x7d".toList).map Ending.span =
    some (8, 15) := by
  decide

end Stencil.Grammar
