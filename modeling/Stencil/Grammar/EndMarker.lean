import Stencil.Node.Printer
import Stencil.Parser.Basic

/-!
# End markers

A section ends at the first end marker of its name: two opening braces, a slash, blanks, the name, blanks,
and two closing braces, which are looked at and not read. `findEnd_append` says that the search takes the
text apart.
-/

namespace Stencil.Grammar

/-- The text from the closing braces on, when the name, blanks and closing braces stand at the start. -/
def closesHere (name s : Text) : Option Text :=
  (Text.after? name s).bind fun r =>
    (Text.after? closeBraces (Text.skipBlanks r)).map fun _ => Text.skipBlanks r

/-- `closesHere` behind some of the blanks that the text begins with. The name may itself begin with
blanks, so each number of them is tried. -/
def closesSection (name : Text) : Text → Option Text
  | [] => closesHere name []
  | c :: s => (closesHere name (c :: s)).or (if Text.isBlank c then closesSection name s else none)

/-- The text from the closing braces on, when an end marker of `name` stands at the start. -/
def endMarker (name : Text) (s : Text) : Option Text :=
  (Text.after? (openBraces ++ ['/']) s).bind (closesSection name)

structure Ending where
  body : Text
  /-- The marker and all that follows it. -/
  marker : Text
  /-- The closing braces of the marker and all that follows them. -/
  closing : Text

/-- The text divided at its first end marker of `name`. -/
def findEnd (name : Text) : Text → Option Ending
  | [] => none
  | c :: s =>
    match endMarker name (c :: s) with
    | some closing => some ⟨[], c :: s, closing⟩
    | none => (findEnd name s).map fun e => { e with body := c :: e.body }

theorem findEnd_append {name s : Text} {e : Ending} (h : findEnd name s = some e) :
    e.body ++ e.marker = s := by
  induction s generalizing e with
  | nil => cases h
  | cons c s ih =>
    unfold findEnd at h
    split at h
    · cases h; rfl
    · obtain ⟨e', h', rfl⟩ := Option.map_eq_some_iff.1 h
      simp [ih h']

theorem skipBlanks_suffix (s : Text) : Text.skipBlanks s <:+ s := List.dropWhile_suffix _

theorem closesHere_suffix {name s r : Text} (h : closesHere name s = some r) : r <:+ s := by
  obtain ⟨t, ht, h⟩ := Option.bind_eq_some_iff.1 h
  obtain ⟨_, -, rfl⟩ := Option.map_eq_some_iff.1 h
  rw [Text.after?_eq_some.1 ht]
  exact (skipBlanks_suffix t).trans (List.suffix_append _ _)

theorem closesSection_suffix {name s r : Text} (h : closesSection name s = some r) : r <:+ s := by
  induction s with
  | nil => exact closesHere_suffix h
  | cons c s ih =>
    unfold closesSection at h
    rcases Option.or_eq_some_iff.1 h with h | ⟨-, h⟩
    · exact closesHere_suffix h
    · simp only [Option.ite_none_right_eq_some] at h
      exact (ih h.2).trans (List.suffix_cons _ _)

theorem endMarker_suffix {name s r : Text} (h : endMarker name s = some r) : r <:+ s := by
  obtain ⟨t, ht, h⟩ := Option.bind_eq_some_iff.1 h
  rw [Text.after?_eq_some.1 ht]
  exact (closesSection_suffix h).trans (List.suffix_append _ _)

theorem findEnd_closing_suffix {name s : Text} {e : Ending} (h : findEnd name s = some e) :
    e.closing <:+ s := by
  induction s generalizing e with
  | nil => cases h
  | cons c s ih =>
    unfold findEnd at h
    split at h
    · next hm => cases h; exact endMarker_suffix hm
    · obtain ⟨e', h', rfl⟩ := Option.map_eq_some_iff.1 h
      exact (ih h').trans (List.suffix_cons _ _)

end Stencil.Grammar
