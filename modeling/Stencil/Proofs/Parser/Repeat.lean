import Stencil.Parser.Basic

/-!
# Repetition

A repetition goes on for as long as a run of its parser succeeds and leaves a text of another length. The runs
that it makes form a chain, and `many_eq_iff` says that it comes to what the longest chain comes to. Where the
parser leaves suffixes no turn can be taken without end: `wellFounded_turn`.
-/

namespace Stencil.Parser

variable {α : Type} {p : Parser α} {s t : Text} {as : List α}

/-- A run succeeds, and the length of what it leaves differs from that of what it was given. -/
def Turn (p : Parser α) (s t : Text) : Prop := ∃ a, p s = some (a, t) ∧ t.length ≠ s.length

/-- A run fails, or it reads nothing. -/
def Idle (p : Parser α) (s : Text) : Prop := p s = none ∨ ∃ a t, p s = some (a, t) ∧ t.length = s.length

/-- Runs one after the other, each of which leaves less than it was given: their values, and what is left. -/
inductive Chain (p : Parser α) : Text → List α → Text → Prop
  | nil (s : Text) : Chain p s [] s
  | cons {s t u : Text} {a : α} {as : List α} (read : p s = some (a, t)) (shorter : t.length < s.length)
      (later : Chain p t as u) : Chain p s (a :: as) u

theorem turn_shorter (suffixing : Suffixing p) (turn : Turn p s t) : t.length < s.length := by
  obtain ⟨a, read, differs⟩ := turn
  exact Nat.lt_of_le_of_ne (suffixing read).length_le differs

theorem wellFounded_turn (suffixing : Suffixing p) : WellFounded fun t s => Turn p s t :=
  Subrelation.wf (fun turn => turn_shorter suffixing turn) (InvImage.wf List.length Nat.lt_wfRel.wf)

theorem chain_many (p : Parser α) (s : Text) : Chain p s (many p s).1 (many p s).2 := by
  fun_induction many p s with
  | case1 s none => exact .nil s
  | case2 s a t read shorter as u rest ih =>
    rw [rest] at ih
    exact .cons read shorter ih
  | case3 s a t read longer => exact .nil s

theorem idle_many (suffixing : Suffixing p) (s : Text) : Idle p (many p s).2 := by
  fun_induction many p s with
  | case1 s none => exact .inl none
  | case2 s a t read shorter as u rest ih =>
    rw [rest] at ih
    exact ih
  | case3 s a t read longer =>
    -- A suffix that is not shorter is the whole text.
    have bound := (suffixing read).length_le
    exact .inr ⟨a, t, read, Nat.le_antisymm bound (Nat.not_lt.mp longer)⟩

/-- The value of a run that reads nothing is dropped. -/
theorem many_of_idle (idle : Idle p s) : many p s = ([], s) := by
  rw [many]
  rcases idle with none | ⟨a, t, read, same⟩
  · rw [none]
  · rw [read]
    exact if_neg (Nat.not_lt.mpr (Nat.le_of_eq same.symm))

theorem Chain.many_eq (chain : Chain p s as t) (idle : Idle p t) : many p s = (as, t) := by
  induction chain with
  | nil s => exact many_of_idle idle
  | cons read shorter later ih =>
    rw [many, read]
    simp only [ih idle]
    exact if_pos shorter

theorem many_eq_iff (suffixing : Suffixing p) : many p s = (as, t) ↔ Chain p s as t ∧ Idle p t := by
  constructor
  · intro same
    have chain := chain_many p s
    have idle := idle_many suffixing s
    rw [same] at chain idle
    exact ⟨chain, idle⟩
  · rintro ⟨chain, idle⟩
    exact chain.many_eq idle

end Stencil.Parser
