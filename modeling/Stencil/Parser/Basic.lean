import Stencil.Text.Blank

/-!
# Parsers

A parser reads a value off the start of a text and leaves the rest, or fails. Failure is a value, so
choice and sequence compose it. What a parser leaves is a suffix of what it was given: `Suffixing` states
this and each way to build a parser keeps it, which is why repetition ends.
-/

namespace Stencil

def Parser (α : Type) : Type := Text → Option (α × Text)

namespace Parser

variable {α β : Type}

instance : Monad Parser where
  pure a := fun s => some (a, s)
  bind p f := fun s => (p s).bind fun (a, t) => f a t

/-- The second parser runs where the first one fails. -/
instance : OrElse (Parser α) where
  orElse p q := fun s => (p s).or (q () s)

def fail : Parser α := fun _ => none

def literal (t : Text) : Parser Text := fun s => (Text.after? t s).map (t, ·)

/-- Reads the longest run of characters of `p`; never fails. -/
def run (p : Char → Bool) : Parser Text := fun s => some (s.takeWhile p, s.dropWhile p)

def satisfy (p : Char → Bool) : Parser Char
  | c :: s => if p c then some (c, s) else none
  | [] => none

def blanks : Parser Unit := do let _ ← run Text.isBlank

/-- The text before the first place where `p` succeeds, and the text from there on. -/
def cutBefore (p : Parser α) : Text → Text × Text
  | [] => ([], [])
  | c :: s =>
    if (p (c :: s)).isSome then ([], c :: s)
    else
      let (t, r) := cutBefore p s
      (c :: t, r)

/-- Reads up to the first place where `p` succeeds, or to the end; never fails. -/
def upTo (p : Parser α) : Parser Text := fun s => some (cutBefore p s)

/-- The values of the runs of `p` one after the other, as long as a run succeeds and reads something, and
the text that they leave. -/
def many (p : Parser α) (s : Text) : List α × Text :=
  match p s with
  | none => ([], s)
  | some (a, t) =>
    if t.length < s.length then
      let (as, u) := many p t
      (a :: as, u)
    else ([], s)
termination_by s.length

def repeated (p : Parser α) : Parser (List α) := fun s => some (many p s)

/-! ### What a parser leaves -/

/-- What the parser leaves is a suffix of its input. -/
def Suffixing (p : Parser α) : Prop := ∀ ⦃s t : Text⦄ ⦃a : α⦄, p s = some (a, t) → t <:+ s

theorem bind_eq_some {p : Parser α} {f : α → Parser β} {s u : Text} {b : β} :
    (p >>= f) s = some (b, u) ↔ ∃ a t, p s = some (a, t) ∧ f a t = some (b, u) := by
  show (p s).bind _ = _ ↔ _
  simp [Option.bind_eq_some_iff]

theorem orElse_eq_some {p q : Parser α} {s t : Text} {a : α} :
    (p <|> q) s = some (a, t) ↔ p s = some (a, t) ∨ p s = none ∧ q s = some (a, t) := by
  show (p s).or (q s) = _ ↔ _
  cases p s <;> simp

theorem map_eq_some {f : α → β} {p : Parser α} {s t : Text} {b : β} :
    (f <$> p) s = some (b, t) ↔ ∃ a, p s = some (a, t) ∧ f a = b := by
  show (p s).bind _ = _ ↔ _
  cases h : p s with
  | none => simp
  | some r =>
    obtain ⟨a, u⟩ := r
    show some (f a, u) = some (b, t) ↔ _
    simp only [Option.some.injEq, Prod.mk.injEq]
    constructor
    · rintro ⟨rfl, rfl⟩; exact ⟨a, ⟨rfl, rfl⟩, rfl⟩
    · rintro ⟨_, ⟨rfl, rfl⟩, rfl⟩; exact ⟨rfl, rfl⟩

theorem suffixing_pure (a : α) : Suffixing (pure a : Parser α) := by
  intro s t b h
  cases h
  exact List.suffix_refl _

theorem suffixing_bind {p : Parser α} {f : α → Parser β} (hp : Suffixing p) (hf : ∀ a, Suffixing (f a)) :
    Suffixing (p >>= f) := by
  intro s u b h
  obtain ⟨a, t, h1, h2⟩ := bind_eq_some.1 h
  exact (hf a h2).trans (hp h1)

theorem suffixing_map {f : α → β} {p : Parser α} (hp : Suffixing p) : Suffixing (f <$> p) := by
  intro s t b h
  obtain ⟨a, h1, -⟩ := map_eq_some.1 h
  exact hp h1

theorem suffixing_orElse {p q : Parser α} (hp : Suffixing p) (hq : Suffixing q) : Suffixing (p <|> q) := by
  intro s t a h
  rcases orElse_eq_some.1 h with h | ⟨-, h⟩
  · exact hp h
  · exact hq h

theorem literal_eq_some {t s r a : Text} : literal t s = some (a, r) ↔ a = t ∧ s = t ++ r := by
  simp only [literal, Option.map_eq_some_iff, Prod.mk.injEq, Text.after?_eq_some]
  constructor
  · rintro ⟨_, h, rfl, rfl⟩; exact ⟨rfl, h⟩
  · rintro ⟨rfl, h⟩; exact ⟨_, h, rfl, rfl⟩

theorem suffixing_literal (t : Text) : Suffixing (literal t) := by
  intro s r a h
  obtain ⟨-, rfl⟩ := literal_eq_some.1 h
  exact List.suffix_append _ _

theorem suffixing_run (p : Char → Bool) : Suffixing (run p) := by
  intro s t a h
  cases h
  exact List.dropWhile_suffix p

theorem suffixing_satisfy (p : Char → Bool) : Suffixing (satisfy p) := by
  intro s t a h
  cases s with
  | nil => cases h
  | cons c s =>
    simp only [satisfy, Option.ite_none_right_eq_some, Option.some.injEq, Prod.mk.injEq] at h
    obtain ⟨-, -, rfl⟩ := h
    exact List.suffix_cons _ _

theorem suffixing_blanks : Suffixing blanks :=
  suffixing_bind (suffixing_run _) fun _ => suffixing_pure _

theorem cutBefore_append (p : Parser α) (s : Text) : (cutBefore p s).1 ++ (cutBefore p s).2 = s := by
  induction s with
  | nil => rfl
  | cons c s ih => unfold cutBefore; split <;> simp [ih]

theorem suffixing_upTo (p : Parser α) : Suffixing (upTo p) := by
  intro s t a h
  have := cutBefore_append p s
  simp only [upTo, Option.some.injEq] at h
  rw [h] at this
  exact ⟨a, this⟩

theorem many_suffix {p : Parser α} (hp : Suffixing p) (s : Text) : (many p s).2 <:+ s := by
  fun_induction many p s with
  | case1 => exact List.suffix_refl _
  | case2 s a t h hl as u hm ih => rw [hm] at ih; exact ih.trans (hp h)
  | case3 => exact List.suffix_refl _

theorem suffixing_repeated {p : Parser α} (hp : Suffixing p) : Suffixing (repeated p) := by
  intro s t a h
  simp only [repeated, Option.some.injEq] at h
  have := many_suffix hp s
  rwa [h] at this

end Parser

end Stencil
