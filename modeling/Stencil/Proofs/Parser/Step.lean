import Stencil.Parser.Basic

/-!
# What single steps read

Each step of a parser is described by an equivalence, so that a parser put together from steps is opened by
rewriting. `cutBefore_eq_iff` says that a search stops at the first place where its parser succeeds.
-/

namespace Stencil.Parser

variable {α β : Type}

/-- No character of `p` stands at the start of the text. -/
def Stops (p : Char → Bool) (r : Text) : Prop := ∀ c ∈ r.head?, p c = false

theorem stops_cons {p : Char → Bool} {c : Char} {r : Text} : Stops p (c :: r) ↔ p c = false := by
  simp [Stops]

theorem pure_eq_some {a b : α} {s r : Text} : (pure a : Parser α) s = some (b, r) ↔ b = a ∧ s = r := by
  show some (a, s) = some (b, r) ↔ _
  simp [eq_comm]

theorem eq_none_of {p : Parser α} {s : Text} (fails : ∀ a r, p s ≠ some (a, r)) : p s = none := by
  rw [Option.eq_none_iff_forall_not_mem]
  rintro ⟨a, r⟩ read
  exact fails a r read

theorem map_eq_none {f : α → β} {p : Parser α} {s : Text} : (f <$> p) s = none ↔ p s = none := by
  show (p s).bind _ = none ↔ _
  cases p s with
  | none => simp
  | some r => exact iff_of_false nofun nofun

theorem orElse_eq_none {p q : Parser α} {s : Text} : (p <|> q) s = none ↔ p s = none ∧ q s = none := by
  show (p s).or (q s) = none ↔ _
  simp

/-- A sequence fails where its first character is not there. -/
theorem literal_bind_eq_none {c d : Char} {t s : Text} {f : Text → Parser α} (other : d ≠ c) :
    (literal (c :: t) >>= f) (d :: s) = none := by
  refine eq_none_of fun a r read => ?_
  obtain ⟨_, u, opened, -⟩ := bind_eq_some.mp read
  obtain ⟨-, same⟩ := literal_eq_some.mp opened
  exact other (List.cons.inj same).1

theorem satisfy_eq_some {p : Char → Bool} {s r : Text} {c : Char} :
    satisfy p s = some (c, r) ↔ p c = true ∧ s = c :: r := by
  cases s with
  | nil => simp [satisfy]
  | cons d s =>
    simp only [satisfy, Option.ite_none_right_eq_some, Option.some.injEq, Prod.mk.injEq, List.cons.injEq]
    constructor
    · rintro ⟨h, rfl, rfl⟩; exact ⟨h, rfl, rfl⟩
    · rintro ⟨h, rfl, rfl⟩; exact ⟨h, rfl, rfl⟩

theorem takeWhile_append_stops {p : Char → Bool} {t r : Text} (inside : ∀ c ∈ t, p c = true)
    (stops : Stops p r) : (t ++ r).takeWhile p = t := by
  rw [List.takeWhile_append_of_pos inside]
  cases r with
  | nil => simp
  | cons c r => simp [stops_cons.mp stops]

theorem dropWhile_append_stops {p : Char → Bool} {t r : Text} (inside : ∀ c ∈ t, p c = true)
    (stops : Stops p r) : (t ++ r).dropWhile p = r := by
  rw [List.dropWhile_append_of_pos inside]
  cases r with
  | nil => rfl
  | cons c r => simp [stops_cons.mp stops]

theorem stops_dropWhile (p : Char → Bool) (s : Text) : Stops p (s.dropWhile p) := by
  induction s with
  | nil => simp [Stops]
  | cons c s ih =>
    rw [List.dropWhile_cons]
    split
    · exact ih
    · next h => exact stops_cons.mpr (by simpa using h)

theorem run_eq_some {p : Char → Bool} {s t r : Text} :
    run p s = some (t, r) ↔ (∀ c ∈ t, p c = true) ∧ s = t ++ r ∧ Stops p r := by
  simp only [run, Option.some.injEq, Prod.mk.injEq]
  constructor
  · rintro ⟨rfl, rfl⟩
    refine ⟨fun c member => ?_, (List.takeWhile_append_dropWhile).symm, stops_dropWhile p s⟩
    exact List.all_eq_true.mp List.all_takeWhile c member
  · rintro ⟨inside, rfl, stops⟩
    exact ⟨takeWhile_append_stops inside stops, dropWhile_append_stops inside stops⟩

theorem blanks_eq_some {s r : Text} {u : Unit} :
    blanks s = some (u, r) ↔ ∃ w, Text.Blanks w ∧ s = w ++ r ∧ Stops Text.isBlank r := by
  simp only [blanks, bind_eq_some, pure_eq_some, run_eq_some, Text.Blanks]
  constructor
  · rintro ⟨w, t, ⟨inside, rfl, stops⟩, -, rfl⟩
    exact ⟨w, inside, rfl, stops⟩
  · rintro ⟨w, inside, rfl, stops⟩
    exact ⟨w, r, ⟨inside, rfl, stops⟩, trivial, rfl⟩

theorem blanks_eq_nil {w r : Text} (blanks : Text.Blanks w) (stops : Stops Text.isBlank (w ++ r)) : w = [] := by
  cases w with
  | nil => rfl
  | cons c w =>
    have blank := blanks c List.mem_cons_self
    rw [stops_cons.mp stops] at blank
    cases blank

/-! ### Searches -/

/-- `p` holds at no place of the first text when the second one stands behind it. -/
def Nowhere (p : Text → Prop) : Text → Text → Prop
  | [], _ => True
  | c :: t, r => ¬ p (c :: t ++ r) ∧ Nowhere p t r

theorem nowhere_append {p : Text → Prop} {t u r : Text} :
    Nowhere p (t ++ u) r ↔ Nowhere p t (u ++ r) ∧ Nowhere p u r := by
  induction t with
  | nil => simp [Nowhere]
  | cons c t ih => simp only [List.cons_append, Nowhere, ih, List.append_assoc, and_assoc]

/-- Texts that stand behind may be exchanged where no place of the first text tells them apart. -/
theorem nowhere_congr {p : Text → Prop} {t r u : Text}
    (same : ∀ y, y ≠ [] → y <:+ t → (p (y ++ r) ↔ p (y ++ u))) : Nowhere p t r ↔ Nowhere p t u := by
  induction t with
  | nil => exact Iff.rfl
  | cons c t ih =>
    have first := same (c :: t) (List.cons_ne_nil _ _) (List.suffix_refl _)
    have later := ih fun y nonempty suffix => same y nonempty (suffix.trans (List.suffix_cons _ _))
    rw [Nowhere, Nowhere, first, later]

theorem nowhere_mono {p q : Text → Prop} {t r u : Text} (implied : ∀ y, q (y ++ u) → p (y ++ r))
    (absent : Nowhere p t r) : Nowhere q t u := by
  induction t with
  | nil => exact trivial
  | cons c t ih => exact ⟨fun holds => absent.1 (implied _ holds), ih absent.2⟩

/-- A property of texts that begin with `c` holds nowhere in a text without `c`. -/
theorem nowhere_of_not_mem {p : Text → Prop} {c : Char} (starts : ∀ s, p s → s.head? = some c) {t : Text}
    (absent : c ∉ t) (r : Text) : Nowhere p t r := by
  induction t with
  | nil => exact trivial
  | cons d t ih =>
    simp only [List.mem_cons, not_or] at absent
    refine ⟨fun holds => absent.1 ?_, ih absent.2⟩
    simpa using (starts _ holds).symm

theorem cutBefore_nowhere (p : Parser α) (s : Text) :
    Nowhere (fun u => (p u).isSome = true) (cutBefore p s).1 (cutBefore p s).2 := by
  induction s with
  | nil => exact trivial
  | cons c s ih =>
    rw [cutBefore]
    split
    · exact trivial
    · next missing =>
      refine ⟨?_, ih⟩
      rw [List.cons_append, cutBefore_append]
      exact missing

theorem cutBefore_ends (p : Parser α) (s : Text) :
    (cutBefore p s).2 = [] ∨ (p (cutBefore p s).2).isSome = true := by
  induction s with
  | nil => exact .inl rfl
  | cons c s ih =>
    rw [cutBefore]
    split
    · next found => exact .inr found
    · exact ih

theorem cutBefore_of_nowhere {p : Parser α} {t r : Text}
    (absent : Nowhere (fun u => (p u).isSome = true) t r) (ends : r = [] ∨ (p r).isSome = true) :
    cutBefore p (t ++ r) = (t, r) := by
  induction t with
  | nil =>
    cases r with
    | nil => rfl
    | cons c r =>
      have found := ends.resolve_left (List.cons_ne_nil c r)
      rw [List.nil_append, cutBefore, if_pos found]
  | cons c t ih =>
    obtain ⟨missing, absent⟩ := absent
    rw [List.cons_append] at missing ⊢
    rw [cutBefore, if_neg missing, ih absent]

theorem cutBefore_eq_iff {p : Parser α} {s t r : Text} :
    cutBefore p s = (t, r) ↔
      s = t ++ r ∧ Nowhere (fun u => (p u).isSome = true) t r ∧ (r = [] ∨ (p r).isSome = true) := by
  constructor
  · intro cut
    have same := cutBefore_append p s
    have absent := cutBefore_nowhere p s
    have ends := cutBefore_ends p s
    rw [cut] at same absent ends
    exact ⟨same.symm, absent, ends⟩
  · rintro ⟨rfl, absent, ends⟩
    exact cutBefore_of_nowhere absent ends

end Stencil.Parser
