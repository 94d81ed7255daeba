import Stencil.Grammar.Tag
import Stencil.Proofs.Parser.Step

/-!
# Names in tags

Names are read as far as they go. In front of a delimiter, which is what follows a name in a tag, the name
rule reads exactly the names: `nameToken_eq_some`.
-/

namespace Stencil.Grammar

open Stencil.Parser

/-! ### Characters -/

def isNameChar (c : Char) : Bool := isInner c || c = '.'

/-- What may follow a name or a literal in a tag. -/
def isDelimiter (c : Char) : Bool := Text.isBlank c || c = '}' || c = ',' || c = ':'

theorem isNameChar_iff {c : Char} : isNameChar c = true ↔
    c.toNat = 0x24 ∨ c.toNat = 0x2E ∨ (0x30 ≤ c.toNat ∧ c.toNat ≤ 0x39) ∨
    (0x41 ≤ c.toNat ∧ c.toNat ≤ 0x5A) ∨ c.toNat = 0x5F ∨ (0x61 ≤ c.toNat ∧ c.toNat ≤ 0x7A) ∨
    c.toNat = 0x130 ∨ c.toNat = 0x131 ∨ c.toNat = 0x17F ∨ c.toNat = 0x212A := by
  simp [isNameChar, isInner, isInitial, isLetter, Text.isAlpha_iff, Char.isDigit, UInt32.le_iff_toNat_le,
    ← Char.toNat_inj]
  omega

theorem isDelimiter_iff {c : Char} : isDelimiter c = true ↔
    (0x09 ≤ c.toNat ∧ c.toNat ≤ 0x0D) ∨ (0x1C ≤ c.toNat ∧ c.toNat ≤ 0x20) ∨ c.toNat = 0x85 ∨
    c.toNat = 0xA0 ∨ c.toNat = 0x1680 ∨ (0x2000 ≤ c.toNat ∧ c.toNat ≤ 0x200A) ∨ c.toNat = 0x2028 ∨
    c.toNat = 0x2029 ∨ c.toNat = 0x202F ∨ c.toNat = 0x205F ∨ c.toNat = 0x3000 ∨
    c.toNat = 0x7D ∨ c.toNat = 0x2C ∨ c.toNat = 0x3A := by
  simp [isDelimiter, Text.isBlank, ← Char.toNat_inj]
  omega

theorem isNameChar_of_isInitial {c : Char} (initial : isInitial c = true) : isNameChar c = true := by
  simp [isNameChar, isInner, initial]

theorem isNameChar_of_extendsWord {c : Char} (extend : extendsWord c = true) : isNameChar c = true := by
  simp only [extendsWord, Char.isAlphanum, Bool.or_eq_true, decide_eq_true_eq] at extend
  simp only [isNameChar, isInner, isInitial, isLetter, Bool.or_eq_true, decide_eq_true_eq]
  rcases extend with (((alpha | digit) | bar) | dollar) | point
  · simp [alpha]
  · simp [digit]
  · simp [bar]
  · simp [dollar]
  · simp [point]

theorem isDelimiter_of_isBlank {c : Char} (blank : Text.isBlank c = true) : isDelimiter c = true := by
  simp [isDelimiter, blank]

theorem not_isNameChar {c : Char} (delimiter : isDelimiter c = true) : isNameChar c = false := by
  rw [Bool.eq_false_iff, ne_eq, isNameChar_iff]
  rw [isDelimiter_iff] at delimiter
  omega

/-- The rows of digits leave the delimiters and the letters of names alone. -/
theorem isDigit_place {c : Char} (digit : Text.isDigit c = true) :
    (0x30 ≤ c.toNat ∧ c.toNat ≤ 0x39) ∨
      (0x660 ≤ c.toNat ∧ c.toNat ≠ 0x1680 ∧ (c.toNat < 0x2000 ∨ 0x3000 < c.toNat)) := by
  obtain ⟨d, found⟩ := Option.isSome_iff_exists.mp digit
  obtain ⟨z, first, -⟩ := Option.map_eq_some_iff.mp found
  have bounds := List.find?_some first
  have rows : ∀ z ∈ Text.zeros, z = 0x30 ∨
      (0x660 ≤ z ∧ (z + 10 ≤ 0x1680 ∨ 0x1680 < z) ∧ (z + 10 ≤ 0x2000 ∨ 0x3000 < z)) := by decide
  have row := rows z (List.mem_of_find?_eq_some first)
  simp only [Bool.and_eq_true, decide_eq_true_eq] at bounds
  omega

theorem not_isDigit_of_isDelimiter {c : Char} (delimiter : isDelimiter c = true) :
    Text.isDigit c = false := by
  rw [Bool.eq_false_iff]
  intro digit
  have := isDigit_place digit
  rw [isDelimiter_iff] at delimiter
  omega

theorem not_isDigit_of_isInitial {c : Char} (initial : isInitial c = true) : Text.isDigit c = false := by
  rw [Bool.eq_false_iff]
  intro digit
  have := isDigit_place digit
  simp [isInitial, isLetter, Text.isAlpha_iff, ← Char.toNat_inj] at initial
  omega

/-- A delimiter stands at the start of the text. -/
def Delimited (r : Text) : Prop := ∃ c s, r = c :: s ∧ isDelimiter c = true

theorem delimited_cons {c : Char} {r : Text} (delimiter : isDelimiter c = true) : Delimited (c :: r) :=
  ⟨c, r, rfl, delimiter⟩

theorem delimited_blanks {w r : Text} (blanks : Text.Blanks w) (delimited : Delimited r) :
    Delimited (w ++ r) := by
  cases w with
  | nil => exact delimited
  | cons c w => exact delimited_cons (isDelimiter_of_isBlank (blanks c List.mem_cons_self))

theorem Delimited.stops {r : Text} (delimited : Delimited r) {p : Char → Bool}
    (apart : ∀ c, isDelimiter c = true → p c = false) : Stops p r := by
  obtain ⟨c, s, rfl, delimiter⟩ := delimited
  exact stops_cons.mpr (apart c delimiter)

/-! ### Names -/

def IsName (p : Text) : Prop := nameToken p = some (p, [])

/-- The text goes on with a name that stands before it. -/
def continuesName : Text → Bool
  | [] => false
  | c :: s => isInner c || (c = '.' && s.head?.any isInitial)

theorem nameTail_cons (c : Char) (s : Text) : nameTail (c :: s) =
    if continuesName (c :: s) then (c :: (nameTail s).1, (nameTail s).2) else ([], c :: s) := rfl

theorem continuesName_append {c : Char} {t : Text} (r : Text) (inside : continuesName (c :: t) = true) :
    continuesName (c :: t ++ r) = true := by
  cases t with
  | nil => simp_all [continuesName]
  | cons d t => exact inside

theorem continuesName_of_append {c : Char} {t r : Text} (inside : continuesName (c :: t ++ r) = true)
    (stops : continuesName r = false) : continuesName (c :: t) = true := by
  cases t with
  | cons d t => exact inside
  | nil =>
    cases r with
    | nil => exact inside
    | cons d r =>
      simp only [continuesName, isInner, Bool.or_eq_false_iff] at stops
      simpa [continuesName, stops.1.1] using inside

theorem nameTail_whole {c : Char} {t : Text} :
    nameTail (c :: t) = (c :: t, []) ↔ continuesName (c :: t) = true ∧ nameTail t = (t, []) := by
  rw [nameTail_cons]
  split
  · next inside => simp [inside, Prod.ext_iff]
  · next outside => simp [outside]

theorem nameTail_stops (s : Text) : continuesName (nameTail s).2 = false := by
  induction s with
  | nil => rfl
  | cons c s ih =>
    rw [nameTail_cons]
    split
    · exact ih
    · next outside => exact Bool.eq_false_iff.mpr outside

theorem nameTail_prefix (s : Text) : nameTail (nameTail s).1 = ((nameTail s).1, []) := by
  induction s with
  | nil => rfl
  | cons c s ih =>
    rw [nameTail_cons]
    split
    · next inside =>
      rw [← nameTail_append s] at inside
      exact nameTail_whole.mpr ⟨continuesName_of_append inside (nameTail_stops s), ih⟩
    · rfl

theorem nameTail_of_whole {t r : Text} (whole : nameTail t = (t, [])) (stops : continuesName r = false) :
    nameTail (t ++ r) = (t, r) := by
  induction t with
  | nil =>
    cases r with
    | nil => rfl
    | cons d r => rw [List.nil_append, nameTail_cons, if_neg (Bool.eq_false_iff.mp stops)]
  | cons c t ih =>
    obtain ⟨inside, whole⟩ := nameTail_whole.mp whole
    have further : continuesName (c :: (t ++ r)) = true := continuesName_append r inside
    rw [List.cons_append, nameTail_cons, if_pos further, ih whole]

theorem nameTail_eq_iff {s t r : Text} :
    nameTail s = (t, r) ↔ s = t ++ r ∧ nameTail t = (t, []) ∧ continuesName r = false := by
  constructor
  · intro read
    have same := nameTail_append s
    have whole := nameTail_prefix s
    have stops := nameTail_stops s
    rw [read] at same whole stops
    exact ⟨same.symm, whole, stops⟩
  · rintro ⟨rfl, whole, stops⟩
    exact nameTail_of_whole whole stops

theorem nameToken_cons (c : Char) (s : Text) : nameToken (c :: s) =
    if isInitial c then some (c :: (nameTail s).1, (nameTail s).2) else none := rfl

theorem isName_cons {c : Char} {t : Text} :
    IsName (c :: t) ↔ isInitial c = true ∧ nameTail t = (t, []) := by
  simp [IsName, nameToken_cons, Prod.ext_iff]

theorem not_isName_nil : ¬ IsName [] := nofun

theorem nameToken_eq_some_iff {s p r : Text} :
    nameToken s = some (p, r) ↔ IsName p ∧ s = p ++ r ∧ continuesName r = false := by
  cases p with
  | nil =>
    constructor
    · intro read
      cases s with
      | nil => cases read
      | cons c s => rw [nameToken_cons] at read; split at read <;> cases read
    · rintro ⟨name, -⟩; exact absurd name not_isName_nil
  | cons c t =>
    rw [isName_cons]
    constructor
    · intro read
      cases s with
      | nil => cases read
      | cons d s =>
        simp only [nameToken_cons, Option.ite_none_right_eq_some, Option.some.injEq, Prod.mk.injEq,
          List.cons.injEq] at read
        obtain ⟨initial, ⟨rfl, tail⟩, rest⟩ := read
        obtain ⟨same, whole, stops⟩ := nameTail_eq_iff.mp (Prod.ext tail rest)
        exact ⟨⟨initial, whole⟩, congrArg (d :: ·) same, stops⟩
    · rintro ⟨⟨initial, whole⟩, rfl, stops⟩
      rw [List.cons_append, nameToken_cons, if_pos initial, nameTail_eq_iff.mpr ⟨rfl, whole, stops⟩]

theorem continuesName_of_stops {r : Text} (ends : Stops isNameChar r) : continuesName r = false := by
  cases r with
  | nil => rfl
  | cons c r =>
    have apart := stops_cons.mp ends
    simp only [isNameChar, Bool.or_eq_false_iff] at apart
    simp [continuesName, apart.1, apart.2]

theorem continuesName_of_delimited {r : Text} (delimited : Delimited r) : continuesName r = false :=
  continuesName_of_stops (delimited.stops fun _ => not_isNameChar)

/-- In front of a delimiter, exactly the names are read. -/
theorem nameToken_eq_some {s p r : Text} (delimited : Delimited r) :
    nameToken s = some (p, r) ↔ IsName p ∧ s = p ++ r := by
  rw [nameToken_eq_some_iff]
  simp [continuesName_of_delimited delimited]

theorem nameTail_chars (s : Text) : ∀ c ∈ (nameTail s).1, isNameChar c = true := by
  induction s with
  | nil => exact nofun
  | cons c s ih =>
    rw [nameTail_cons]
    split
    · next inside =>
      intro d member
      rcases List.mem_cons.mp member with rfl | member
      · simp only [continuesName, Bool.or_eq_true, Bool.and_eq_true] at inside
        simp only [isNameChar, Bool.or_eq_true]
        exact inside.imp_right And.left
      · exact ih d member
    · exact nofun

theorem IsName.chars {p : Text} (name : IsName p) : ∀ c ∈ p, isNameChar c = true := by
  cases p with
  | nil => exact nofun
  | cons c t =>
    obtain ⟨initial, whole⟩ := isName_cons.mp name
    intro d member
    rcases List.mem_cons.mp member with rfl | member
    · exact isNameChar_of_isInitial initial
    · have inside := nameTail_chars t
      rw [whole] at inside
      exact inside d member

end Stencil.Grammar
