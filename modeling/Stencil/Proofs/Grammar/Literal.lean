import Stencil.Proofs.Grammar.Name
import Stencil.Proofs.Node.Spelling

/-!
# Literals and values in tags

In front of a delimiter the literal rule reads exactly the literals: `literalToken_eq_some`. A literal goes
before a name, so a name is a value only where no boolean begins it: `valueNode_eq_some`.
-/

namespace Stencil.Grammar

open Stencil.Parser

def Digits (ds : Text) : Prop := ds ≠ [] ∧ ∀ d ∈ ds, Text.isDigit d = true

inductive IsLiteral : Text → Prop
  | string {quote : Char} {inner : Text} (mark : quote = '\'' ∨ quote = '"') (plain : quote ∉ inner) :
      IsLiteral (quote :: inner ++ [quote])
  | whole {ds : Text} (digits : Digits ds) : IsLiteral ds
  | decimal {ds fs : Text} (digits : Digits ds) (fraction : Digits fs) : IsLiteral (ds ++ '.' :: fs)
  | boolean {t : Text} (word : t = "true".toList ∨ t = "false".toList) : IsLiteral t

/-- A text between quotes. -/
def IsString (token : Text) : Prop := token.head? = some '\'' ∨ token.head? = some '"'

theorem stringToken_eq_some {quote : Char} {s t r : Text} : stringToken quote s = some (t, r) ↔
    ∃ inner, quote ∉ inner ∧ t = quote :: inner ++ [quote] ∧ s = t ++ r := by
  simp only [stringToken, bind_eq_some, literal_eq_some, run_eq_some, pure_eq_some]
  constructor
  · rintro ⟨_, _, ⟨rfl, rfl⟩, inner, _, ⟨plain, rfl, -⟩, _, _, ⟨rfl, rfl⟩, rfl, rfl⟩
    exact ⟨inner, fun member => by simpa using plain _ member, rfl, by simp⟩
  · rintro ⟨inner, plain, rfl, rfl⟩
    refine ⟨_, _, ⟨rfl, rfl⟩, inner, [quote] ++ r, ⟨?_, by simp, ?_⟩, _, _, ⟨rfl, rfl⟩, rfl, rfl⟩
    · intro c member
      exact bne_iff_ne.mpr fun same => plain (same ▸ member)
    · exact stops_cons.mpr (by simp)

theorem stringToken_eq_none {quote c : Char} {s : Text} (different : c ≠ quote) :
    stringToken quote (c :: s) = none := by
  refine eq_none_of fun t r read => ?_
  obtain ⟨inner, -, rfl, same⟩ := stringToken_eq_some.mp read
  exact different (List.cons.inj same).1

theorem digitsToken_eq_some {s t r : Text} :
    digitsToken s = some (t, r) ↔ Digits t ∧ s = t ++ r ∧ Stops Text.isDigit r := by
  simp only [digitsToken, bind_eq_some, satisfy_eq_some, run_eq_some, pure_eq_some]
  constructor
  · rintro ⟨d, _, ⟨digit, rfl⟩, ds, _, ⟨digits, rfl, stops⟩, rfl, rfl⟩
    exact ⟨⟨List.cons_ne_nil _ _, List.forall_mem_cons.mpr ⟨digit, digits⟩⟩, rfl, stops⟩
  · rintro ⟨⟨nonempty, digits⟩, rfl, stops⟩
    cases t with
    | nil => exact absurd rfl nonempty
    | cons d ds =>
      obtain ⟨digit, digits⟩ := List.forall_mem_cons.mp digits
      exact ⟨d, _, ⟨digit, rfl⟩, ds, r, ⟨digits, rfl, stops⟩, rfl, rfl⟩

theorem fractionToken_eq_some {s t r : Text} (delimited : Delimited r) :
    fractionToken s = some (t, r) ↔ (t = [] ∨ ∃ fs, Digits fs ∧ t = '.' :: fs) ∧ s = t ++ r := by
  have stops := delimited.stops fun _ => not_isDigit_of_isDelimiter
  simp only [fractionToken, orElse_eq_some, bind_eq_some, literal_eq_some, digitsToken_eq_some, pure_eq_some]
  constructor
  · rintro (⟨_, _, ⟨rfl, rfl⟩, fs, _, ⟨digits, rfl, -⟩, rfl, rfl⟩ | ⟨-, rfl, rfl⟩)
    · exact ⟨.inr ⟨fs, digits, rfl⟩, rfl⟩
    · exact ⟨.inl rfl, rfl⟩
  · rintro ⟨rfl | ⟨fs, digits, rfl⟩, rfl⟩
    · refine .inr ⟨?_, rfl, rfl⟩
      refine eq_none_of fun t r' read => ?_
      obtain ⟨c, s, rfl, delimiter⟩ := delimited
      obtain ⟨_, _, pointed, -⟩ := bind_eq_some.mp read
      obtain ⟨-, same⟩ := literal_eq_some.mp pointed
      obtain rfl : c = '.' := (List.cons.inj same).1
      cases delimiter
    · exact .inl ⟨_, _, ⟨rfl, rfl⟩, fs, r, ⟨digits, rfl, stops⟩, rfl, rfl⟩

theorem numberToken_eq_some {s t r : Text} (delimited : Delimited r) : numberToken s = some (t, r) ↔
    (Digits t ∨ ∃ ds fs, Digits ds ∧ Digits fs ∧ t = ds ++ '.' :: fs) ∧ s = t ++ r := by
  have stops := delimited.stops fun _ => not_isDigit_of_isDelimiter
  simp only [numberToken, bind_eq_some, digitsToken_eq_some, pure_eq_some]
  constructor
  · rintro ⟨ds, _, ⟨digits, rfl, -⟩, f, _, read, rfl, rfl⟩
    obtain ⟨rfl | ⟨fs, fraction, rfl⟩, rfl⟩ := (fractionToken_eq_some delimited).mp read
    · exact ⟨.inl (by simpa using digits), by simp⟩
    · exact ⟨.inr ⟨ds, fs, digits, fraction, rfl⟩, by simp⟩
  · rintro ⟨digits | ⟨ds, fs, digits, fraction, rfl⟩, rfl⟩
    · have none := (fractionToken_eq_some delimited (s := r) (t := [])).mpr ⟨.inl rfl, rfl⟩
      exact ⟨t, r, ⟨digits, rfl, stops⟩, [], r, none, by simp, rfl⟩
    · have read := (fractionToken_eq_some delimited).mpr ⟨.inr ⟨fs, fraction, rfl⟩, rfl⟩
      refine ⟨ds, '.' :: fs ++ r, ⟨digits, by simp, stops_cons.mpr (by decide)⟩, _, r, read, rfl, rfl⟩

theorem numberToken_eq_none {c : Char} {s : Text} (other : Text.isDigit c = false) :
    numberToken (c :: s) = none := by
  refine eq_none_of fun t r read => ?_
  obtain ⟨ds, u, digits, -⟩ := bind_eq_some.mp read
  obtain ⟨⟨nonempty, digits⟩, same, -⟩ := digitsToken_eq_some.mp digits
  cases ds with
  | nil => exact nonempty rfl
  | cons d ds =>
    have digit := digits d List.mem_cons_self
    rw [← (List.cons.inj same).1, other] at digit
    cases digit

theorem wordToken_eq_some {word s t r : Text} :
    wordToken word s = some (t, r) ↔ t = word ∧ s = word ++ r ∧ Stops extendsWord r := by
  rw [wordToken, Option.filter_eq_some_iff, literal_eq_some, and_assoc]
  have stops : (!(r.head?.any extendsWord)) = true ↔ Stops extendsWord r := by
    cases r with
    | nil => simp [Stops]
    | cons c r => simp [stops_cons]
  rw [stops]

/-- The words that are literals. -/
def IsWord (t : Text) : Prop := t = "true".toList ∨ t = "false".toList

theorem booleanToken_word {word r : Text} (isWord : IsWord word) (stops : Stops extendsWord r) :
    booleanToken (word ++ r) = some (word, r) := by
  have read : wordToken word (word ++ r) = some (word, r) := wordToken_eq_some.mpr ⟨rfl, rfl, stops⟩
  rcases isWord with rfl | rfl
  · exact orElse_eq_some.mpr (.inl read)
  · exact orElse_eq_some.mpr (.inr ⟨rfl, read⟩)

theorem stops_extendsWord {r : Text} (ends : Stops isNameChar r) : Stops extendsWord r := by
  intro c front
  rw [Bool.eq_false_iff]
  intro extend
  have apart := ends c front
  rw [isNameChar_of_extendsWord extend] at apart
  cases apart

/-- A literal that is no string or number is read as a boolean. -/
theorem literalToken_cons {c : Char} (s : Text) (initial : isInitial c = true) :
    literalToken (c :: s) = booleanToken (c :: s) := by
  have single : c ≠ '\'' := by rintro rfl; cases initial
  have double : c ≠ '"' := by rintro rfl; cases initial
  show (stringToken _ _).or ((stringToken _ _).or ((numberToken _).or (booleanToken _))) = _
  rw [stringToken_eq_none single, stringToken_eq_none double,
    numberToken_eq_none (not_isDigit_of_isInitial initial)]
  simp

theorem literalToken_of_numberToken {s t r : Text} (read : numberToken s = some (t, r)) :
    literalToken s = some (t, r) := by
  cases s with
  | nil => cases read
  | cons c s =>
    have digit : Text.isDigit c = true := by
      rw [← Bool.not_eq_false]
      intro other
      rw [numberToken_eq_none other] at read
      cases read
    have single : c ≠ '\'' := by rintro rfl; cases digit
    have double : c ≠ '"' := by rintro rfl; cases digit
    show (stringToken _ _).or ((stringToken _ _).or ((numberToken _).or (booleanToken _))) = _
    rw [stringToken_eq_none single, stringToken_eq_none double, read]
    rfl

theorem literalToken_sound {s t r : Text} (delimited : Delimited r) (read : literalToken s = some (t, r)) :
    IsLiteral t ∧ s = t ++ r := by
  rcases orElse_eq_some.mp read with read | ⟨-, read⟩
  · obtain ⟨inner, plain, rfl, same⟩ := stringToken_eq_some.mp read
    exact ⟨.string (.inl rfl) plain, same⟩
  rcases orElse_eq_some.mp read with read | ⟨-, read⟩
  · obtain ⟨inner, plain, rfl, same⟩ := stringToken_eq_some.mp read
    exact ⟨.string (.inr rfl) plain, same⟩
  rcases orElse_eq_some.mp read with read | ⟨-, read⟩
  · obtain ⟨digits | ⟨ds, fs, digits, fraction, rfl⟩, same⟩ := (numberToken_eq_some delimited).mp read
    · exact ⟨.whole digits, same⟩
    · exact ⟨.decimal digits fraction, same⟩
  rcases orElse_eq_some.mp read with read | ⟨-, read⟩
  · obtain ⟨rfl, same, -⟩ := wordToken_eq_some.mp read
    exact ⟨.boolean (.inl rfl), same⟩
  · obtain ⟨rfl, same, -⟩ := wordToken_eq_some.mp read
    exact ⟨.boolean (.inr rfl), same⟩

theorem literalToken_complete {t r : Text} (delimited : Delimited r) (literal : IsLiteral t) :
    literalToken (t ++ r) = some (t, r) := by
  cases literal with
  | string mark plain =>
    have read := stringToken_eq_some (r := r).mpr ⟨_, plain, rfl, rfl⟩
    rcases mark with rfl | rfl
    · exact orElse_eq_some.mpr (.inl read)
    · exact orElse_eq_some.mpr (.inr ⟨stringToken_eq_none (by decide), orElse_eq_some.mpr (.inl read)⟩)
  | whole digits =>
    exact literalToken_of_numberToken ((numberToken_eq_some delimited).mpr ⟨.inl digits, rfl⟩)
  | decimal digits fraction =>
    exact literalToken_of_numberToken
      ((numberToken_eq_some delimited).mpr ⟨.inr ⟨_, _, digits, fraction, rfl⟩, rfl⟩)
  | boolean word =>
    have stops := stops_extendsWord (delimited.stops fun _ => not_isNameChar)
    have read := booleanToken_word word stops
    rcases word with rfl | rfl
    · exact (literalToken_cons _ (by decide)).trans read
    · exact (literalToken_cons _ (by decide)).trans read

/-- In front of a delimiter, exactly the literals are read. -/
theorem literalToken_eq_some {s t r : Text} (delimited : Delimited r) :
    literalToken s = some (t, r) ↔ IsLiteral t ∧ s = t ++ r := by
  constructor
  · exact literalToken_sound delimited
  · rintro ⟨literal, rfl⟩
    exact literalToken_complete delimited literal

/-! ### Values -/

/-- A word begins a text that no name goes on behind, if it begins the text without what stands there. -/
theorem wordToken_append_eq_none {word p r : Text} (inside : word.all isNameChar = true)
    (ends : Stops isNameChar r) :
    wordToken word (p ++ r) = none ↔ ∀ q, p = word ++ q → ¬ Stops extendsWord q := by
  constructor
  · rintro none q rfl stops
    have further : Stops extendsWord (q ++ r) := by
      cases q with
      | nil => exact stops_extendsWord ends
      | cons c q => exact stops
    have read := wordToken_eq_some.mpr ⟨(rfl : word = word), List.append_assoc word q r, further⟩
    rw [none] at read
    cases read
  · intro apart
    refine eq_none_of fun t u read => ?_
    obtain ⟨-, same, stops⟩ := wordToken_eq_some.mp read
    rcases List.append_eq_append_iff.mp same with ⟨q, split, rfl⟩ | ⟨q, rfl, rfl⟩
    · cases q with
      | nil => exact apart [] (by simpa using split.symm) nofun
      | cons c q =>
        have named := List.all_eq_true.mp inside c (by simp [split])
        rw [stops_cons.mp ends] at named
        cases named
    · refine apart q rfl ?_
      cases q with
      | nil => exact nofun
      | cons c q => exact stops

/-- What stands behind a name has no say in whether a boolean begins it. -/
theorem booleanToken_append_eq_none {p r : Text} (ends : Stops isNameChar r) :
    booleanToken (p ++ r) = none ↔ ∀ word, IsWord word → ∀ q, p = word ++ q → ¬ Stops extendsWord q := by
  rw [booleanToken, orElse_eq_none, wordToken_append_eq_none rfl ends, wordToken_append_eq_none rfl ends]
  simp only [IsWord, forall_eq_or_imp, forall_eq]

/-- A name or a literal, as it may stand for a value: a name that a boolean begins is taken for that. -/
inductive IsValue : Node → Prop
  | name {path : Text} (name : IsName path) (free : booleanToken (path ++ ['}']) = none) :
      IsValue (.name path)
  | primitive {token : Text} (literal : IsLiteral token) : IsValue (.primitive token)

theorem IsName.literalToken_append {p r : Text} (name : IsName p) :
    literalToken (p ++ r) = booleanToken (p ++ r) := by
  cases p with
  | nil => exact absurd name not_isName_nil
  | cons c t => exact literalToken_cons _ (isName_cons.mp name).1

theorem IsName.literalToken_eq_none {p r : Text} (name : IsName p) (delimited : Delimited r) :
    literalToken (p ++ r) = none ↔ booleanToken (p ++ ['}']) = none := by
  have brace : Delimited ['}'] := delimited_cons rfl
  have ends {r : Text} (delimited : Delimited r) : Stops isNameChar r := delimited.stops fun _ => not_isNameChar
  rw [name.literalToken_append, booleanToken_append_eq_none (ends delimited), booleanToken_append_eq_none (ends brace)]

/-- In front of a delimiter, exactly the values are read. -/
theorem valueNode_eq_some {s r : Text} {v : Node} (delimited : Delimited r) :
    valueNode s = some (v, r) ↔ IsValue v ∧ ∃ t, Node.SpellsValue v t ∧ s = t ++ r := by
  simp only [valueNode, primitiveNode, nameNode, orElse_eq_some, map_eq_some]
  constructor
  · rintro (⟨t, read, rfl⟩ | ⟨none, p, read, rfl⟩)
    · obtain ⟨literal, rfl⟩ := (literalToken_eq_some delimited).mp read
      exact ⟨.primitive literal, t, .primitive t, rfl⟩
    · obtain ⟨name, rfl⟩ := (nameToken_eq_some delimited).mp read
      exact ⟨.name name ((name.literalToken_eq_none delimited).mp (map_eq_none.mp none)), p, .name p, rfl⟩
  · rintro ⟨valid, t, value, rfl⟩
    cases value with
    | primitive =>
      cases valid with
      | primitive literal => exact .inl ⟨t, literalToken_complete delimited literal, rfl⟩
    | name =>
      cases valid with
      | name name free =>
        have other := (name.literalToken_eq_none delimited).mpr free
        exact .inr ⟨map_eq_none.mpr other, t, (nameToken_eq_some delimited).mpr ⟨name, rfl⟩, rfl⟩

end Stencil.Grammar
