import Stencil.Evaluate.Literal
import Stencil.Proofs.Grammar.Literal
import Stencil.Proofs.Text.Digit

/-!
# Decoding of literals

Every literal has a value, but for whole numbers that are too long: `decodeLiteral_eq_error_iff`. Digits of all
scripts are read alike, so nothing is asked of them but that they are digits: `decodeLiteral_digits`.
-/

namespace Stencil.Grammar

open Stencil.Parser
open Numeral (digitLimit)

/-- A literal without quotes and without a point that has more digits than a whole number may have. -/
def Overlong (token : Text) : Prop :=
  ¬ IsString token ∧ '.' ∉ token ∧ digitLimit < token.countP Text.isDigit

/-! ### Characters of numerals -/

theorem not_isBlank_of_isDigit {c : Char} (digit : Text.isDigit c = true) : Text.isBlank c = false := by
  rw [Bool.eq_false_iff]
  intro blank
  rw [not_isDigit_of_isDelimiter (isDelimiter_of_isBlank blank)] at digit
  cases digit

theorem not_isOuterBlank_of_isDigit {c : Char} (digit : Text.isDigit c = true) :
    Numeral.isOuterBlank c = false := by
  simp [Numeral.isOuterBlank, not_isBlank_of_isDigit digit]

theorem valueIn?_of_isDigit {c : Char} (digit : Text.isDigit c = true) :
    Numeral.valueIn? 10 c = some (Text.worth c) := by
  obtain ⟨d, found⟩ := Option.isSome_iff_exists.mp digit
  have small := Text.digitValue?_lt found
  simp [Numeral.valueIn?, Text.worth, found, small]

theorem readSign_of_isDigit {c : Char} (digit : Text.isDigit c = true) (s : Text) :
    Numeral.readSign (c :: s) = (false, c :: s) := by
  unfold Numeral.readSign
  split
  · next same => cases same; cases digit
  · next same => cases same; cases digit
  · rfl

/-- Quotes and signs are no digits. -/
theorem Digits.front {ds : Text} (digits : Digits ds) : ∃ c s, ds = c :: s ∧ Text.isDigit c = true := by
  obtain ⟨nonempty, inside⟩ := digits
  cases ds with
  | nil => exact absurd rfl nonempty
  | cons c s => exact ⟨c, s, rfl, inside c List.mem_cons_self⟩

theorem Digits.not_mem {ds : Text} (digits : Digits ds) {c : Char} (other : Text.isDigit c = false) : c ∉ ds := by
  intro member
  rw [digits.2 c member] at other
  cases other

theorem unquote?_of_isDigit {c : Char} (digit : Text.isDigit c = true) (s : Text) : unquote? (c :: s) = none := by
  have single : c ≠ '\'' := by rintro rfl; cases digit
  have double : c ≠ '"' := by rintro rfl; cases digit
  simp [unquote?, single, double]

/-! ### Whole numbers -/

theorem digitRun_digits {ds : Text} (digits : Digits ds) :
    Numeral.digitRun 10 ds = some (ds.map Text.worth, []) := by
  obtain ⟨nonempty, inside⟩ := digits
  induction ds with
  | nil => exact absurd rfl nonempty
  | cons c s ih =>
    obtain ⟨digit, others⟩ := List.forall_mem_cons.mp inside
    have value := valueIn?_of_isDigit digit
    cases s with
    | nil => simp [Numeral.digitRun, value]
    | cons c' s =>
      have digit' := others c' List.mem_cons_self
      have value' := valueIn?_of_isDigit digit'
      have bar : c' ≠ '_' := by rintro rfl; cases digit'
      have read := ih (List.cons_ne_nil _ _) others
      simp [Numeral.digitRun, value, value', bar, read]

theorem readInt_digits {ds : Text} (digits : Digits ds) : Numeral.readInt 10 ds =
    if digitLimit < ds.length then .error (.tooManyDigits ds.length) else .ok (Text.number ds) := by
  have read := digitRun_digits digits
  have value := Text.ofDigits_values ds
  obtain ⟨c, s, rfl, digit⟩ := digits.front
  rw [Numeral.readInt, List.dropWhile_cons_of_neg (by simp [not_isOuterBlank_of_isDigit digit]),
    readSign_of_isDigit digit]
  simp only [read, value, List.length_map, true_and]
  rfl

/-! ### Decimal fractions -/

theorem dropUnderscores?_of_not_mem {s : Text} (absent : '_' ∉ s) (after : Bool) :
    Numeral.dropUnderscores? after s = some s := by
  induction s generalizing after with
  | nil => rfl
  | cons c s ih =>
    simp only [List.mem_cons, not_or] at absent
    unfold Numeral.dropUnderscores?
    rw [if_neg (Ne.symm absent.1), ih absent.2]
    rfl

theorem strip_stops {drop : Char → Bool} {s : Text} (front : Stops drop s) (back : Stops drop s.reverse) :
    Text.strip drop s = s := by
  have same (t : Text) (stops : Stops drop t) : t.dropWhile drop = t := dropWhile_append_stops (t := []) nofun stops
  rw [Text.strip, same s front, same _ back, List.reverse_reverse]

theorem strip_decimal {ds fs : Text} (whole : Digits ds) (fraction : Digits fs) :
    Text.strip Numeral.isOuterBlank (ds ++ '.' :: fs) = ds ++ '.' :: fs := by
  have backwards : Digits fs.reverse := ⟨by simpa using fraction.1, by simpa using fraction.2⟩
  obtain ⟨c, s, rfl, digit⟩ := whole.front
  obtain ⟨d, u, last, digit'⟩ := backwards.front
  apply strip_stops
  · exact stops_cons.mpr (not_isOuterBlank_of_isDigit digit)
  · rw [List.reverse_append, List.reverse_cons, last]
    exact stops_cons.mpr (not_isOuterBlank_of_isDigit digit')

theorem digits_append {ds r : Text} (digits : Digits ds) (stops : Stops Text.isDigit r) :
    Numeral.digits (ds ++ r) = (ds.filterMap Text.digitValue?, r) := by
  rw [Numeral.digits, takeWhile_append_stops digits.2 stops, dropWhile_append_stops digits.2 stops]

theorem filterMap_digits {ds : Text} (digits : Digits ds) : ds.filterMap Text.digitValue? ≠ [] := by
  obtain ⟨c, s, rfl, digit⟩ := digits.front
  obtain ⟨d, value⟩ := Option.isSome_iff_exists.mp digit
  rw [List.filterMap_cons_some value]
  exact List.cons_ne_nil _ _

theorem unsignedFloat?_decimal {ds fs : Text} (whole : Digits ds) (fraction : Digits fs) :
    (Numeral.unsignedFloat? false (ds ++ '.' :: fs)).isSome = true := by
  have point : '.' ∈ (ds ++ '.' :: fs).map Char.toLower := List.mem_map.mpr ⟨'.', by simp, rfl⟩
  have apart (word : Text) (pointless : '.' ∉ word) : (ds ++ '.' :: fs).map Char.toLower ≠ word := by
    rintro rfl
    exact pointless point
  have first := digits_append whole (r := '.' :: fs) (stops_cons.mpr (by decide))
  have second := digits_append fraction (r := []) nofun
  rw [List.append_nil] at second
  have some : (ds.filterMap Text.digitValue?).isEmpty = false := by simpa using filterMap_digits whole
  unfold Numeral.unsignedFloat?
  rw [if_neg (not_or.mpr ⟨apart _ (by decide), apart _ (by decide)⟩), if_neg (apart _ (by decide))]
  simp only [first, second, some, Bool.false_and, Numeral.readExponent?]
  rfl

theorem readFloat_decimal {ds fs : Text} (whole : Digits ds) (fraction : Digits fs) :
    ∃ x, Numeral.readFloat (ds ++ '.' :: fs) = .ok x := by
  obtain ⟨x, found⟩ := Option.isSome_iff_exists.mp (unsignedFloat?_decimal whole fraction)
  have plain : '_' ∉ ds ++ '.' :: fs := by
    have left := whole.not_mem (c := '_') (by decide)
    have right := fraction.not_mem (c := '_') (by decide)
    simp [left, right]
  obtain ⟨c, s, rfl, digit⟩ := whole.front
  have unsigned : Numeral.readSign (c :: s ++ '.' :: fs) = (false, c :: s ++ '.' :: fs) :=
    readSign_of_isDigit digit _
  refine ⟨x, ?_⟩
  rw [Numeral.readFloat, strip_decimal whole fraction, unsigned]
  simp only [dropUnderscores?_of_not_mem plain, Option.bind_some, found]

/-! ### Literals -/

theorem decodeLiteral_of_isDigit {c : Char} (digit : Text.isDigit c = true) (s : Text) :
    decodeLiteral (c :: s) = if (c :: s).contains '.' then .float <$> Numeral.readFloat (c :: s)
      else .int <$> Numeral.readInt 10 (c :: s) := by
  have apart (d : Char) (w : Text) (other : Text.isDigit d = false) : c :: s ≠ d :: w := by
    intro same
    obtain ⟨rfl, rfl⟩ := List.cons.inj same
    rw [other] at digit
    cases digit
  have noTrue : c :: s ≠ "true".toList := apart 't' "rue".toList (by decide)
  have noFalse : c :: s ≠ "false".toList := apart 'f' "alse".toList (by decide)
  unfold decodeLiteral
  rw [if_neg noTrue, if_neg noFalse, unquote?_of_isDigit digit]

theorem decodeLiteral_digits {ds : Text} (digits : Digits ds) : decodeLiteral ds =
    if digitLimit < ds.length then .error (.tooManyDigits ds.length) else .ok (.int (Text.number ds)) := by
  have point : ¬ ds.contains '.' = true := by simpa using digits.not_mem (c := '.') (by decide)
  have read := readInt_digits digits
  obtain ⟨c, s, rfl, digit⟩ := digits.front
  rw [decodeLiteral_of_isDigit digit, if_neg point, read]
  split <;> rfl

theorem Digits.countP_eq {ds : Text} (digits : Digits ds) : ds.countP Text.isDigit = ds.length :=
  List.countP_eq_length.mpr digits.2

theorem overlong_digits {ds : Text} (digits : Digits ds) : Overlong ds ↔ digitLimit < ds.length := by
  have point : '.' ∉ ds := digits.not_mem (by decide)
  have bare : ¬ IsString ds := by
    obtain ⟨c, s, rfl, digit⟩ := digits.front
    rintro (quoted | quoted) <;> cases quoted <;> cases digit
  simp [Overlong, bare, point, digits.countP_eq]

/-- The only fault of a literal is that of a whole number with too many digits. -/
theorem decodeLiteral_eq_error_iff {token : Text} (literal : IsLiteral token) {fault : NumeralFault} :
    decodeLiteral token = .error fault ↔
      Overlong token ∧ fault = .tooManyDigits (token.countP Text.isDigit) := by
  cases literal with
  | @string quote inner mark plain =>
    have quoted : IsString (quote :: inner ++ [quote]) := by
      rcases mark with rfl | rfl
      · exact .inl rfl
      · exact .inr rfl
    rw [decodeLiteral_quoted mark]
    exact iff_of_false nofun fun both => both.1.1 quoted
  | whole digits =>
    rw [overlong_digits digits, digits.countP_eq, decodeLiteral_digits digits]
    split
    · next long =>
      rw [and_iff_right long, Except.error.injEq]
      exact eq_comm
    · next short => exact iff_of_false nofun fun both => short both.1
  | @decimal ds fs digits fraction =>
    obtain ⟨x, read⟩ := readFloat_decimal digits fraction
    have point : '.' ∈ ds ++ '.' :: fs := by simp
    refine iff_of_false ?_ fun both => both.1.2.1 point
    obtain ⟨c, s, rfl, digit⟩ := digits.front
    rw [List.cons_append] at point read ⊢
    rw [decodeLiteral_of_isDigit digit, if_pos (by simp), read]
    nofun
  | boolean word =>
    rcases word with rfl | rfl
    · exact iff_of_false nofun fun both => absurd both.1.2.2 (by decide)
    · exact iff_of_false nofun fun both => absurd both.1.2.2 (by decide)

end Stencil.Grammar
