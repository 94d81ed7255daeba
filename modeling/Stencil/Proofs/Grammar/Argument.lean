import Stencil.Proofs.Grammar.Literal

/-!
# Values and arguments in tags

A value stands between blanks, and the arguments of a helper call stand behind a colon with commas between
them. In front of a closing brace, exactly these are read: `value_eq_some` and `helperArgs_eq_some`.
-/

namespace Stencil.Grammar

open Stencil.Parser
open Node (Padded SpellsValue SpellsMore)

/-! ### The first character of a value -/

def startsValue (c : Char) : Bool := isInitial c || Text.isDigit c || c = '\'' || c = '"'

theorem not_isDelimiter {c : Char} (starts : startsValue c = true) : isDelimiter c = false := by
  rw [Bool.eq_false_iff]
  intro delimiter
  simp only [startsValue, Bool.or_eq_true, decide_eq_true_eq] at starts
  rcases starts with ((initial | digit) | rfl) | rfl
  · have apart := not_isNameChar delimiter
    rw [isNameChar_of_isInitial initial] at apart
    cases apart
  · rw [not_isDigit_of_isDelimiter delimiter] at digit
    cases digit
  · cases delimiter
  · cases delimiter

theorem Digits.cons {ds : Text} (digits : Digits ds) : ∃ c s, ds = c :: s ∧ Text.isDigit c = true := by
  cases ds with
  | nil => exact absurd rfl digits.1
  | cons c s => exact ⟨c, s, rfl, digits.2 c List.mem_cons_self⟩

theorem IsLiteral.cons {t : Text} (literal : IsLiteral t) : ∃ c s, t = c :: s ∧ startsValue c = true := by
  cases literal with
  | string mark plain =>
    refine ⟨_, _, rfl, ?_⟩
    rcases mark with rfl | rfl <;> rfl
  | whole digits =>
    obtain ⟨c, s, rfl, digit⟩ := digits.cons
    exact ⟨c, s, rfl, by simp [startsValue, digit]⟩
  | decimal digits fraction =>
    obtain ⟨c, s, rfl, digit⟩ := digits.cons
    exact ⟨c, _, rfl, by simp [startsValue, digit]⟩
  | boolean word => rcases word with rfl | rfl <;> exact ⟨_, _, rfl, rfl⟩

theorem IsName.cons {p : Text} (name : IsName p) : ∃ c s, p = c :: s ∧ startsValue c = true := by
  cases p with
  | nil => exact absurd name not_isName_nil
  | cons c s => exact ⟨c, s, rfl, by simp [startsValue, (isName_cons.mp name).1]⟩

theorem IsValue.cons {v : Node} {t : Text} (valid : IsValue v) (value : SpellsValue v t) :
    ∃ c s, t = c :: s ∧ startsValue c = true := by
  cases value with
  | name => cases valid with | name name free => exact name.cons
  | primitive => cases valid with | primitive literal => exact literal.cons

theorem stops_blank {c : Char} {s : Text} (starts : startsValue c = true) :
    Stops Text.isBlank (c :: s) := by
  rw [stops_cons, Bool.eq_false_iff]
  intro blank
  have apart := not_isDelimiter starts
  rw [isDelimiter_of_isBlank blank] at apart
  cases apart

/-! ### Values between blanks -/

theorem value_stops {s r : Text} {v : Node} (read : value s = some (v, r)) : Stops Text.isBlank r := by
  simp only [value, bind_eq_some, blanks_eq_some, pure_eq_some] at read
  obtain ⟨-, _, -, _, _, -, -, _, ⟨_, -, -, stops⟩, -, rfl⟩ := read
  exact stops

theorem value_eq_some {s r : Text} {v : Node} (delimited : Delimited r) (stops : Stops Text.isBlank r) :
    value s = some (v, r) ↔ IsValue v ∧ ∃ t p, SpellsValue v t ∧ Padded t p ∧ s = p ++ r := by
  simp only [value, bind_eq_some, blanks_eq_some, pure_eq_some]
  constructor
  · rintro ⟨-, _, ⟨w, blanks, rfl, -⟩, v, _, read, -, _, ⟨w', blanks', rfl, -⟩, rfl, rfl⟩
    obtain ⟨valid, t, value, rfl⟩ := (valueNode_eq_some (delimited_blanks blanks' delimited)).mp read
    exact ⟨valid, t, w ++ t ++ w', value, ⟨w, w', blanks, blanks', rfl⟩, by simp⟩
  · rintro ⟨valid, t, _, value, ⟨w, w', blanks, blanks', rfl⟩, rfl⟩
    have read := (valueNode_eq_some (delimited_blanks blanks' delimited)).mpr ⟨valid, t, value, rfl⟩
    have solid : Stops Text.isBlank (t ++ (w' ++ r)) := by
      obtain ⟨c, u, rfl, starts⟩ := valid.cons value
      exact stops_blank starts
    exact ⟨(), _, ⟨w, blanks, by simp, solid⟩, v, _, read, (), r, ⟨w', blanks', rfl, stops⟩, rfl, rfl⟩

/-- In front of a closing brace, exactly the values between blanks are read. -/
theorem value_brace {s r : Text} {v : Node} : value s = some (v, '}' :: r) ↔
    IsValue v ∧ ∃ t p, SpellsValue v t ∧ Padded t p ∧ s = p ++ '}' :: r :=
  value_eq_some (delimited_cons (by decide)) (stops_cons.mpr (by decide))

theorem literalToken_eq_none {c : Char} {s : Text} (other : startsValue c = false) :
    literalToken (c :: s) = none := by
  simp only [startsValue, Bool.or_eq_false_iff, decide_eq_false_iff_not] at other
  obtain ⟨⟨⟨initial, digit⟩, single⟩, double⟩ := other
  have word (t : Text) (d : Char) (start : isInitial d = true) : wordToken (d :: t) (c :: s) = none := by
    refine eq_none_of fun _ r read => ?_
    obtain ⟨-, same, -⟩ := wordToken_eq_some.mp read
    rw [(List.cons.inj same).1, start] at initial
    cases initial
  refine orElse_eq_none.mpr ⟨stringToken_eq_none single, orElse_eq_none.mpr ⟨stringToken_eq_none double, ?_⟩⟩
  refine orElse_eq_none.mpr ⟨numberToken_eq_none digit, orElse_eq_none.mpr ⟨?_, ?_⟩⟩
  · exact word _ 't' (by decide)
  · exact word _ 'f' (by decide)

theorem valueNode_eq_none {c : Char} {s : Text} (other : startsValue c = false) : valueNode (c :: s) = none := by
  refine orElse_eq_none.mpr ⟨map_eq_none.mpr (literalToken_eq_none other), map_eq_none.mpr ?_⟩
  simp only [startsValue, Bool.or_eq_false_iff] at other
  rw [nameToken_cons, other.1.1.1]
  rfl

theorem value_eq_none {c : Char} {s : Text} (solid : Text.isBlank c = false) (other : startsValue c = false) :
    value (c :: s) = none := by
  refine eq_none_of fun v r read => ?_
  obtain ⟨_, u, spaced, read⟩ := bind_eq_some.mp read
  obtain ⟨w, blanks, same, -⟩ := blanks_eq_some.mp spaced
  obtain ⟨v', u', found, -⟩ := bind_eq_some.mp read
  cases w with
  | cons d w =>
    have blank := blanks d List.mem_cons_self
    rw [← (List.cons.inj same).1, solid] at blank
    cases blank
  | nil =>
    rw [List.nil_append] at same
    rw [← same, valueNode_eq_none other] at found
    cases found

/-! ### Arguments -/

/-- One further argument. -/
abbrev argument : Parser Node := do let _ ← literal [',']; value

theorem argument_eq_some {s r : Text} {v : Node} :
    argument s = some (v, r) ↔ ∃ u, s = ',' :: u ∧ value u = some (v, r) := by
  simp only [argument, bind_eq_some, literal_eq_some]
  constructor
  · rintro ⟨_, u, ⟨rfl, rfl⟩, read⟩; exact ⟨u, rfl, read⟩
  · rintro ⟨u, rfl, read⟩; exact ⟨_, u, ⟨rfl, rfl⟩, read⟩

theorem spellsMore_delimited {vs : List Node} {a r : Text} (more : SpellsMore vs a) (delimited : Delimited r) :
    Delimited (a ++ r) := by
  cases more with
  | nil => exact delimited
  | cons => exact delimited_cons (by decide)

theorem spellsMore_stops {vs : List Node} {a r : Text} (more : SpellsMore vs a) (stops : Stops Text.isBlank r) :
    Stops Text.isBlank (a ++ r) := by
  cases more with
  | nil => exact stops
  | cons => exact stops_cons.mpr (by decide)

theorem many_argument_sound {s : Text} (delimited : Delimited (many argument s).2)
    (stops : Stops Text.isBlank s) : Stops Text.isBlank (many argument s).2 ∧
      (∀ v ∈ (many argument s).1, IsValue v) ∧
      ∃ a, SpellsMore (many argument s).1 a ∧ s = a ++ (many argument s).2 := by
  fun_induction many argument s with
  | case1 s none => exact ⟨stops, List.forall_mem_nil _, [], .nil, rfl⟩
  | case2 s v t read shorter vs u rest ih =>
    obtain ⟨s, rfl, read⟩ := argument_eq_some.mp read
    have behind := value_stops read
    rw [rest] at ih
    obtain ⟨ends, valid, a, more, rfl⟩ := ih delimited behind
    obtain ⟨value, t, p, spelled, padded, rfl⟩ :=
      (value_eq_some (spellsMore_delimited more delimited) behind).mp read
    exact ⟨ends, List.forall_mem_cons.mpr ⟨value, valid⟩, ',' :: p ++ a, .cons spelled padded more, by simp⟩
  | case3 s v t read longer => exact ⟨stops, List.forall_mem_nil _, [], .nil, rfl⟩

theorem many_argument_complete {vs : List Node} {a r : Text} (more : SpellsMore vs a)
    (valid : ∀ v ∈ vs, IsValue v) (delimited : Delimited r) (stops : Stops Text.isBlank r)
    (last : Stops (· = ',') r) : many argument (a ++ r) = (vs, r) := by
  induction more with
  | nil =>
    have none : argument r = none := by
      refine eq_none_of fun v u read => ?_
      obtain ⟨u, rfl, -⟩ := argument_eq_some.mp read
      cases stops_cons.mp last
    rw [List.nil_append, many, none]
  | @cons v vs t p a value padded more ih =>
    obtain ⟨first, valid⟩ := List.forall_mem_cons.mp valid
    have read : argument (',' :: p ++ a ++ r) = some (v, a ++ r) := by
      refine argument_eq_some.mpr ⟨p ++ (a ++ r), by simp, ?_⟩
      rw [value_eq_some (spellsMore_delimited more delimited) (spellsMore_stops more stops)]
      exact ⟨first, t, p, value, padded, rfl⟩
    rw [many, read]
    simp only [ih valid]
    rw [if_pos (by simp only [List.length_append, List.length_cons]; omega)]

theorem helperArgs_stops {s r : Text} {vs : List Node} (read : helperArgs s = some (vs, r)) :
    Stops Text.isBlank r := by
  simp only [helperArgs, bind_eq_some, blanks_eq_some, pure_eq_some] at read
  obtain ⟨-, _, -, _, _, -, _, _, -, -, _, ⟨_, -, -, stops⟩, -, rfl⟩ := read
  exact stops

theorem helperArgs_eq_none {c : Char} {s : Text} (other : c ≠ ':') : helperArgs (c :: s) = none :=
  literal_bind_eq_none other

/-- In front of a closing brace, exactly the lists of arguments are read. -/
theorem helperArgs_eq_some {s r : Text} {vs : List Node} : helperArgs s = some (vs, '}' :: r) ↔
    ∃ v ws t p a, vs = v :: ws ∧ (∀ x ∈ vs, IsValue x) ∧ SpellsValue v t ∧ Padded t p ∧ SpellsMore ws a ∧
      s = ':' :: p ++ a ++ '}' :: r := by
  have brace : Delimited ('}' :: r) := delimited_cons (by decide)
  have solid : Stops Text.isBlank ('}' :: r) := stops_cons.mpr (by decide)
  simp only [helperArgs, moreArgs, repeated, bind_eq_some, literal_eq_some, blanks_eq_some, pure_eq_some,
    Option.some.injEq]
  constructor
  · rintro ⟨_, _, ⟨rfl, rfl⟩, v, u, read, ws, _, rest, -, _, ⟨w, blanks, rfl, -⟩, rfl, rfl⟩
    have behind := value_stops read
    have whole := many_argument_sound (s := u)
    rw [rest] at whole
    obtain ⟨stops, valid, a, more, rfl⟩ := whole (delimited_blanks blanks brace) behind
    obtain rfl := blanks_eq_nil blanks stops
    obtain ⟨value, t, p, spelled, padded, rfl⟩ :=
      (value_eq_some (spellsMore_delimited more brace) behind).mp read
    exact ⟨v, ws, t, p, a, rfl, List.forall_mem_cons.mpr ⟨value, valid⟩, spelled, padded, more, by simp⟩
  · rintro ⟨v, ws, t, p, a, rfl, valid, spelled, padded, more, rfl⟩
    obtain ⟨first, valid⟩ := List.forall_mem_cons.mp valid
    have read := (value_eq_some (spellsMore_delimited more brace) (spellsMore_stops more solid)).mpr
      ⟨first, t, p, spelled, padded, rfl⟩
    have rest := many_argument_complete more valid brace solid (stops_cons.mpr (by decide))
    exact ⟨_, _, ⟨rfl, by simp⟩, v, _, read, ws, _, rest, (), _, ⟨[], Node.blanks_nil, rfl, solid⟩, rfl, rfl⟩

end Stencil.Grammar
