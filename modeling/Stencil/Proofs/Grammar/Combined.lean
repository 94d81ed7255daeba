import Stencil.Grammar.Combinator
import Stencil.Proofs.Grammar.Choice
import Stencil.Proofs.Parser.Repeat

/-!
# Combined parsers

Parsers that are put together, in any nesting, from patterns, choice, sequence, repetition and the rules of the
grammar. `Combined.suffixing` says that each of them leaves a suffix of its input, and `combined_repetition` what
comes of repeating one.
-/

namespace Stencil.Grammar

open Stencil.Parser

variable {ε : Type}

/-! ### Patterns -/

namespace Matcher

theorem suffixing_start (m : Matcher) : Suffixing m.start := fun _ _ t read => ⟨t, m.append read⟩

theorem cut_append (m : Matcher) (before s : Text) : (m.cut before s).1 ++ (m.cut before s).2 = s := by
  induction s generalizing before with
  | nil => rfl
  | cons c s ih => unfold cut; split <;> simp [ih]

theorem suffixing_upTo (m : Matcher) : Suffixing m.upTo := by
  intro s r t read
  have whole := m.cut_append [] s
  rw [Option.some.inj read] at whole
  exact ⟨t, whole⟩

end Matcher

/-! ### Ways to combine -/

/-- What an alternative reads, whatever texts it hands over. -/
def Alternative.parser (p : Alternative ε) : Parser Output := fun s =>
  (p s).result.map fun (n, r) => (.node n, r)

/-- The parser is put together from these parts, with any texts, patterns, values, functions and readers of
bodies. -/
inductive Combined : Parser Output → Prop
  | exactly (t : Text) : Combined (.text <$> literal t)
  | pattern (m : Matcher) : Combined (.text <$> m.start)
  | upTo (m : Matcher) : Combined (.text <$> m.upTo)
  | always (v : Output) : Combined (pure v)
  | discard {p : Parser Output} (inner : Combined p) : Combined ((fun _ => .skip) <$> p)
  | change {p : Parser Output} (inner : Combined p) (f : Output → Output) : Combined (f <$> p)
  | anyOf {ps : List (Parser Output)} (inner : ∀ p ∈ ps, Combined p) : Combined (choice ps)
  | allOf {ps : List (Parser Output)} (inner : ∀ p ∈ ps, Combined p) : Combined (collect <$> sequence ps)
  | many {p : Parser Output} (inner : Combined p) : Combined (repetition p)
  | rule (r : Rule) : Combined r.parser
  | sectionRule (sense : Sense) {ε : Type} (body : BodyReader ε) : Combined (sectionRule sense body).parser
  | tagRule {ε : Type} (body : BodyReader ε) : Combined (tagRule body).parser

/-! ### What combined parsers leave -/

theorem suffixing_choice {ps : List (Parser Output)} (inner : ∀ p ∈ ps, Suffixing p) : Suffixing (choice ps) := by
  induction ps with
  | nil => exact fun _ _ _ read => nomatch read
  | cons p ps ih =>
    obtain ⟨first, later⟩ := List.forall_mem_cons.mp inner
    exact suffixing_orElse first (ih later)

theorem suffixing_sequence {ps : List (Parser Output)} (inner : ∀ p ∈ ps, Suffixing p) :
    Suffixing (sequence ps) := by
  induction ps with
  | nil => exact suffixing_pure _
  | cons p ps ih =>
    obtain ⟨first, later⟩ := List.forall_mem_cons.mp inner
    exact suffixing_bind first fun _ => suffixing_bind (ih later) fun _ => suffixing_pure _

theorem Alternative.parser_eq_some {p : Alternative ε} {s r : Text} {v : Output} :
    p.parser s = some (v, r) ↔ ∃ n, (p s).result = some (n, r) ∧ v = .node n := by
  simp only [parser, Option.map_eq_some_iff, Prod.exists, Prod.mk.injEq]
  constructor
  · rintro ⟨n, r, read, rfl, rfl⟩; exact ⟨n, read, rfl⟩
  · rintro ⟨n, read, rfl⟩; exact ⟨n, r, read, rfl, rfl⟩

theorem suffixing_sectionRule (sense : Sense) (body : BodyReader ε) : Suffixing (sectionRule sense body).parser := by
  intro s r v read
  obtain ⟨n, read, -⟩ := Alternative.parser_eq_some.mp read
  cases headed : sectionHeader sense s with
  | none =>
    rw [sectionRule_none headed] at read
    cases read
  | some head =>
    obtain ⟨name, rest⟩ := head
    rw [sectionRule_some headed] at read
    cases found : findEnd name rest with
    | none =>
      rw [found] at read
      cases read
    | some e =>
      rw [found] at read
      simp only [Traced.result_bind, Traced.result_pure, Option.map_eq_some_iff, Prod.mk.injEq] at read
      obtain ⟨_, -, -, rfl⟩ := read
      exact (findEnd_closing_suffix found).trans (suffixing_sectionHeader sense headed)

theorem suffixing_tagRule (body : BodyReader ε) : Suffixing (tagRule body).parser := by
  intro s r v read
  obtain ⟨n, read, -⟩ := Alternative.parser_eq_some.mp read
  -- The choice succeeds where `tag` does, and with the same rest.
  rw [tagRule_eq, Traced.result_bind, Traced.result_pure] at read
  cases whole : (tag body s).result with
  | error fault =>
    rw [whole] at read
    cases read
  | ok tagged =>
    rw [whole] at read
    obtain rfl := Option.some.inj read
    exact (tag_ok whole).1

theorem Combined.suffixing {p : Parser Output} (combined : Combined p) : Suffixing p := by
  induction combined with
  | exactly t => exact suffixing_map (suffixing_literal t)
  | pattern m => exact suffixing_map m.suffixing_start
  | upTo m => exact suffixing_map m.suffixing_upTo
  | always v => exact suffixing_pure v
  | discard _ ih => exact suffixing_map ih
  | change _ f ih => exact suffixing_map ih
  | anyOf _ ih => exact suffixing_choice ih
  | allOf _ ih => exact suffixing_map (suffixing_sequence ih)
  | many _ ih => exact suffixing_map (suffixing_repeated ih)
  | rule r => exact suffixing_rule r
  | sectionRule sense body => exact suffixing_sectionRule sense body
  | tagRule body => exact suffixing_tagRule body

/-! ### Repetition -/

theorem repetition_eq (p : Parser Output) (s : Text) :
    repetition p s = some (collect (many p s).1, (many p s).2) := rfl

theorem repetition_eq_some {p : Parser Output} (suffixing : Suffixing p) {s t : Text} {v : Output} :
    repetition p s = some (v, t) ↔ ∃ vs, Chain p s vs t ∧ Idle p t ∧ v = collect vs := by
  constructor
  · intro read
    obtain ⟨rfl, rfl⟩ := Prod.mk.inj (Option.some.inj read)
    obtain ⟨chain, idle⟩ := (many_eq_iff suffixing).mp (Prod.eta (many p s)).symm
    exact ⟨_, chain, idle, rfl⟩
  · rintro ⟨vs, chain, idle, rfl⟩
    rw [repetition_eq, (many_eq_iff suffixing).mpr ⟨chain, idle⟩]

/-- What a combined parser leaves is a suffix of its input. Its turns come to an end, also where it is itself a
repetition or may read nothing. Repeating it never fails and comes to the one chain of runs, each of which leaves
less, that ends where a run fails or reads nothing: to the values of these runs without the skipped ones. -/
theorem combined_repetition {p : Parser Output} (combined : Combined p) :
    (∀ s v t, p s = some (v, t) → t <:+ s) ∧
    (WellFounded fun t s => Turn p s t) ∧
    ∀ s, (∃ vs t, repetition p s = some (.list vs, t)) ∧
      ∀ v t, repetition p s = some (v, t) ↔
        ∃ vs, Chain p s vs t ∧ Idle p t ∧ v = .list (vs.filter (!·.isSkip)) := by
  have suffixing := combined.suffixing
  refine ⟨fun s v t read => suffixing read, wellFounded_turn suffixing, fun s => ⟨?_, fun v t => ?_⟩⟩
  · exact ⟨_, _, repetition_eq p s⟩
  · exact repetition_eq_some suffixing

/-- The parser reads letters, skips commas and reads nothing elsewhere, so that each repetition of it stops at a run
whose value is dropped. -/
theorem combined_repetition_nested :
    let skipped : Parser Output := (fun _ => .skip) <$> (Output.text <$> literal [','])
    let p := choice [.text <$> literal ['a'], skipped, pure (.value .null)]
    Combined p ∧ Combined (repetition p) ∧ [';'] <:+ "a,a;".toList ∧
      repetition p "a,a;".toList = some (.list [.text ['a'], .text ['a']], [';']) ∧
      repetition (repetition p) "a,a;".toList = some (.list [.list [.text ['a'], .text ['a']]], [';']) := by
  intro skipped p
  have inner : Combined p := by
    refine .anyOf (List.forall_mem_cons.mpr ⟨.exactly ['a'], List.forall_mem_cons.mpr ⟨?_, ?_⟩⟩)
    · exact .discard (.exactly [','])
    · exact List.forall_mem_singleton.mpr (.always _)
  have outer : Combined (repetition p) := .many inner
  have idle : Idle p [';'] := .inr ⟨.value .null, [';'], rfl, rfl⟩
  have listed : repetition p "a,a;".toList = some (.list [.text ['a'], .text ['a']], [';']) := by
    refine (((combined_repetition inner).2.2 _).2 _ _).mpr ⟨[.text ['a'], .skip, .text ['a']], ?_, idle, rfl⟩
    exact .cons rfl (by decide) (.cons rfl (by decide) (.cons rfl (by decide) (.nil _)))
  have nothing : repetition p [';'] = some (.list [], [';']) :=
    (((combined_repetition inner).2.2 _).2 _ _).mpr ⟨[], .nil _, idle, rfl⟩
  refine ⟨inner, outer, (combined_repetition outer).1 _ _ _ listed, listed, ?_⟩
  refine (((combined_repetition outer).2.2 _).2 _ _).mpr ⟨[.list [.text ['a'], .text ['a']]], ?_, ?_, rfl⟩
  · exact .cons listed (by decide) (.nil _)
  · exact .inr ⟨.list [], [';'], nothing, rfl⟩

end Stencil.Grammar
