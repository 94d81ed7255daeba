import Stencil.Proofs.Evaluate.Concat
import Stencil.Proofs.Evaluate.Literal
import Stencil.Proofs.Evaluate.Writing
import Stencil.Proofs.Template.Reading

/-!
# Templates of one literal

A string renders as what stands between its quotes, whatever that looks like, and digits of any scripts render as
the number that they denote: `literal_renders`. Nothing hangs on the environment.
-/

namespace Stencil

open Grammar
open Numeral (digitLimit)

variable {host : Host} {env : Mapping}

/-! ### What literals render as -/

theorem Eval.ofNumeral_ok {α : Type} (a : α) : ofNumeral (.ok a) = pure a := rfl

theorem render_single {n : Node} {t : Text} (value : evaluate host env n = pure (.str t)) :
    render host env [n] = pure t := by
  rw [render_cons, value, pure_bind, Value.text, Eval.ofNumeral_ok, pure_bind, render_nil, pure_bind, List.append_nil]

theorem render_unescaped {token t : Text} {v : Value} (decoded : decodeLiteral token = .ok v)
    (written : v.text = .ok t) : render host env [.unescaped (.primitive token)] = pure t := by
  apply render_single
  rw [evaluate_unescaped, evaluate_primitive, decoded, Eval.ofNumeral_ok, pure_bind, written, Eval.ofNumeral_ok,
    pure_bind]

/-- The empty string counts as false, and it is escaped as the empty text that stands for what is false. -/
theorem render_escaped {token t : Text} (decoded : decodeLiteral token = .ok (.str t)) :
    render host env [.escaped (.primitive token)] = pure (escapeHtml t) := by
  apply render_single
  rw [evaluate_escaped, evaluate_primitive, decoded, Eval.ofNumeral_ok, pure_bind, Value.text, Eval.ofNumeral_ok]
  cases t <;> rfl

theorem writeInt_number {ds : Text} (short : ds.length ≤ digitLimit) :
    Numeral.writeInt (Text.number ds) = .ok (Nat.toDigits 10 (Text.number ds)) := by
  have bound : Text.number ds < Numeral.writeBound :=
    Nat.lt_of_lt_of_le (Text.number_lt ds) (pow_le_writeBound short)
  exact Numeral.writeInt_eq_ok_iff.mpr ⟨bound, rfl⟩

/-- A tag of a string renders as the text between its quotes, or as that text escaped. A tag of digits that are not
too many renders as the numeral of the number that they denote. -/
theorem literal_renders (host : Host) (env : Mapping) (limit : Int) :
    let raw (token : Text) := Template.parse limit ("\x7b\x7b\x7b ".toList ++ token ++ " \x7d\x7d\x7d".toList)
    let escaped (token : Text) := Template.parse limit ("\x7b\x7b ".toList ++ token ++ " \x7d\x7d".toList)
    (∀ quote w, quote = '\'' ∨ quote = '"' → quote ∉ w →
      (raw (quote :: w ++ [quote])).diagnostics = [] ∧
      (render host env (raw (quote :: w ++ [quote])).nodes).run = ⟨[], .ok w⟩ ∧
      (escaped (quote :: w ++ [quote])).diagnostics = [] ∧
      (render host env (escaped (quote :: w ++ [quote])).nodes).run = ⟨[], .ok (escapeHtml w)⟩) ∧
    ∀ ds, Digits ds → ds.length ≤ digitLimit → (raw ds).diagnostics = [] ∧
      ∃ t, Text.IsNumeral (Text.number ds) t ∧ (render host env (raw ds).nodes).run = ⟨[], .ok t⟩ := by
  intro raw escaped
  have readRaw {token : Text} (literal : IsLiteral token) : raw token = ⟨[.unescaped (.primitive token)], []⟩ := by
    have read := Template.parse_tag (.unescaped (.primitive literal)) limit
    simpa [raw, Node.print, printTag, openBraces, closeBraces] using read
  have readEscaped {token : Text} (literal : IsLiteral token) :
      escaped token = ⟨[.escaped (.primitive token)], []⟩ := by
    have read := Template.parse_tag (.escaped (.primitive literal)) limit
    simpa [escaped, Node.print, printTag, openBraces, closeBraces] using read
  constructor
  · intro quote w mark plain
    have decoded := decodeLiteral_quoted mark w
    rw [readRaw (.string mark plain), readEscaped (.string mark plain), render_unescaped decoded rfl,
      render_escaped decoded]
    exact ⟨rfl, rfl, rfl, rfl⟩
  · intro ds digits short
    have decoded : decodeLiteral ds = .ok (.int (Text.number ds)) := by
      rw [decodeLiteral_digits digits, if_neg (Nat.not_lt.mpr short)]
    rw [readRaw (.whole digits), render_unescaped decoded (writeInt_number short)]
    exact ⟨rfl, _, Text.isNumeral_toDigits _, rfl⟩

/-- A string that looks like the end of a tag and a section, and digits of three scripts with zeros in front. -/
theorem literal_renders_scripts :
    let w := " \x7d\x7d\x7d\n\x7b\x7b# a \x7d\x7d'".toList
    let ds := "\u0660\u0660\u096A2".toList
    let raw (token : Text) := Template.parse 0 ("\x7b\x7b\x7b ".toList ++ token ++ " \x7d\x7d\x7d".toList)
    '"' ∉ w ∧ (raw ('"' :: w ++ ['"'])).diagnostics = [] ∧
      (render Host.empty .empty (raw ('"' :: w ++ ['"'])).nodes).run = ⟨[], .ok w⟩ ∧
      Digits ds ∧ ds.length ≤ digitLimit ∧ (raw ds).diagnostics = [] ∧
      ∃ t, Text.IsNumeral 42 t ∧ (render Host.empty .empty (raw ds).nodes).run = ⟨[], .ok t⟩ := by
  intro w ds raw
  obtain ⟨strings, numbers⟩ := literal_renders Host.empty .empty 0
  have plain : '"' ∉ w := by decide
  have digits : Digits ds := ⟨List.cons_ne_nil _ _, List.all_eq_true.mp rfl⟩
  have short : ds.length ≤ digitLimit := by decide
  have value : Text.number ds = 42 := by decide
  obtain ⟨clean, shown, -⟩ := strings '"' w (.inr rfl) plain
  obtain ⟨clean', t, numeral, shown'⟩ := numbers ds digits short
  exact ⟨plain, clean, shown, digits, short, clean', t, value ▸ numeral, shown'⟩

end Stencil
