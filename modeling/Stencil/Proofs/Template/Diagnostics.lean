import Mathlib.Data.List.Forall2
import Mathlib.Data.List.Infix
import Stencil.Proofs.Template.Session

/-!
# Where diagnostics point

The diagnostics of a template stand for the texts in it that hold opening braces, one for one and in the
order of the document, and each of them points at the place of its text in the source: `diagnostics_point`.
So the first diagnostic is the first in the source, and where problems are refused the error tells of it.
-/

namespace Stencil

open Grammar Stencil.Parser
open Node (texts)

/-- The text was meant to be a tag. -/
abbrev Degraded (x : Text) : Prop := openBraces <:+: x

/-- The diagnostic is about the text `x`, which stands at its position, line and column. -/
structure PointsAt (source : Text) (d : Diagnostic) (x : Text) : Prop where
  opens : openBraces <+: x
  found : (source.drop d.position).take x.length = x
  line : d.line = 1 + (source.take d.position).count '\n'
  /-- The column counts from the last line break before the position, or from the start. -/
  column : ∃ before behind, source.take d.position = before ++ behind ∧
    (before = [] ∨ before.getLast? = some '\n') ∧ '\n' ∉ behind ∧ d.column = 1 + behind.length

/-! ### Faults and their texts -/

/-- The fault lies where `x` begins in `s`, with `k` characters behind `s`. -/
structure Located (k : Nat) (s : Text) (f : Fault) (x : Text) : Prop where
  opens : Opens x
  place : ∃ a b, s = a ++ x ++ b ∧ f.left = k + (x ++ b).length

theorem Located.within {k : Nat} {s x : Text} {f : Fault} (a b : Text)
    (located : Located (k + b.length) s f x) : Located k (a ++ s ++ b) f x := by
  obtain ⟨opens, a', b', rfl, left⟩ := located
  refine ⟨opens, a ++ a', b' ++ b, by simp, ?_⟩
  rw [left]
  simp only [List.length_append]
  omega

theorem Located.behind {k : Nat} {s x : Text} {f : Fault} (a : Text) (located : Located k s f x) :
    Located k (a ++ s) f x := by
  simpa using Located.within (k := k) a [] located

theorem Located.bounds {k : Nat} {s x : Text} {f : Fault} (located : Located k s f x) :
    k < f.left ∧ f.left ≤ k + s.length := by
  obtain ⟨opens, a, b, rfl, left⟩ := located
  have long := opens.length_le
  simp only [openBraces, List.length_cons, List.length_nil] at long
  rw [left]
  simp only [List.length_append]
  omega

theorem not_degraded_of_nowhere {t s : Text} (plain : Nowhere Opens t s) : ¬ Degraded t := by
  induction t with
  | nil => simp [Degraded, openBraces]
  | cons c t ih =>
    intro inside
    rcases List.infix_cons_iff.mp inside with front | later
    · exact plain.1 (front.trans (List.prefix_append _ _))
    · exact ih plain.2 later

/-- The texts with opening braces among the nodes, at any depth. -/
def degraded (ns : List Node) : List Text := (texts ns).filter (fun x => decide (Degraded x))

theorem Reads.located {depth k : Nat} {s : Text} {ns : List Node} {fs : List Fault}
    (reads : Reads depth k s ns fs) : List.Forall₂ (Located k s) fs (degraded ns) := by
  induction reads with
  | nil => exact .nil
  | @text _ _ t s ns _ nonempty plain next rest ih =>
    rw [degraded, Node.texts_text, List.filter_cons_of_neg (by simpa using not_degraded_of_nowhere plain)]
    exact ih.imp fun _ _ located => located.behind t
  | @stuck _ k s _ opens stuck =>
    rw [degraded, Node.texts_text, List.filter_cons_of_pos (by simpa using opens.isInfix)]
    exact .cons ⟨opens, [], [], by simp, by simp⟩ .nil
  | @tag _ _ _ p _ ns _ spelled valid rest ih =>
    rw [degraded, spelled.texts_cons]
    exact ih.imp fun _ _ located => located.behind p
  | @block _ _ _ _ head b foot s _ _ _ _ named opened ended first inner rest ihInner ih =>
    rw [degraded, Node.texts_block, List.filter_append]
    refine List.rel_append (ihInner.imp fun _ _ located => ?_) (ih.imp fun _ _ located => located.behind _)
    simpa using located.within head (foot ++ s)

theorem Reads.bounds {depth k : Nat} {s : Text} {ns : List Node} {fs : List Fault}
    (reads : Reads depth k s ns fs) : ∀ f ∈ fs, k < f.left ∧ f.left ≤ k + s.length :=
  ((List.forall₂_and_left _ _).mp (reads.located.imp fun _ _ located => ⟨located.bounds, located⟩)).1

theorem Reads.ordered {depth k : Nat} {s : Text} {ns : List Node} {fs : List Fault}
    (reads : Reads depth k s ns fs) : fs.Pairwise fun f g => g.left < f.left := by
  induction reads with
  | nil => exact .nil
  | text nonempty plain next rest ih => exact ih
  | stuck => exact List.pairwise_singleton _ _
  | tag spelled valid rest ih => exact ih
  | block named opened ended first inner rest ihInner ih =>
    refine List.pairwise_append.mpr ⟨ihInner, ih, fun f early g late => ?_⟩
    have above := (inner.bounds f early).1
    have below := (rest.bounds g late).2
    rw [List.length_append] at above
    omega

/-! ### Lines and columns -/

theorem lineColumn_column (a : Text) : ∃ before behind, a = before ++ behind ∧
    (before = [] ∨ before.getLast? = some '\n') ∧ '\n' ∉ behind ∧ (lineColumn a).2 = 1 + behind.length := by
  have inside : ∀ c ∈ a.reverse.takeWhile (· != '\n'), (c != '\n') = true :=
    fun c member => List.all_eq_true.mp List.all_takeWhile c member
  have stops := stops_dropWhile (· != '\n') a.reverse
  refine ⟨(a.reverse.dropWhile (· != '\n')).reverse, (a.reverse.takeWhile (· != '\n')).reverse, ?_, ?_, ?_, ?_⟩
  · rw [← List.reverse_append, List.takeWhile_append_dropWhile, List.reverse_reverse]
  · cases rest : a.reverse.dropWhile (· != '\n') with
    | nil => exact .inl rfl
    | cons c u =>
      rw [rest] at stops
      have feed : c = '\n' := by simpa using stops_cons.mp stops
      exact .inr (by simp [feed])
  · intro member
    simpa using inside _ (List.mem_reverse.mp member)
  · rw [List.length_reverse]
    exact Nat.add_comm _ _

theorem Located.pointsAt {source x : Text} {f : Fault} (limit : Int) (located : Located 0 source f x) :
    PointsAt source (f.diagnostic source limit) x := by
  obtain ⟨opens, a, b, rfl, left⟩ := located
  have position : (f.diagnostic (a ++ x ++ b) limit).position = a.length := by
    show (a ++ x ++ b).length - f.left = a.length
    rw [left]
    simp only [List.length_append]
    omega
  have before : (a ++ x ++ b).take (f.diagnostic (a ++ x ++ b) limit).position = a := by
    rw [position, List.append_assoc, List.take_left]
  refine ⟨opens, ?_, ?_, ?_⟩
  · rw [position, List.append_assoc, List.drop_left, List.take_left]
  · rw [before, Nat.add_comm]
    show (lineColumn ((a ++ x ++ b).take (f.diagnostic (a ++ x ++ b) limit).position)).1 = _
    rw [before]
    rfl
  · rw [before]
    obtain ⟨u, v, same, start, plain, column⟩ := lineColumn_column a
    refine ⟨u, v, same, start, plain, ?_⟩
    show (lineColumn ((a ++ x ++ b).take (f.diagnostic (a ++ x ++ b) limit).position)).2 = _
    rw [before, column]

/-! ### Classes of errors -/

/-- Errors of the class are about problems of this kind. -/
inductive Tells : SyntaxClass → Problem → Prop
  | malformedTag : Tells .malformedTag .malformedTag
  | unterminatedSection {name : Text} : Tells .unterminatedSection (.unterminatedSection name)
  | nestingTooDeep {limit : Int} : Tells .nestingTooDeep (.nestingTooDeep limit)

theorem tells_iff {c : SyntaxClass} {p : Problem} : Tells c p ↔ c = p.errorClass := by
  constructor
  · rintro ⟨⟩ <;> rfl
  · rintro rfl
    cases p <;> constructor

/-! ### The diagnostics of a template -/

namespace Template

variable (limit : Int) (source : Text)

theorem diagnostics_located :
    List.Forall₂ (PointsAt source) (parse limit source).diagnostics (degraded (parse limit source).nodes) := by
  have reads := reads_readNodes limit.toNat 0 source
  exact List.forall₂_map_left_iff.mpr (reads.located.imp fun _ _ located => located.pointsAt limit)

theorem diagnostics_ordered :
    (parse limit source).diagnostics.Pairwise fun d e => d.position < e.position := by
  have reads := reads_readNodes limit.toNat 0 source
  refine List.pairwise_map.mpr (reads.ordered.imp_of_mem fun {f g} first second before => ?_)
  show source.length - f.left < source.length - g.left
  have above := reads.bounds f first
  omega

theorem diagnostics_eq_nil_iff :
    (parse limit source).diagnostics = [] ↔ ∀ x ∈ texts (parse limit source).nodes, ¬ Degraded x := by
  have paired := (diagnostics_located limit source).length_eq
  rw [← List.length_eq_zero_iff, paired, List.length_eq_zero_iff, degraded, List.filter_eq_nil_iff]
  simp

theorem parseStrict_fails {e : SyntaxError} : parseStrict source = .error e ↔
    ∃ d ds, (parse defaultLimit source).diagnostics = d :: ds ∧ e = .ofDiagnostic d := by
  cases reported : (parse defaultLimit source).diagnostics with
  | nil =>
    rw [parseStrict_ok reported]
    exact iff_of_false nofun fun ⟨_, _, same, _⟩ => nomatch same
  | cons d ds =>
    rw [parseStrict_error reported]
    constructor
    · intro same
      exact ⟨d, ds, rfl, (Except.error.inj same).symm⟩
    · rintro ⟨_, _, same, rfl⟩
      rw [(List.cons.inj same).1]

theorem parseStrict_eq_error_iff (e : SyntaxError) : parseStrict source = .error e ↔
    e.diagnostic ∈ (parse defaultLimit source).diagnostics ∧
      (∀ d ∈ (parse defaultLimit source).diagnostics, e.diagnostic.position ≤ d.position) ∧
      Tells e.errorClass e.diagnostic.problem := by
  have ordered := diagnostics_ordered defaultLimit source
  rw [parseStrict_fails]
  constructor
  · rintro ⟨d, ds, reported, rfl⟩
    rw [reported] at ordered ⊢
    obtain ⟨first, -⟩ := List.pairwise_cons.mp ordered
    refine ⟨List.mem_cons_self, List.forall_mem_cons.mpr ⟨Nat.le_refl _, fun d' member => ?_⟩, tells_iff.mpr rfl⟩
    exact Nat.le_of_lt (first d' member)
  · rintro ⟨member, least, tells⟩
    obtain ⟨d, ds, reported⟩ := List.exists_cons_of_ne_nil (List.ne_nil_of_mem member)
    rw [reported] at ordered member least
    obtain ⟨first, -⟩ := List.pairwise_cons.mp ordered
    refine ⟨d, ds, reported, SyntaxError.ext_iff.mpr ?_⟩
    have same : e.diagnostic = d := by
      rcases List.mem_cons.mp member with same | later
      · exact same
      · have before := first _ later
        have after := least d List.mem_cons_self
        omega
    exact ⟨same ▸ tells_iff.mp tells, same⟩

/-- The diagnostics that the reader with a stack reports are in order those of the texts with opening braces, and point
at them. Where problems are refused, the error is of the class of the first one, and has its line and column. -/
theorem diagnostics_point :
    List.Forall₂ (PointsAt source) (Session.parse limit source).diagnostics
      (degraded (Session.parse limit source).nodes) ∧
    (Session.parse limit source).diagnostics.Pairwise (fun d e => d.position < e.position) ∧
    ((Session.parse limit source).ok = true ↔ ∀ x ∈ texts (Session.parse limit source).nodes, ¬ Degraded x) ∧
    ((∃ e, parseStrict source = .error e) ↔
      ∃ x ∈ texts (Session.parse defaultLimit source).nodes, Degraded x) ∧
    (∀ e, parseStrict source = .error e ↔ e.diagnostic ∈ (Session.parse defaultLimit source).diagnostics ∧
      (∀ d ∈ (Session.parse defaultLimit source).diagnostics, e.diagnostic.position ≤ d.position) ∧
      Tells e.errorClass e.diagnostic.problem) ∧
    ∀ e, parseStrict source = .error e → e.line = e.diagnostic.line ∧ e.column = e.diagnostic.column ∧
      ∃ x, (degraded (Session.parse defaultLimit source).nodes).head? = some x ∧
        PointsAt source e.diagnostic x := by
  simp only [fun limit => (Session.parse_eq limit source).1]
  refine ⟨diagnostics_located limit source, diagnostics_ordered limit source, ?_, ?_,
    parseStrict_eq_error_iff source, ?_⟩
  · rw [ok, List.isEmpty_iff, diagnostics_eq_nil_iff]
  · have refused : (∃ e, parseStrict source = .error e) ↔ (parse defaultLimit source).diagnostics ≠ [] := by
      simp only [parseStrict_fails, List.ne_nil_iff_exists_cons]
      constructor
      · rintro ⟨_, d, ds, reported, -⟩
        exact ⟨d, ds, reported⟩
      · rintro ⟨d, ds, reported⟩
        exact ⟨_, d, ds, reported, rfl⟩
    rw [refused, ne_eq, diagnostics_eq_nil_iff]
    simp
  · intro e refused
    obtain ⟨d, ds, reported, rfl⟩ := (parseStrict_fails source).mp refused
    have located := diagnostics_located defaultLimit source
    rw [reported] at located
    obtain ⟨x, xs, points, -, same⟩ := List.forall₂_cons_left_iff.mp located
    exact ⟨rfl, rfl, x, by rw [same]; rfl, points⟩

end Template

end Stencil
