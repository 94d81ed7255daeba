import Stencil.Proofs.Evaluate.Calls
import Stencil.Proofs.Evaluate.Failure
import Stencil.Proofs.Evaluate.Literal
import Stencil.Proofs.Evaluate.Writing
import Stencil.Proofs.Template.Reading

/-!
# Rendering templates

What is read from a source renders as text, unless a whole number in it is too long. Helpers that fail do not
change that: `Template.render_parse`.
-/

namespace Stencil

open Grammar
open Node (partsAll SpellsTag)

variable {host : Host} {env : Mapping}

theorem Reads.formed {depth k : Nat} {s : Text} {ns : List Node} {fs : List Fault}
    (reads : Reads depth k s ns fs) : Formed ns := by
  induction reads with
  | nil => exact .nil
  | text nonempty plain next rest ih => exact .text ih
  | stuck => exact .text .nil
  | tag spelled valid rest ih => exact .tag valid ih
  | block named opened ended first inner rest ihInner ih => exact .block named ihInner ih

/-- Names and literals call no helpers. -/
theorem evaluateAll_quiet {args : List Node} (valid : ∀ v ∈ args, IsValue v) :
    (evaluateAll host env args).run.events = [] := by
  have naming : Naming (fun _ => False) (partsAll args) := by
    intro f given member
    obtain ⟨v, inside, member⟩ := Node.mem_partsAll.mp member
    rw [(valid v inside).parts_eq, List.mem_singleton] at member
    subst member
    cases valid _ inside
  have steady : Steady host (fun _ => False) fun h => evaluateAll h env args := steady_evaluateAll args naming env
  obtain ⟨calls, r, names, run⟩ := steady
  obtain rfl : calls = [] := List.eq_nil_iff_forall_not_mem.mpr names
  rw [run host (Host.Mends.refl host), List.flatMap_nil]

theorem Stops.overlong {ns : List Node} {e : EvalFault} (formed : Formed ns)
    (writable : ∀ v, Writes host env ns v → v.Writable) (stops : Stops host env ns e) :
    ∃ token, .primitive token ∈ partsAll ns ∧ Overlong token ∧
      e = .numeral (.tooManyDigits (token.countP Text.isDigit)) := by
  cases stops with
  | @literal token fault member wrong =>
    obtain ⟨long, rfl⟩ := (decodeLiteral_eq_error_iff (formed.literal member)).mp wrong
    exact ⟨token, member, long, rfl⟩
  | @writing v fault writes wrong =>
    obtain ⟨t, written⟩ := v.text_of_writable (writable v writes)
    rw [written] at wrong
    cases wrong

namespace Template

/-- What is read from a source renders as text if the values that it writes have texts and its literals are
not too long, and it fails at such a literal only. A helper that fails leaves its warning, and nothing else
tells it from one that gives nothing. -/
theorem render_parse (host : Host) (env : Mapping) (limit : Int) (source : Text) :
    let nodes := (parse limit source).nodes
    (∀ e, (render host env nodes).Fails e → ∃ fault, e = .numeral fault) ∧
    ((∀ v, Writes host env nodes v → v.Writable) →
      ((∀ token, .primitive token ∈ partsAll nodes → ¬ Overlong token) →
        ∃ t, (render host env nodes).Returns t) ∧
      ∀ e, (render host env nodes).Fails e → ∃ token, .primitive token ∈ partsAll nodes ∧ Overlong token ∧
        e = .numeral (.tooManyDigits (token.countP Text.isDigit))) ∧
    (∃ calls : List Call, (∀ c ∈ calls, ∃ args, .helper (.name c.name) args ∈ partsAll nodes) ∧
      ∀ host', Host.Mends host host' → (render host' env nodes).run =
        ⟨calls.flatMap (Call.events host'), (render host env nodes).run.result⟩) ∧
    ∀ name args, .helper (.name name) args ∈ partsAll nodes → ∀ view f held vs reason behind,
      Mapping.lookup view name = .helper f held → (evaluateAll host view args).Returns vs →
      host f held vs = .error reason → (render host view (.helper (.name name) args :: behind)).run =
        ⟨.call f vs :: .failure name reason :: (render host view behind).run.events,
          (render host view behind).run.result⟩ := by
  intro nodes
  have formed : Formed nodes := (reads_readNodes limit.toNat 0 source).formed
  have long (writable : ∀ v, Writes host env nodes v → v.Writable) {e : EvalFault}
      (failed : (render host env nodes).Fails e) := (render_fails formed failed).overlong formed writable
  refine ⟨?_, ?_, ?_, ?_⟩
  · intro e failed
    cases render_fails formed failed with
    | literal | writing => exact ⟨_, rfl⟩
  · intro writable
    refine ⟨?_, fun e => long writable⟩
    intro short
    rcases Eval.returns_or_fails (render host env nodes) with returned | ⟨e, failed⟩
    · exact returned
    · obtain ⟨token, member, overlong, -⟩ := long writable failed
      exact absurd overlong (short token member)
  · let named (name : Text) : Prop := ∃ args, .helper (.name name) args ∈ partsAll nodes
    have naming : Naming named (partsAll nodes) := by
      intro f args member
      obtain ⟨⟨name, rfl⟩, -⟩ := formed.helper member
      exact ⟨args, by rwa [Node.print]⟩
    have steady : Steady host named fun h => render h env nodes := steady_render nodes naming env
    obtain ⟨calls, r, names, run⟩ := steady
    refine ⟨calls, names, fun host' mends => ?_⟩
    rw [run host' mends, run host (Host.Mends.refl host)]
  · intro name args member view f held vs reason behind found given failed
    have quiet : (evaluateAll host view args).run.events = [] := evaluateAll_quiet (formed.helper member).2
    exact render_failing_call found (Traced.ext_iff.mpr ⟨quiet, given⟩) failed behind

/-- A call with a number, of a helper that fails, in front of a value that is escaped. -/
theorem render_parse_failing :
    let source := "\x7b\x7b% f: 12 \x7d\x7d\x7b\x7b x \x7d\x7d".toList
    let env := Mapping.entries [(.str ['f'], .helper "fail".toList [.str "boom".toList]),
      (.str ['x'], .str ['<', 'y'])]
    let host : Host := fun _ _ _ => .error "boom".toList
    let nodes : List Node := [.helper (.name ['f']) [.primitive ['1', '2']], .escaped (.name ['x'])]
    (parse 64 source).nodes = nodes ∧ (∀ v, Writes host env nodes v → v.Writable) ∧
      (∀ token, .primitive token ∈ partsAll nodes → ¬ Overlong token) ∧
      (∃ t, (render host env nodes).Returns t) ∧
      (render host env nodes).run =
        ⟨[.call "fail".toList [.int 12], .failure ['f'] "boom".toList], .ok "&lt;y".toList⟩ := by
  intro source env host nodes
  have none : Text.Blanks [] := Node.blanks_nil
  have one : Text.Blanks [' '] := Node.blanks_single
  have call : SpellsTag (.helper (.name ['f']) [.primitive ['1', '2']]) "\x7b\x7b% f: 12 \x7d\x7d".toList :=
    .callWith ⟨[' '], [], one, none, rfl⟩ (.primitive _) ⟨[' '], [' '], one, one, rfl⟩ .nil
  have value : SpellsTag (.escaped (.name ['x'])) "\x7b\x7b x \x7d\x7d".toList :=
    .escaped (.name _) ⟨_, ⟨[' '], [' '], one, one, rfl⟩, rfl⟩
  have digits : Digits ['1', '2'] :=
    ⟨List.cons_ne_nil _ _, List.forall_mem_cons.mpr ⟨rfl, List.forall_mem_singleton.mpr rfl⟩⟩
  have called : IsTag (.helper (.name ['f']) [.primitive ['1', '2']]) :=
    .helper rfl (List.forall_mem_singleton.mpr (.primitive (.whole digits)))
  have reads : Reads 64 0 source nodes [] := .tag call called (.tag value (.escaped (.name rfl rfl)) .nil)
  have read : (parse 64 source).nodes = nodes := congrArg Traced.result reads.readNodes_eq
  have writable : ∀ v, Writes host env nodes v → v.Writable := by
    intro v writes
    dsimp only [nodes] at writes
    cases writes with
    | node value =>
      obtain rfl := Except.ok.inj value
      exact List.forall_mem_nil _
    | later _ _ writes =>
      cases writes with
      | node value =>
        obtain rfl := Except.ok.inj value
        exact List.forall_mem_nil _
      | escaped value =>
        obtain rfl := Except.ok.inj value
        exact List.forall_mem_nil _
      | later _ _ writes => cases writes
  have short : ∀ token, .primitive token ∈ partsAll nodes → ¬ Overlong token := by
    intro token member long
    have same : token = ['1', '2'] := by simpa [nodes, partsAll, Node.parts] using member
    subst same
    have few : ['1', '2'].countP Text.isDigit ≤ 2 := List.countP_le_length
    have many := long.2.2
    unfold Numeral.digitLimit at many
    omega
  obtain ⟨-, lenient, -, failing⟩ := render_parse host env 64 source
  rw [read] at lenient failing
  have whole := failing ['f'] [.primitive ['1', '2']] List.mem_cons_self env "fail".toList [.str "boom".toList]
    [.int 12] "boom".toList [.escaped (.name ['x'])] rfl rfl rfl
  exact ⟨read, writable, short, (lenient writable).1 short, whole⟩

end Template

end Stencil
