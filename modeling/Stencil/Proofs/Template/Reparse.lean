import Stencil.Proofs.Template.Reading

/-!
# Printing and reading again

A printed template is read as the same nodes, with the same problems in the same order: `parse_print`. What
is kept as text because a tag in it cannot be read is again the end of its node list, and is stuck at the
same tag.
-/

namespace Stencil

open Grammar Stencil.Parser
open Node (printAll framed_printTag)

/-! ### Texts in front of printed nodes -/

theorem opens_append_congr {y r u : Text} (nonempty : y ≠ []) (opens : Opens r) (opens' : Opens u) :
    Opens (y ++ r) ↔ Opens (y ++ u) := by
  obtain ⟨r, rfl⟩ := opens
  obtain ⟨u, rfl⟩ := opens'
  match y with
  | [] => exact absurd rfl nonempty
  | [c] => simp [Opens, openBraces]
  | c :: d :: y => simp [Opens, openBraces]

theorem Reads.of_nil {depth k : Nat} {ns : List Node} {fs : List Fault} (reads : Reads depth k [] ns fs) :
    ns = [] ∧ fs = [] := by
  have read := reads.readNodes_eq
  rw [readNodes_nil] at read
  exact ⟨(congrArg Traced.result read).symm, (congrArg Traced.events read).symm⟩

theorem Reads.opens_print {depth k : Nat} {s : Text} {ns : List Node} {fs : List Fault}
    (reads : Reads depth k s ns fs) (opens : Opens s) : Opens (printAll ns) := by
  cases reads with
  | nil => exact opens
  | @text _ _ t _ _ _ nonempty plain =>
    cases t with
    | nil => exact absurd rfl nonempty
    | cons c t => exact absurd opens plain.1
  | stuck => simpa [printAll, Node.print] using opens
  | tag spelled => exact spelled.printed.opens _
  | @block _ _ sense name _ _ _ _ body ns =>
    rw [printAll, Node.print, Node.print, List.append_assoc, List.append_assoc]
    exact (framed_printTag _ _).opens _

/-! ### Reading what was printed -/

theorem Reads.printed {depth k : Nat} {s : Text} {ns : List Node} {fs : List Fault}
    (reads : Reads depth k s ns fs) (k' : Nat) :
    ∃ fs', Reads depth k' (printAll ns) ns fs' ∧ fs'.map Fault.cause = fs.map Fault.cause := by
  induction reads generalizing k' with
  | nil => exact ⟨[], .nil, rfl⟩
  | text nonempty plain next rest ih =>
    obtain ⟨fs', later, causes⟩ := ih k'
    refine ⟨fs', ?_, causes⟩
    rw [printAll, Node.print]
    rcases next with rfl | opens
    · obtain ⟨rfl, -⟩ := rest.of_nil
      exact .text nonempty plain (.inl rfl) later
    · have front := rest.opens_print opens
      have plain' := (nowhere_congr fun y nonempty _ => opens_append_congr nonempty opens front).mp plain
      exact .text nonempty plain' (.inr front) later
  | @stuck _ _ s cause opens stuck =>
    rw [printAll, Node.print, printAll, List.append_nil]
    exact ⟨[⟨cause, k' + s.length⟩], .stuck opens stuck, rfl⟩
  | tag spelled valid rest ih =>
    obtain ⟨fs', later, causes⟩ := ih k'
    exact ⟨fs', .tag spelled.printed valid later, causes⟩
  | @block _ _ sense name _ _ foot s body ns es fs named opened ended first inner rest ihInner ih =>
    obtain ⟨fs', later, causes⟩ := ih k'
    obtain ⟨es', inside, causes'⟩ := ihInner (k' + (printTag ['/'] name ++ printAll ns).length)
    have ended' : Node.Framed ['/'] name (printTag ['/'] name) := framed_printTag _ _
    -- The nodes of the body decide about end markers in both of its spellings.
    have avoids := (inner.nowhere_iff named (ended.opens s)).mp first
    have first' := (inside.nowhere_iff named (ended'.opens (printAll ns))).mpr avoids
    refine ⟨es' ++ fs', ?_, by rw [List.map_append, List.map_append, causes, causes']⟩
    rw [printAll, Node.print, Node.print]
    exact .block named (framed_printTag _ _) ended' first' inside later

def TagFault.problem (limit : Int) : TagFault → Problem
  | .malformed => .malformedTag
  | .unterminated name => .unterminatedSection name
  | .refused => .nestingTooDeep limit

theorem Fault.diagnostic_problem (source : Text) (limit : Int) (f : Fault) :
    (f.diagnostic source limit).problem = TagFault.problem limit f.cause := by
  cases f with
  | mk cause left => cases cause <;> rfl

/-- Printed and read again, a template has the same nodes, and the same problems in the same order. -/
theorem Template.parse_print (limit : Int) (source : Text) :
    (parse limit (parse limit source).print).nodes = (parse limit source).nodes ∧
    (parse limit (parse limit source).print).diagnostics.map Diagnostic.problem =
      (parse limit source).diagnostics.map Diagnostic.problem ∧
    (parse limit (parse limit source).print).print = (parse limit source).print := by
  have reads := reads_readNodes limit.toNat 0 source
  obtain ⟨fs, again, causes⟩ := reads.printed 0
  have read : readNodes (readBody limit.toNat) 0 (parse limit source).print = ⟨fs, (parse limit source).nodes⟩ :=
    again.readNodes_eq
  have nodes : (parse limit (parse limit source).print).nodes = (parse limit source).nodes := by
    show (readNodes (readBody limit.toNat) 0 (parse limit source).print).result = _
    rw [read]
  have problems (t : Text) (gs : List Fault) : (gs.map (Fault.diagnostic t limit)).map Diagnostic.problem =
      (gs.map Fault.cause).map (TagFault.problem limit) := by
    simp [Fault.diagnostic_problem]
  refine ⟨nodes, ?_, by rw [print, nodes, print]⟩
  show ((readNodes (readBody limit.toNat) 0 (parse limit source).print).events.map _).map _ = _
  rw [read, problems, causes, ← problems source]
  rfl

end Stencil
