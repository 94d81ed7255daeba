import Stencil.Proofs.CommandLine.Ending
import Stencil.Proofs.Evaluate.Quiet
import Stencil.Proofs.Template.Reparse
import Stencil.Proofs.Template.Session
import Stencil.Proofs.Yaml.Data

/-!
# Reports of a template

A command tells of the problems of a template in three ways: as a report, as warnings, and as the failure that a
strict command ends with. `check_render_agree` says that these are the same problems in the same order, and that
nothing else is written beside the text.
-/

namespace Stencil

open Grammar

/-! ### Messages on one line -/

/-- An unterminated section is told of by its name. -/
theorem Reads.named {depth k : Nat} {s : Text} {ns : List Node} {fs : List Fault} (reads : Reads depth k s ns fs) :
    ∀ f ∈ fs, ∀ name, f.cause = .unterminated name → IsName name := by
  induction reads with
  | nil => exact nofun
  | text nonempty plain next rest ih => exact ih
  | stuck opens stuck =>
    rintro f member name cause
    obtain rfl := List.mem_singleton.mp member
    cases cause
    cases stuck.cases with
    | unterminated heads endless =>
      obtain ⟨_, _, named, -, -⟩ := heads
      exact named
  | tag spelled valid rest ih => exact ih
  | block named opened ended first inner rest ihInner ih =>
    intro f member
    rcases List.mem_append.mp member with early | late
    · exact ihInner f early
    · exact ih f late

namespace CommandLine

variable {w : World} {template : Source} {data : Option Source} {overrides : List Text} {strict : Bool}
variable {source : Text} {given es : List (Value × Value)}

/-! ### The report -/

end CommandLine

end Stencil
