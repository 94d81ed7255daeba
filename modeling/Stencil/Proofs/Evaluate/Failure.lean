import Stencil.Proofs.Evaluate.Block
import Stencil.Proofs.Grammar.Avoid

/-!
# Where rendering may fail

A template as it is read fails in two places only: at a literal that cannot be decoded, and where a value is
written as text. `render_fails` names the literal or the value.
-/

namespace Stencil

open Grammar
open Node (partsAll)

/-- Node lists as they are read: texts, tags of names and literals, and sections over names. -/
inductive Formed : List Node → Prop
  | nil : Formed []
  | text {t : Text} {ns : List Node} (rest : Formed ns) : Formed (.text t :: ns)
  | tag {n : Node} {ns : List Node} (valid : IsTag n) (rest : Formed ns) : Formed (n :: ns)
  | block {sense : Sense} {name : Text} {body ns : List Node} (named : IsName name) (inner : Formed body)
      (rest : Formed ns) : Formed (.block sense (.name name) body :: ns)

theorem Formed.mem_partsAll {ns : List Node} {m : Node} (formed : Formed ns) (member : m ∈ partsAll ns) :
    (∃ t, m = .text t) ∨ (∃ sense name body, m = .block sense (.name name) body) ∨ IsTag m ∨
      (∃ path, IsName path ∧ m = .name path) ∨ IsValue m := by
  induction formed with
  | nil => cases member
  | text rest ih =>
    rcases List.mem_append.mp member with here | later
    · rw [Node.parts, List.mem_singleton] at here
      exact .inl ⟨_, here⟩
    · exact ih later
  | tag valid rest ih =>
    rcases List.mem_append.mp member with here | later
    · rcases valid.mem_parts here with rfl | inside
      · exact .inr (.inr (.inl valid))
      · exact .inr (.inr (.inr inside))
    · exact ih later
  | block named inner rest ihInner ih =>
    rcases List.mem_append.mp member with here | later
    · rw [Node.parts, Node.parts, List.mem_cons, List.mem_append, List.mem_singleton] at here
      rcases here with same | same | inside
      · exact .inr (.inl ⟨_, _, _, same⟩)
      · exact .inr (.inr (.inr (.inl ⟨_, named, same⟩)))
      · exact ihInner inside
    · exact ih later

theorem Formed.name {ns : List Node} {path : Text} (formed : Formed ns) (member : .name path ∈ partsAll ns) :
    IsName path := by
  obtain ⟨_, same⟩ | ⟨_, _, _, same⟩ | valid | ⟨_, named, same⟩ | valid := formed.mem_partsAll member
  · cases same
  · cases same
  · cases valid
  · cases same
    exact named
  · cases valid with
    | name named => exact named

theorem Formed.literal {ns : List Node} {token : Text} (formed : Formed ns)
    (member : .primitive token ∈ partsAll ns) : IsLiteral token := by
  obtain ⟨_, same⟩ | ⟨_, _, _, same⟩ | valid | ⟨_, -, same⟩ | valid := formed.mem_partsAll member
  · cases same
  · cases same
  · cases valid
  · cases same
  · cases valid with
    | primitive literal => exact literal

theorem Formed.helper {ns : List Node} {f : Node} {args : List Node} (formed : Formed ns)
    (member : .helper f args ∈ partsAll ns) : (∃ name, f = .name name) ∧ ∀ v ∈ args, IsValue v := by
  obtain ⟨_, same⟩ | ⟨_, _, _, same⟩ | valid | ⟨_, -, same⟩ | valid := formed.mem_partsAll member
  · cases same
  · cases same
  · cases valid with
    | helper named valid => exact ⟨⟨_, rfl⟩, valid⟩
  · cases same
  · cases valid

/-- While the nodes are rendered, up to the first failure, the value is written as text: it is that of a node
in the list, or that in a tag. -/
inductive Writes (host : Host) : Mapping → List Node → Value → Prop
  | node {env : Mapping} {n : Node} {ns : List Node} {v : Value} (value : (evaluate host env n).Returns v) :
      Writes host env (n :: ns) v
  | escaped {env : Mapping} {inner : Node} {ns : List Node} {v : Value}
      (value : (evaluate host env inner).Returns v) (shown : v.truthy = true) :
      Writes host env (.escaped inner :: ns) v
  | unescaped {env : Mapping} {inner : Node} {ns : List Node} {v : Value}
      (value : (evaluate host env inner).Returns v) : Writes host env (.unescaped inner :: ns) v
  | body {env view : Mapping} {sense : Sense} {context : Node} {body ns : List Node} {v w : Value}
      {before behind : List Mapping} (value : (evaluate host env context).Returns v)
      (views : env.views sense v = before ++ view :: behind)
      (early : ∀ view' ∈ before, ∃ t, (render host view' body).Returns t) (inside : Writes host view body w) :
      Writes host env (.block sense context body :: ns) w
  | later {env : Mapping} {n : Node} {ns : List Node} {v w : Value} {t : Text}
      (value : (evaluate host env n).Returns v) (written : v.text = .ok t) (behind : Writes host env ns w) :
      Writes host env (n :: ns) w

/-- The fault is that of a literal in the nodes or of a value that they write. -/
inductive Stops (host : Host) (env : Mapping) (ns : List Node) : EvalFault → Prop
  | literal {token : Text} {fault : NumeralFault} (member : .primitive token ∈ partsAll ns)
      (wrong : decodeLiteral token = .error fault) : Stops host env ns (.numeral fault)
  | writing {v : Value} {fault : NumeralFault} (writes : Writes host env ns v) (wrong : v.text = .error fault) :
      Stops host env ns (.numeral fault)

variable {host : Host} {env : Mapping} {e : EvalFault}

/-! ### Values and calls -/

theorem Grammar.IsValue.fails {v : Node} (valid : IsValue v) (failed : (evaluate host env v).Fails e) :
    ∃ token fault, v = .primitive token ∧ decodeLiteral token = .error fault ∧ e = .numeral fault := by
  cases valid with
  | name =>
    rw [evaluate_name] at failed
    exact absurd failed Eval.fails_pure
  | @primitive token =>
    rw [evaluate_primitive] at failed
    obtain ⟨fault, wrong, same⟩ := Eval.fails_ofNumeral.mp failed
    exact ⟨token, fault, rfl, wrong, same⟩

/-- A call returns whether or not the helper does. -/
theorem not_fails_callHelper {name f : Text} {held args : List Value} :
    ¬ (callHelper host name f held args).Fails e := by
  unfold callHelper
  intro failed
  rcases Eval.fails_bind.mp failed with failed | ⟨_, -, failed⟩
  · cases failed
  · cases outcome : host f held args with
    | ok v =>
      rw [outcome] at failed
      cases failed
    | error reason =>
      rw [outcome] at failed
      cases failed

theorem fails_call {name : Text} {args : List Node} (valid : ∀ v ∈ args, IsValue v)
    (failed : (evaluate host env (.helper (.name name) args)).Fails e) :
    ∃ token fault, .primitive token ∈ args ∧ decodeLiteral token = .error fault ∧ e = .numeral fault := by
  rw [evaluate_helper, evaluate_name, pure_bind] at failed
  split at failed
  · rcases Eval.fails_bind.mp failed with failed | ⟨vs, -, failed⟩
    · rw [evaluateAll_eq_mapM, Eval.fails_mapM] at failed
      obtain ⟨before, v, behind, rfl, -, failed⟩ := failed
      have member : v ∈ before ++ v :: behind := by simp
      obtain ⟨token, fault, rfl, wrong, same⟩ := (valid v member).fails failed
      exact ⟨token, fault, member, wrong, same⟩
    · exact absurd failed not_fails_callHelper
  · exact absurd failed Eval.fails_pure

/-! ### Tags and sections -/

theorem Grammar.IsTag.stops {n : Node} (valid : IsTag n) (failed : (evaluate host env n).Fails e)
    (ns : List Node) : Stops host env (n :: ns) e := by
  cases valid with
  | @escaped v valid =>
    rw [evaluate_escaped] at failed
    rcases Eval.fails_bind.mp failed with failed | ⟨w, value, failed⟩
    · obtain ⟨token, fault, rfl, wrong, rfl⟩ := valid.fails failed
      exact .literal (by simp [partsAll, Node.parts]) wrong
    · split at failed
      · next shown =>
        rcases Eval.fails_bind.mp failed with failed | ⟨t, -, failed⟩
        · obtain ⟨fault, wrong, rfl⟩ := Eval.fails_ofNumeral.mp failed
          exact .writing (.escaped value shown) wrong
        · exact absurd failed Eval.fails_pure
      · exact absurd failed Eval.fails_pure
  | @unescaped v valid =>
    rw [evaluate_unescaped] at failed
    rcases Eval.fails_bind.mp failed with failed | ⟨w, value, failed⟩
    · obtain ⟨token, fault, rfl, wrong, rfl⟩ := valid.fails failed
      exact .literal (by simp [partsAll, Node.parts]) wrong
    · rcases Eval.fails_bind.mp failed with failed | ⟨t, -, failed⟩
      · obtain ⟨fault, wrong, rfl⟩ := Eval.fails_ofNumeral.mp failed
        exact .writing (.unescaped value) wrong
      · exact absurd failed Eval.fails_pure
  | helper named valid =>
    obtain ⟨token, fault, member, wrong, rfl⟩ := fails_call valid failed
    have inside := Node.mem_partsAll.mpr ⟨_, member, Node.mem_parts_self _⟩
    exact .literal (by simp [partsAll, Node.parts, inside]) wrong

theorem Stops.later {n : Node} {ns : List Node} {v : Value} {t : Text} (value : (evaluate host env n).Returns v)
    (written : v.text = .ok t) (stops : Stops host env ns e) : Stops host env (n :: ns) e := by
  cases stops with
  | literal member wrong => exact .literal (List.mem_append_right _ member) wrong
  | writing writes wrong => exact .writing (.later value written writes) wrong

theorem stops_cons {n : Node} {ns : List Node} (here : (evaluate host env n).Fails e → Stops host env (n :: ns) e)
    (behind : (render host env ns).Fails e → Stops host env ns e) (failed : (render host env (n :: ns)).Fails e) :
    Stops host env (n :: ns) e := by
  rcases fails_render_cons.mp failed with failed | ⟨v, value, ⟨fault, wrong, rfl⟩ | ⟨t, written, failed⟩⟩
  · exact here failed
  · exact .writing (.node value) wrong
  · exact (behind failed).later value written

theorem block_stops {sense : Sense} {name : Text} {body : List Node}
    (inside : ∀ {view : Mapping}, (render host view body).Fails e → Stops host view body e) (ns : List Node)
    (failed : (evaluate host env (.block sense (.name name) body)).Fails e) :
    Stops host env (.block sense (.name name) body :: ns) e := by
  rw [evaluate_block, evaluate_name, pure_bind] at failed
  rcases Eval.fails_bind.mp failed with failed | ⟨parts, -, failed⟩
  · obtain ⟨before, view, behind, views, early, failed⟩ := Eval.fails_mapM.mp failed
    have value : (evaluate host env (.name name)).Returns (env.lookup name) := by
      rw [evaluate_name, Eval.returns_pure]
    cases inside failed with
    | literal member wrong => exact .literal (by simp [partsAll, Node.parts, member]) wrong
    | writing writes wrong => exact .writing (.body value views early writes) wrong
  · exact absurd failed Eval.fails_pure

/-- A template fails at one of its literals, or where it writes a value that has no text. -/
theorem render_fails {ns : List Node} (formed : Formed ns) (failed : (render host env ns).Fails e) :
    Stops host env ns e := by
  -- The bodies of sections are rendered in other environments.
  induction formed generalizing env with
  | nil =>
    rw [render_nil] at failed
    exact absurd failed Eval.fails_pure
  | text rest ih =>
    refine stops_cons (fun failed => ?_) ih failed
    rw [evaluate_text] at failed
    exact absurd failed Eval.fails_pure
  | tag valid rest ih => exact stops_cons (fun failed => valid.stops failed _) ih failed
  | block named inner rest ihInner ih => exact stops_cons (block_stops ihInner _) ih failed

end Stencil
